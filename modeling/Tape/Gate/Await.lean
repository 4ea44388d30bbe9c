import Tape.Rules

/-! # `await_signal`

The one read of `await_signal` decides what it returns: the resolution, if a signal was
delivered; otherwise nothing, after the run was parked.  `safe_awaitSignal` says so once
for every contract under which the method is run.
-/

namespace Tape.Gate

open Interleave

/-! ## Events -/

/-- What the event read in the gate's row, if it read the row. -/
def gateReading (runId gateName : String) : TapeEvent → Option (Option (Int × String))
  | ⟨_, .sql (.signal (.getSignal r gate)), .ok row⟩ => if (r, gate) = (runId, gateName) then some row else none
  | _ => none

/-- The resolution that the event found delivered. -/
def resolutionRead (runId gateName : String) (event : TapeEvent) : Option String :=
  match gateReading runId gateName event with
  | some (some (delivered, resolutionJson)) => if delivered = 1 then some resolutionJson else none
  | _ => none

/-- What `await_signal` returns after this reading. -/
def awaitAnswer : Option (Int × String) → Bool × String
  | some (delivered, resolutionJson) => if delivered = 1 then (true, resolutionJson) else (false, "")
  | none => (false, "")

/-- The gate for which the event left an awaited row. -/
def awaits : TapeEvent → Option (String × String)
  | ⟨_, .sql (.signal (.awaitGate runId gateName _ _)), .ok _⟩ => some (runId, gateName)
  | _ => none

/-- The event set the run to `WAITING` on a gate. -/
def parks (runId : String) : TapeEvent → Bool
  | ⟨_, .sql (.run (.parkRun r _)), .ok _⟩ => r = runId
  | _ => false

theorem resolutionRead_eq_some {runId gateName resolution : String} {event : TapeEvent} :
    resolutionRead runId gateName event = some resolution ↔
      gateReading runId gateName event = some (some (1, resolution)) := by
  unfold resolutionRead
  split
  next delivered resolutionJson reading =>
    rw [reading]
    split
    next isOne => simp [isOne]
    next notOne => simp [notOne]
  next none =>
    constructor
    · intro impossible
      cases impossible
    · intro reading
      exact absurd reading (none _ _)

theorem awaitAnswer_eq_true {reading : Option (Int × String)} {resolution : String} :
    awaitAnswer reading = (true, resolution) ↔ reading = some (1, resolution) := by
  unfold awaitAnswer
  split
  next delivered resolutionJson =>
    split
    next isOne => simp [isOne]
    next notOne => simp [notOne]
  next => simp

/-! ## The gate's row -/

section Row

variable {runId gateName : String} {tid : Nat} {h : TapeHist} {act : Act} {res : act.Res} {state : World}

/-- A reading is of the row as it is. -/
theorem row_of_gateReading {reading : Option (Int × String)} (answers : tape.Answers act h.state res state)
    (isReading : gateReading runId gateName ⟨tid, act, res⟩ = some reading) :
    state.signals.find? (runId, gateName) = h.state.signals.find? (runId, gateName) ∧
      reading = (h.state.signals.find? (runId, gateName)).map fun row => (row.delivered, row.resolutionJson) := by
  unfold gateReading at isReading
  split at isReading
  next _ r gate row same =>
    cases same
    split at isReading
    next own =>
      cases own
      cases isReading
      obtain ⟨answer, rfl⟩ := exec_of_ok answers
      exact ⟨rfl, Except.ok.inj answer⟩
    next => cases isReading
  next => cases isReading

/-- A delivered row stays delivered, and keeps its resolution unless another one is delivered. -/
theorem delivered_of_answers {row : SignalRow} (answers : tape.Answers act h.state res state)
    (found : h.state.signals.find? (runId, gateName) = some row) (delivered : row.delivered = 1) :
    ∃ row', state.signals.find? (runId, gateName) = some row' ∧ row'.delivered = 1 ∧
      (row'.resolutionJson = row.resolutionJson ∨
        ∃ ts, act = .signal (.deliver runId gateName row'.resolutionJson ts)) := by
  rcases signal_of_answers answers found with kept | ⟨s, rfl, changed⟩
  · exact ⟨row, kept, delivered, .inl rfl⟩
  · refine ⟨_, changed, ?_⟩
    cases s with
    | getSignal => exact ⟨delivered, .inl rfl⟩
    | consume | awaitGate =>
      simp only [SignalStmt.apply]
      split <;> exact ⟨delivered, .inl rfl⟩
    | deliver r gate resolution ts =>
      simp only [SignalStmt.apply]
      split
      next own =>
        obtain ⟨rfl, rfl⟩ := Prod.mk.inj ((Sql.Table.key_of_find? found).symm.trans own)
        exact ⟨rfl, .inr ⟨ts, rfl⟩⟩
      next => exact ⟨delivered, .inl rfl⟩

end Row

/-! ## The method -/

section Safety

variable {ok proper : Nat → Call → TapeHist → Act → Prop} {tid : Nat} {call : Call} {runId gateName : String}
  (housekeeping : ∀ act, Housekeeping act → ∀ h, proper tid call h act)
  (gate : ∀ h contextJson ts, proper tid call h (.signal (.awaitGate runId gateName contextJson ts)))
  (park : ∀ h, ∀ event ∈ h.log, event.tid = tid → awaits event = some (runId, gateName) →
    proper tid call h (.run (.parkRun runId gateName)))

include housekeeping gate park

/-- The gate's row is awaited before the run is parked, and nothing is handed out. -/
theorem safe_parkOnGate (payloadJson : String) (ts : Int) (h : TapeHist) :
    tape.Safe (tape.tracked ok proper tid call) tid
      (fun result h => ∀ answer, result = .ok answer → answer = (false, "") ∧ h.log.any (parks runId))
      (RunStore.parkOnGate runId gateName payloadJson ts).run h := by
  have failed : ∀ (e : StoreError) (h : TapeHist) (answer : Bool × String), Except.error e = .ok answer →
      answer = (false, "") ∧ h.log.any (parks runId) := fun _ _ _ isOk => by cases isOk
  refine safe_query failed fun h₁ res₁ state₁ _ permitted₁ answers₁ => ?_
  refine ⟨⟨_, res₁, state₁, rfl, answers₁, permitted₁, gate h₁ payloadJson ts⟩, fun updated isOk => ?_⟩
  subst isOk
  have all : (RunStore.nextSeq runId).run.All fun act => ∀ h, proper tid call h act := all_nextSeq housekeeping runId
  refine System.Safe.exceptBind failed ((System.Safe.mem_of_all_proper all List.mem_cons_self).mono ?_)
  intro _ h₂ awaited seq _
  refine safe_query failed fun h₃ res₃ state₃ foreign₃ permitted₃ answers₃ => ?_
  refine ⟨⟨_, res₃, state₃, rfl, answers₃, permitted₃, park h₃ _ (foreign₃.mem awaited) rfl rfl⟩, fun parked isOk => ?_⟩
  subst isOk
  have journals : Prog.All (fun act => ∀ h, proper tid call h act) (RunStore.journal runId seq "gate"
    (.obj [("gate", .str gateName), ("status", .str "waiting")]) ts).run := all_journal housekeeping _ _ _ _ _ (by constructor)
  refine System.Safe.exceptBind failed ((System.Safe.mem_of_all_proper journals List.mem_cons_self).mono ?_)
  intro _ h₄ isParked _ _ h₅ foreign answer isOk
  refine ⟨(Except.ok.inj isOk).symm, List.any_eq_true.mpr ⟨_, foreign.mem isParked, ?_⟩⟩
  simp [parks]

/-- What was returned is what the thread had read; if that is nothing, the run was parked. -/
theorem safe_awaitSignal (get : ∀ h, lastOwn tid h.log = none → proper tid call h (.signal (.getSignal runId gateName)))
    (consume : ∀ h, ∀ event ∈ h.log, event.tid = tid → (resolutionRead runId gateName event).isSome →
      proper tid call h (.signal (.consume runId gateName)))
    (payloadJson : String) (ts : Int) {h : TapeHist} (fresh : lastOwn tid h.log = none) :
    tape.Safe (tape.tracked ok proper tid call) tid (fun result h => ∀ answer, result = .ok answer →
        (∃ event ∈ h.log, event.tid = tid ∧ ∃ reading,
          gateReading runId gateName event = some reading ∧ awaitAnswer reading = answer) ∧
        (answer.1 = false → h.log.any (parks runId)))
      (RunStore.awaitSignal runId gateName payloadJson ts).run h := by
  refine safe_query (fun _ _ _ isOk => by cases isOk) fun h₁ res state foreign permitted answers => ?_
  have own : lastOwn tid h₁.log = none := foreign.lastOwn_eq.trans fresh
  refine ⟨⟨_, res, state, rfl, answers, permitted, get h₁ own⟩, fun reading isOk => ?_⟩
  subst isOk
  have isReading : gateReading runId gateName ⟨tid, .signal (.getSignal runId gateName), .ok reading⟩ = some reading :=
    if_pos rfl
  -- where the row was missing or not delivered, the run is parked
  have parked : awaitAnswer reading = (false, "") → tape.Safe (tape.tracked ok proper tid call) tid
      (fun result h => ∀ answer, result = .ok answer →
        (∃ event ∈ h.log, event.tid = tid ∧ ∃ reading,
          gateReading runId gateName event = some reading ∧ awaitAnswer reading = answer) ∧
        (answer.1 = false → h.log.any (parks runId)))
      (RunStore.parkOnGate runId gateName payloadJson ts).run
      (h₁.push tid (.signal (.getSignal runId gateName)) (.ok reading) state) := by
    intro nothing
    refine ((safe_parkOnGate housekeeping gate park payloadJson ts _).and_mem List.mem_cons_self).mono ?_
    rintro result h' ⟨returned, known⟩ answer isOk
    obtain ⟨same, isParked⟩ := returned answer isOk
    exact ⟨⟨_, known, rfl, reading, isReading, nothing.trans same.symm⟩, fun _ => isParked⟩
  cases reading with
  | none => exact parked rfl
  | some signal =>
    obtain ⟨delivered, resolutionJson⟩ := signal
    refine safe_ite (fun isOne => ?_) fun notOne => parked (if_neg notOne)
    -- a delivered row is handed over and consumed
    have handed : awaitAnswer (some (delivered, resolutionJson)) = (true, resolutionJson) := if_pos isOne
    refine safe_query (fun _ _ _ isOk => by cases isOk) fun h₂ res₂ state₂ foreign₂ permitted₂ answers₂ => ?_
    have known := foreign₂.mem (List.mem_cons_self (a := (⟨tid, .signal (.getSignal runId gateName),
      .ok (some (delivered, resolutionJson))⟩ : TapeEvent)) (l := h₁.log))
    have isResolution : (resolutionRead runId gateName ⟨tid, .signal (.getSignal runId gateName),
        .ok (some (delivered, resolutionJson))⟩).isSome := by
      rw [Option.isSome_iff_exists]
      exact ⟨resolutionJson, resolutionRead_eq_some.mpr (isReading.trans
        (congrArg (fun d => some (some (d, resolutionJson))) isOne))⟩
    refine ⟨⟨_, res₂, state₂, rfl, answers₂, permitted₂, consume h₂ _ known rfl isResolution⟩, fun _ _ => ?_⟩
    intro h₃ foreign₃ answer isOk
    obtain rfl := Except.ok.inj isOk
    refine ⟨⟨_, foreign₃.mem (List.mem_cons_of_mem _ known), rfl, _, isReading, handed⟩, fun none => ?_⟩
    cases none

end Safety

/-- What the `await_signal` of thread `tid` on the gate has returned. -/
def awaitReturned (runId gateName : String) (c : TapeConfig) (tid : Nat) : Option (Bool × String) :=
  match c.pool[tid]? with
  | some ⟨.awaitSignal r gate _ _, .ret (.ok answer)⟩ => if (r, gate) = (runId, gateName) then some answer else none
  | _ => none

theorem pool_of_awaitReturned {runId gateName : String} {c : TapeConfig} {tid : Nat} {answer : Bool × String}
    (returned : awaitReturned runId gateName c tid = some answer) :
    ∃ payloadJson ts, c.pool[tid]? = some ⟨.awaitSignal runId gateName payloadJson ts, .ret (.ok answer)⟩ := by
  unfold awaitReturned at returned
  split at returned
  next r gate payloadJson ts answer' isReturn =>
    split at returned
    next own =>
      cases own
      cases returned
      exact ⟨payloadJson, ts, isReturn⟩
    next => cases returned
  next => cases returned

end Tape.Gate
