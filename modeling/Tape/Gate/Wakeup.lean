import Tape.Gate.Await
import Tape.Methods

/-! # No lost wakeup

`await_signal` reads the gate's row, upserts it and parks the run, each in a statement of
its own; `send_signal` delivers, looks whether the run waits, and releases it.  Whichever
way the statements of one `await_signal` fall between those of any number of
`send_signal`s, a delivered signal is not forgotten: the await reads it, or the run is
released after it was parked, or it stays parked beside a delivered row that nobody
consumed, and `list_runs_to_recover` looks for those.

What makes the last case work is that a row is consumed only by an await that read it as
delivered; this holds in every reachable state.
-/

namespace Tape.Gate

open Interleave

/-! ## Consumed rows were delivered -/

/-- A row is consumed by a thread that found it delivered. -/
def ConsumesRead (tid : Nat) (h : TapeHist) : Act → Prop
  | .sql (.signal (.consume runId gateName)) =>
    ∃ event ∈ h.log, event.tid = tid ∧ (resolutionRead runId gateName event).isSome
  | _ => True

structure Consumable (h : TapeHist) : Prop where
  consumed : ∀ pk signal, h.state.signals.find? pk = some signal → signal.consumed = 0 ∨ signal.delivered = 1
  read : ∀ event ∈ h.log, ∀ runId gateName, (resolutionRead runId gateName event).isSome →
    ∃ signal, h.state.signals.find? (runId, gateName) = some signal ∧ signal.delivered = 1

section Consumable

variable {tid : Nat} {h : TapeHist} {act : Act} {res : act.Res} {state : World}

theorem Consumable.push (consumable : Consumable h) (answers : tape.Answers act h.state res state)
    (consumes : ConsumesRead tid h act) : Consumable (h.push tid act res state) where
  consumed pk signal' found' := by
    cases found : h.state.signals.find? pk with
    | none =>
      rcases signal_inserted_of_answers answers found found' with ⟨_, -, -, -, fresh⟩ | ⟨_, -, -, -, fresh⟩
      · exact .inl fresh
      · exact .inl fresh
    | some signal =>
      have before := consumable.consumed pk signal found
      rcases signal_of_answers answers found with kept | ⟨s, rfl, changed⟩
      · exact Option.some.inj (kept.symm.trans found') ▸ before
      · obtain rfl := Option.some.inj (changed.symm.trans found')
        cases s with
        | getSignal => exact before
        | awaitGate | deliver =>
          simp only [SignalStmt.apply]
          split
          · exact before.imp id fun delivered => by simp [delivered]
          · exact before
        | consume runId gateName =>
          simp only [SignalStmt.apply]
          split
          next own =>
            -- whoever consumes it has read it as delivered
            obtain ⟨event, known, -, isRead⟩ := consumes
            obtain ⟨read, foundRead, delivered⟩ := consumable.read event known runId gateName isRead
            obtain rfl : (runId, gateName) = pk := own.symm.trans (Sql.Table.key_of_find? found)
            exact .inr (Option.some.inj (foundRead.symm.trans found) ▸ delivered)
          next => exact before
  read event member runId gateName isRead := by
    rcases List.mem_cons.mp member with rfl | older
    · obtain ⟨resolution, isResolution⟩ := Option.isSome_iff_exists.mp isRead
      obtain ⟨unchanged, isRow⟩ := row_of_gateReading answers (resolutionRead_eq_some.mp isResolution)
      cases found : h.state.signals.find? (runId, gateName) with
      | none => simp [found] at isRow
      | some signal =>
        rw [found, Option.map_some, Option.some.injEq, Prod.mk.injEq] at isRow
        exact ⟨signal, unchanged.trans found, isRow.1.symm⟩
    · obtain ⟨signal, found, delivered⟩ := consumable.read event older runId gateName isRead
      obtain ⟨signal', found', delivered', -⟩ := delivered_of_answers answers found delivered
      exact ⟨signal', found', delivered'⟩

end Consumable

abbrev consumeContract : Nat → Call → Contract World Act Act.Res :=
  tape.tracked (fun _ _ _ _ => True) fun tid _ h act => ConsumesRead tid h act

theorem consume_compose :
    System.Compose tape (fun call => isMethod call) consumeContract fun _ _ _ _ => True := by
  refine System.tracked_compose fun {tid call h} admitted fresh => ?_
  have plain : ∀ act, isPlain act → ∀ h, ConsumesRead tid h act := by
    intro act isPlain h
    unfold ConsumesRead
    split
    · cases isPlain
    · trivial
  have housekeeping : ∀ act, Housekeeping act → ∀ h, ConsumesRead tid h act := by
    intro act isHousekeeping h
    cases isHousekeeping <;> trivial
  by_cases isAwait : ∃ runId gateName payloadJson ts, call = .awaitSignal runId gateName payloadJson ts
  · obtain ⟨runId, gateName, payloadJson, ts, rfl⟩ := isAwait
    exact (safe_awaitSignal housekeeping (fun _ _ _ => trivial) (fun _ _ _ _ _ => trivial) (fun _ _ => trivial)
      (fun h event known own isRead => ⟨event, known, own, isRead⟩) payloadJson ts fresh).mono fun _ _ _ => trivial
  · refine System.Safe.of_all_proper (fun _ _ => trivial) ?_ h
    have blanking : ∀ act, isBlanking act → ∀ h, ConsumesRead tid h act := by
      intro act isBlanking h
      unfold ConsumesRead
      split
      · cases isBlanking
      · trivial
    have numbered : Numbered (fun {α} (program : Prog Act Act.Res α) => program.All fun act => ∀ h, ConsumesRead tid h act)
        fun _ _ {_} program => program.All fun act => ∀ h, ConsumesRead tid h act :=
      .of_housekeeping (all_composable _) (fun act isPlain => ⟨plain act isPlain, fun _ => trivial⟩)
        fun act isHousekeeping => ⟨housekeeping act isHousekeeping, fun _ => trivial⟩
    refine numbered.method admitted ?_ (numbered.compactRun fun act isBlanking => ⟨blanking act isBlanking, fun _ => trivial⟩) ?_
    · exact fun runId gateName payloadJson ts same => absurd ⟨runId, gateName, payloadJson, ts, same⟩ isAwait
    · rintro runId decisionIndex model requestJson responseJson rationale policyVersion ts rfl
      refine numbered.recordDecision (fun runId seq payload ts isWritten => ?_) ..
      exact journal_of (all_composable _) (fun act isHousekeeping => ⟨housekeeping act isHousekeeping, fun _ => trivial⟩)
        runId seq "decision" payload ts isWritten

/-- In every state that the store's methods can lead to, the consumed rows were delivered. -/
theorem consumed_of_reachable (dialect : Subjects.Dialect) (setup : List (Choice Call))
    (methods : tape.Along (System.Permits (fun call => isMethod call) fun _ _ _ _ => True) (quiet (World.empty dialect))
      setup) (pk : String × String) (signal : SignalRow)
    (found : (tape.run (quiet (World.empty dialect)) setup).state.signals.find? pk = some signal) :
    signal.consumed = 0 ∨ signal.delivered = 1 := by
  refine Consumable.consumed (h := (tape.run (quiet (World.empty dialect)) setup).toHist) ?_ pk signal found
  refine System.run_tracked consume_compose ?_ (quiet_owned _) (System.poolSafe_of_empty rfl) ⟨?_, ?_⟩ methods
  · exact fun tid call h act res state _ answers _ proper consumable => consumable.push answers proper
  · exact fun pk signal found => by cases found
  · exact fun event member => by cases member

/-! ## One driver and its signals -/

/-- The event found the run to be `WAITING` on some gate. -/
def foundWaiting (runId : String) : TapeEvent → Bool
  | ⟨_, .sql (.run (.waitingGate r)), .ok (some _)⟩ => r = runId
  | _ => false

/-- The event delivered a signal to the gate. -/
def delivers (runId gateName : String) : TapeEvent → Bool
  | ⟨_, .sql (.signal (.deliver r gate _ _)), .ok _⟩ => (r, gate) = (runId, gateName)
  | _ => false

def isAwait : Call → Bool
  | .awaitSignal .. => true
  | _ => false

def isGateCall : Call → Bool
  | .awaitSignal .. | .sendSignal .. => true
  | _ => false

/-- What the two methods ask of their statements. -/
def Handshake (tid : Nat) (call : Call) (h : TapeHist) : Act → Prop
  | .sql (.signal (.getSignal ..)) => lastOwn tid h.log = none ∧ isAwait call
  | .sql (.signal (.consume runId gateName)) =>
    isAwait call ∧ ∃ event ∈ h.log, event.tid = tid ∧ (resolutionRead runId gateName event).isSome
  | .sql (.run (.releaseRun runId)) => ∃ event ∈ h.log, foundWaiting runId event
  | .sql (.run (.claimRun ..)) | .sql (.run (.resumeRun ..)) | .sql (.run (.endRun ..)) => False
  | _ => True

theorem Handshake.consumesRead {tid : Nat} {call : Call} {h : TapeHist} {act : Act}
    (handshake : Handshake tid call h act) : ConsumesRead tid h act := by
  unfold ConsumesRead
  split
  · exact handshake.2
  · trivial

abbrev handshakeContract : Nat → Call → Contract World Act Act.Res :=
  tape.tracked (fun _ _ _ _ => True) Handshake

/-- What a returned call of the two has done. -/
def handshakePost (tid : Nat) (call : Call) (out : call.Out) (h : TapeHist) : Prop :=
  match call, out with
  | .awaitSignal runId gateName _ _, .ok answer =>
    (∃ event ∈ h.log, event.tid = tid ∧ ∃ reading,
      gateReading runId gateName event = some reading ∧ awaitAnswer reading = answer) ∧
    (answer.1 = false → h.log.any (parks runId))
  | .sendSignal _ _ _ _ gateName _ _, .ok (runId, _) => h.log.any (delivers runId gateName)
  | _, _ => True

section Safety

variable {tid : Nat} {call : Call}

theorem handshake_of_housekeeping (act : Act) (housekeeping : Housekeeping act) (h : TapeHist) :
    Handshake tid call h act := by
  cases housekeeping <;> trivial

theorem safe_signalRun (runId gateName resolutionJson : String) (ts : Int) (h : TapeHist) :
    tape.Safe (handshakeContract tid call) tid
      (fun result h => ∀ out, result = .ok out → h.log.any (delivers out.1 gateName))
      (RunStore.signalRun runId gateName resolutionJson ts).run h := by
  refine safe_query (fun _ _ _ isOk => by cases isOk) fun h₁ res₁ state₁ _ permitted₁ answers₁ => ?_
  refine ⟨⟨_, res₁, state₁, rfl, answers₁, permitted₁, trivial⟩, fun updated isOk => ?_⟩
  subst isOk
  have delivered : delivers runId gateName ⟨tid, .signal (.deliver runId gateName resolutionJson ts), .ok updated⟩ := by
    simp [delivers]
  -- after the delivery every way to return names the run
  suffices named : tape.Safe (handshakeContract tid call) tid
      (fun (result : Except StoreError (String × Int)) _ => ∀ out, result = .ok out → out.1 = runId) _ _ by
    refine (named.and_mem (List.mem_cons_self ..)).mono ?_
    rintro result h ⟨named, known⟩ out isOk
    rw [named out isOk]
    exact List.any_eq_true.mpr ⟨_, known, delivered⟩
  refine safe_query (fun _ _ _ isOk => by cases isOk) fun h₂ res₂ state₂ _ permitted₂ answers₂ => ?_
  refine ⟨⟨_, res₂, state₂, rfl, answers₂, permitted₂, trivial⟩, fun gate isOk => ?_⟩
  subst isOk
  cases gate with
  | none => exact fun _ _ out isOk => Except.ok.inj isOk ▸ rfl
  | some gate =>
    refine safe_ite (fun _ => ?_) fun _ => fun _ _ out isOk => Except.ok.inj isOk ▸ rfl
    refine safe_query (fun _ _ _ isOk => by cases isOk) fun h₃ res₃ state₃ foreign₃ permitted₃ answers₃ => ?_
    refine ⟨⟨_, res₃, state₃, rfl, answers₃, permitted₃, ?_⟩, fun _ _ => ?_⟩
    · exact ⟨_, foreign₃.mem List.mem_cons_self, by simp [foundWaiting]⟩
    · have journals : Prog.All (fun act => ∀ h, Handshake tid call h act) (orElse (do
          let seq ← RunStore.nextSeq runId
          RunStore.journal runId seq "gate" (.obj [("gate", .str gateName), ("status", .str "released")]) ts) ()).run :=
        all_orElse (.exceptBind (all_nextSeq handshake_of_housekeeping runId) fun _ =>
          all_journal handshake_of_housekeeping _ _ _ _ _ (by constructor))
      refine System.Safe.exceptBind (fun _ _ _ isOk => by cases isOk)
        ((System.Safe.of_all_proper (fun _ _ => trivial) journals _).mono ?_)
      exact fun _ _ _ _ _ _ _ out isOk => Except.ok.inj isOk ▸ rfl

theorem handshake_compose :
    System.Compose tape (fun call => isGateCall call) handshakeContract handshakePost := by
  refine System.tracked_compose fun {tid call h} admitted fresh => ?_
  cases call with
  | awaitSignal runId gateName payloadJson ts =>
    refine (safe_awaitSignal handshake_of_housekeeping (fun _ _ _ => trivial) (fun _ _ _ _ _ => trivial)
      (fun _ own => ⟨own, rfl⟩) (fun h event known own isRead => ⟨rfl, event, known, own, isRead⟩) payloadJson ts
      fresh).mono fun result h answered => ?_
    cases result with
    | error e => trivial
    | ok answer => exact answered answer rfl
  | sendSignal runId app user session gateName resolutionJson ts =>
    have sent : tape.Safe (handshakeContract tid (.sendSignal runId app user session gateName resolutionJson ts)) tid
        (fun result h => ∀ out, result = .ok out → h.log.any (delivers out.1 gateName))
        (RunStore.sendSignal runId app user session gateName resolutionJson ts).run h := by
      refine safe_ite (fun _ => safe_signalRun runId gateName resolutionJson ts h) fun _ => ?_
      refine safe_query (fun _ _ _ isOk => by cases isOk) fun h₁ res₁ state₁ _ permitted₁ answers₁ => ?_
      refine ⟨⟨_, res₁, state₁, rfl, answers₁, permitted₁, trivial⟩, fun latest _ => ?_⟩
      cases latest with
      | none => exact fun _ _ _ isOk => by cases isOk
      | some latest => exact safe_signalRun latest gateName resolutionJson ts _
    refine sent.mono fun result h delivered => ?_
    cases result with
    | error e => trivial
    | ok out => exact delivered out rfl
  | _ => cases admitted

end Safety

/-! ## The invariant -/

/-- What the status of a run that was `RUNNING` can be, before and after it was parked. -/
def statusFits (parked : Bool) (status : Int) : Prop :=
  if parked then status = RunStatus.waiting.code ∨ status = RunStatus.runnable.code
  else status = RunStatus.running.code

/-- What holds while thread `driver` awaits the gate and others send signals. -/
structure Race (runId gateName : String) (driver : Nat) (h : TapeHist) : Prop where
  consumable : Consumable h
  status : ∃ row, h.state.runs.find? runId = some row ∧ statusFits (h.log.any (parks runId)) row.status
  waited : h.log.any (foundWaiting runId) → h.log.any (parks runId)
  delivered : h.log.any (delivers runId gateName) →
    ∃ signal, h.state.signals.find? (runId, gateName) = some signal ∧ signal.delivered = 1
  /-- A driver that found nothing delivered reads no second time, and nobody else consumes. -/
  unconsumed : ∀ event ∈ h.log, event.tid = driver → ∀ reading, gateReading runId gateName event = some reading →
    (awaitAnswer reading).1 = false →
      (∀ e ∈ h.log, e.tid = driver → resolutionRead runId gateName e = none) ∧
        ∀ signal, h.state.signals.find? (runId, gateName) = some signal → signal.consumed = 0

section Push

variable {runId gateName : String} {driver tid : Nat} {call : Call} {h : TapeHist} {act : Act} {res : act.Res}
  {state : World}

/-- The `UPDATE` that parks the run, carried out. -/
theorem parked_of_parks (answers : tape.Answers act h.state res state) (isPark : parks runId ⟨tid, act, res⟩) :
    ∃ gate, act = .run (.parkRun runId gate) ∧ state = (act.exec h.state).2 := by
  unfold parks at isPark
  split at isPark
  next _ r gate updated same =>
    cases same
    obtain rfl : r = runId := of_decide_eq_true isPark
    exact ⟨gate, rfl, (exec_of_ok answers).2⟩
  next => cases isPark

theorem Race.status_push (race : Race runId gateName driver h) (answers : tape.Answers act h.state res state)
    (handshake : Handshake tid call h act) :
    ∃ row, state.runs.find? runId = some row ∧
      statusFits ((h.push tid act res state).log.any (parks runId)) row.status := by
  obtain ⟨row, found, fits⟩ := race.status
  rw [Hist.push_log, List.any_cons]
  by_cases isPark : parks runId ⟨tid, act, res⟩
  · obtain ⟨gate, rfl, rfl⟩ := parked_of_parks answers isPark
    refine ⟨_, RunStmt.find?_exec_of_some found, ?_⟩
    have own : row.runId = runId := Sql.Table.key_of_find? found
    simp [statusFits, isPark, RunStmt.apply, RunStmt.selects, RunStmt.assign, own]
  rw [Bool.eq_false_iff.mpr isPark, Bool.false_or]
  rcases run_of_answers answers found with kept | ⟨s, rfl, rfl, rfl, changed⟩
  · exact ⟨row, kept, fits⟩
  · refine ⟨_, changed, ?_⟩
    unfold RunStmt.apply
    split
    next selected =>
      have own : row.runId = runId := Sql.Table.key_of_find? found
      cases s with
      | claimRun | resumeRun | endRun => exact handshake.elim
      | bumpSeq | stampCompacted => exact fits
      | parkRun r gate =>
        obtain rfl : r = runId := (of_decide_eq_true selected).symm.trans own
        exact absurd (decide_eq_true rfl) isPark
      | releaseRun r =>
        -- a release follows a read of the parked run
        obtain rfl : r = runId := (of_decide_eq_true selected).symm.trans own
        have parked := race.waited (List.any_eq_true.mpr handshake)
        simp [statusFits, parked, RunStmt.assign]
      | _ => cases selected
    next => exact fits

theorem Race.waited_push (race : Race runId gateName driver h) (answers : tape.Answers act h.state res state) :
    (h.push tid act res state).log.any (foundWaiting runId) → (h.push tid act res state).log.any (parks runId) := by
  simp only [Hist.push_log, List.any_cons, Bool.or_eq_true]
  rintro (isWaiting | older)
  · unfold foundWaiting at isWaiting
    split at isWaiting
    next _ r gate same =>
      cases same
      obtain rfl : r = runId := of_decide_eq_true isWaiting
      -- the row was `WAITING`, so it was parked
      obtain ⟨row, found, fits⟩ := race.status
      obtain ⟨answer, -⟩ := exec_of_ok answers
      by_cases parked : h.log.any (parks r)
      · exact .inr parked
      · simp only [statusFits, parked, Bool.false_eq_true, if_false] at fits
        simp [Stmt.exec, RunStmt.exec, found, Option.filter, fits, RunStatus.code] at answer
        cases Except.ok.inj answer
    next => cases isWaiting
  · exact .inr (race.waited older)

theorem Race.delivered_push (race : Race runId gateName driver h) (answers : tape.Answers act h.state res state) :
    (h.push tid act res state).log.any (delivers runId gateName) →
      ∃ signal, state.signals.find? (runId, gateName) = some signal ∧ signal.delivered = 1 := by
  simp only [Hist.push_log, List.any_cons, Bool.or_eq_true]
  rintro (isDelivery | older)
  · unfold delivers at isDelivery
    split at isDelivery
    next _ r gate resolution ts updated same =>
      cases same
      cases of_decide_eq_true isDelivery
      obtain ⟨-, rfl⟩ := exec_of_ok answers
      cases found : h.state.signals.find? (runId, gateName) with
      | none => exact ⟨_, by simp [Stmt.exec, SignalStmt.exec, Sql.Table.find?_upsert, found]; rfl, rfl⟩
      | some signal => exact ⟨_, by simp [Stmt.exec, SignalStmt.exec, Sql.Table.find?_upsert, found]; rfl, rfl⟩
    next => cases isDelivery
  · obtain ⟨signal, found, isOne⟩ := race.delivered older
    obtain ⟨signal', found', isOne', -⟩ := delivered_of_answers answers found isOne
    exact ⟨signal', found', isOne'⟩

/-- A row is consumed by nobody but a driver that read it as delivered. -/
theorem consumed_of_answers {signal' : SignalRow} (answers : tape.Answers act h.state res state)
    (unconsumed : ∀ signal, h.state.signals.find? (runId, gateName) = some signal → signal.consumed = 0)
    (spared : act ≠ .signal (.consume runId gateName)) (found' : state.signals.find? (runId, gateName) = some signal') :
    signal'.consumed = 0 := by
  cases found : h.state.signals.find? (runId, gateName) with
  | none =>
    rcases signal_inserted_of_answers answers found found' with ⟨_, -, -, -, fresh⟩ | ⟨_, -, -, -, fresh⟩
    · exact fresh
    · exact fresh
  | some signal =>
    have before := unconsumed signal found
    rcases signal_of_answers answers found with kept | ⟨s, rfl, changed⟩
    · exact Option.some.inj (kept.symm.trans found') ▸ before
    · obtain rfl := Option.some.inj (changed.symm.trans found')
      cases s with
      | getSignal => exact before
      | awaitGate | deliver =>
        simp only [SignalStmt.apply]
        split <;> exact before
      | consume r gate =>
        simp only [SignalStmt.apply]
        split
        next own =>
          cases own.symm.trans (Sql.Table.key_of_find? found)
          exact absurd rfl spared
        next => exact before

theorem Race.unconsumed_push (race : Race runId gateName driver h) (answers : tape.Answers act h.state res state)
    (handshake : Handshake tid call h act) (only : isAwait call → tid = driver) :
    ∀ event ∈ (h.push tid act res state).log, event.tid = driver → ∀ reading,
      gateReading runId gateName event = some reading → (awaitAnswer reading).1 = false →
        (∀ e ∈ (h.push tid act res state).log, e.tid = driver → resolutionRead runId gateName e = none) ∧
          ∀ signal, state.signals.find? (runId, gateName) = some signal → signal.consumed = 0 := by
  intro event member own reading isReading nothing
  rcases List.mem_cons.mp member with rfl | older
  · -- the driver's first act: it found no delivered row, and an undelivered one is not consumed
    obtain ⟨unchanged, isRow⟩ := row_of_gateReading answers isReading
    have first : ∀ e ∈ h.log, e.tid ≠ driver := by
      unfold gateReading at isReading
      split at isReading
      next same =>
        cases same
        have own' : tid = driver := own
        simpa [lastOwn, own'] using handshake.1
      next => cases isReading
    refine ⟨fun e known mine => ?_, fun signal found => ?_⟩
    · rcases List.mem_cons.mp known with rfl | known
      · unfold resolutionRead
        rw [isReading]
        unfold awaitAnswer at nothing
        split at nothing
        next delivered resolutionJson =>
          split at nothing
          next => cases nothing
          next notOne => exact if_neg notOne
        next => rfl
      · exact absurd mine (first e known)
    · rw [unchanged] at found
      refine (race.consumable.consumed _ signal found).resolve_right fun delivered => ?_
      rw [isRow, found, Option.map_some] at nothing
      simp [awaitAnswer, delivered] at nothing
  · obtain ⟨unread, unconsumed⟩ := race.unconsumed event older own reading isReading nothing
    refine ⟨fun e known mine => ?_, fun signal found => ?_⟩
    · rcases List.mem_cons.mp known with rfl | known
      · -- the driver has read before, so this is no reading
        unfold resolutionRead
        split
        next delivered resolutionJson isReading' =>
          unfold gateReading at isReading'
          split at isReading'
          next same =>
            cases same
            have mine' : tid = driver := mine
            have none := handshake.1
            rw [lastOwn, List.find?_eq_none] at none
            exact absurd (own.trans mine'.symm) (by simpa using none event older)
          next => cases isReading'
        next => rfl
      · exact unread e known mine
    · refine consumed_of_answers answers unconsumed ?_ found
      rintro rfl
      obtain ⟨isAwait, e, known, mine, isRead⟩ := handshake
      rw [unread e known (mine.trans (only isAwait))] at isRead
      cases isRead

theorem Race.push (race : Race runId gateName driver h) (answers : tape.Answers act h.state res state)
    (handshake : Handshake tid call h act) (only : isAwait call → tid = driver) :
    Race runId gateName driver (h.push tid act res state) where
  consumable := race.consumable.push answers handshake.consumesRead
  status := race.status_push answers handshake
  waited := race.waited_push answers
  delivered := race.delivered_push answers
  unconsumed := race.unconsumed_push answers handshake only

end Push

/-! ## Recovery -/

/-- `list_runs_to_recover` returns the run whenever its limit is not smaller than the table. -/
def Recovered (runId : String) (w : World) : Prop :=
  ∀ nowMs limit : Int, (limit < 0 ∨ (w.runs.rows.length : Int) ≤ limit) →
    ∃ rows row, (tape.alone (RunStore.listRunsToRecover nowMs limit).run w).1 = .ok rows ∧ row ∈ rows ∧
      row.runId = runId

theorem recovered_of_row {runId : String} {w : World} {row : RunRow} (found : w.runs.find? runId = some row)
    (recoverable : ∀ nowMs, RunStmt.recoverable w.signals nowMs row) : Recovered runId w := by
  intro nowMs limit sufficient
  refine ⟨limitRows limit (w.runs.rows.filter (RunStmt.recoverable w.signals nowMs)), row, rfl, ?_,
    Sql.Table.key_of_find? found⟩
  have due : row ∈ w.runs.rows.filter (RunStmt.recoverable w.signals nowMs) :=
    List.mem_filter.mpr ⟨Sql.Table.mem_of_find? found, recoverable nowMs⟩
  unfold limitRows
  split
  · exact due
  next limited =>
    have enough : (w.runs.rows.filter (RunStmt.recoverable w.signals nowMs)).length ≤ limit.toNat := by
      have all := List.length_filter_le (RunStmt.recoverable w.signals nowMs) w.runs.rows
      omega
    rw [List.take_of_length_le enough]
    exact due

/-- **No lost wakeup.**  From any state that the store's methods can lead to and in which the run is
    `RUNNING`, along every interleaving of one `await_signal` on the gate and any `send_signal`s: when the
    await has returned, and a signal for the gate that reached the run, then the await returned it, or the
    run is `RUNNABLE`, or it is `WAITING` beside a delivered row that was not consumed; and in the last two
    cases `list_runs_to_recover` returns the run. -/
theorem parked_run_not_forgotten (runId gateName : String) (dialect : Subjects.Dialect) (setup : List (Choice Call))
    (methods : tape.Along (System.Permits (fun call => isMethod call) fun _ _ _ _ => True) (quiet (World.empty dialect))
      setup)
    {started : RunRow} (found : (tape.run (quiet (World.empty dialect)) setup).state.runs.find? runId = some started)
    (isRunning : started.status = RunStatus.running.code)
    (choices : List (Choice Call))
    (gateCalls : tape.Along (System.Permits (fun call => isGateCall call) fun _ _ _ _ => True)
      (quiet (tape.run (quiet (World.empty dialect)) setup).state) choices)
    {c : TapeConfig} (reached : c = tape.run (quiet (tape.run (quiet (World.empty dialect)) setup).state) choices)
    {driver sender : Nat} (only : ∀ tid call, c.callOf tid = some call → isAwait call → tid = driver)
    {payloadJson app user session resolutionJson r : String} {ts ts' status : Int} {answer : Bool × String}
    (awaited : c.pool[driver]? = some ⟨.awaitSignal runId gateName payloadJson ts, .ret (.ok answer)⟩)
    (sent : c.pool[sender]? =
      some ⟨.sendSignal r app user session gateName resolutionJson ts', .ret (.ok (runId, status))⟩) :
    answer.1 = true ∨
      ((∃ row, c.state.runs.find? runId = some row ∧
        (row.status = RunStatus.runnable.code ∨
          row.status = RunStatus.waiting.code ∧
            ∃ signal, c.state.signals.find? (runId, gateName) = some signal ∧ signal.delivered = 1 ∧
              signal.consumed = 0)) ∧
        Recovered runId c.state) := by
  subst reached
  have owned := quiet_owned (tape.run (quiet (World.empty dialect)) setup).state
  have safe := System.run_safe handshake_compose owned (System.poolSafe_of_empty rfl) gateCalls
  -- the invariant of the race between the await and the signals
  have race : Race runId gateName driver
      (tape.run (quiet (tape.run (quiet (World.empty dialect)) setup).state) choices).toHist := by
    refine System.run_tracked handshake_compose ?_ owned (System.poolSafe_of_empty rfl) ?_ gateCalls
    · exact fun tid call h act res state serves answers _ handshake race => race.push answers handshake (only tid call serves)
    · exact {
        consumable := ⟨consumed_of_reachable dialect setup methods, fun event member => by cases member⟩
        status := ⟨started, found, isRunning⟩
        waited := fun none => by cases none
        delivered := fun none => by cases none
        unconsumed := fun event member => by cases member }
  -- what the await read decided whether it returned a resolution or parked the run
  obtain ⟨⟨event, known, own, reading, isReading, handed⟩, parked⟩ := safe.returned awaited
  have delivered := safe.returned sent
  by_cases handedOut : answer.1 = true
  · exact .inl handedOut
  refine .inr ?_
  have nothing : answer.1 = false := Bool.eq_false_iff.mpr handedOut
  obtain ⟨row, foundRow, fits⟩ := race.status
  obtain ⟨signal, foundSignal, isOne⟩ := race.delivered delivered
  -- it read nothing delivered, so it consumed nothing, and the delivered row is still there
  have unconsumed := (race.unconsumed event known own reading isReading (handed ▸ nothing)).2 signal foundSignal
  simp only [parked nothing, statusFits, if_true] at fits
  rcases fits with waiting | runnable
  · refine ⟨⟨row, foundRow, .inr ⟨waiting, signal, foundSignal, isOne, unconsumed⟩⟩, ?_⟩
    refine recovered_of_row foundRow fun nowMs => ?_
    -- `list_runs_to_recover` looks for just such a row beside a WAITING run
    have names : RunStmt.isDelivered (tape.run (quiet (tape.run (quiet (World.empty dialect)) setup).state)
        choices).state.signals row.runId := by
      refine List.any_eq_true.mpr ⟨signal, Sql.Table.mem_of_find? foundSignal, ?_⟩
      have same : signal.pk = (runId, gateName) := Sql.Table.key_of_find? foundSignal
      have own := Sql.Table.key_of_find? foundRow
      simp [(Prod.mk.inj same).1, isOne, unconsumed, show row.runId = runId from own]
    simp [RunStmt.recoverable, waiting, names]
  · refine ⟨⟨row, foundRow, .inl runnable⟩, recovered_of_row foundRow fun nowMs => ?_⟩
    simp [RunStmt.recoverable, runnable]

/-! ## A signal that slips in before the run is parked -/

/-- The run `"r"` is begun. -/
def begun : List (Choice Call) := serve 0 (.beginRun 0 "app" "user" "session" "invocation" {} "A" 60000 1 "r")

/-- The driver has looked at the gate when the whole `send_signal` runs; then it parks. -/
def slippedIn : List (Choice Call) :=
  .spawn (.awaitSignal "r" "cfo" "" 10) :: .exec 0 :: .spawn (.sendSignal "r" "" "" "" "cfo" "yes" 20) ::
    List.replicate 8 (.exec 1) ++ List.replicate 8 (.exec 0)

def slippedInRun : TapeConfig :=
  tape.run (quiet (tape.run (quiet (World.empty .sqlite)) begun).state) slippedIn

/-- The run that the `send_signal` of thread `tid` reached. -/
def reachedBy (c : TapeConfig) (tid : Nat) : Option String :=
  match c.pool[tid]? with
  | some ⟨.sendSignal _ _ _ _ "cfo" _ _, .ret (.ok (runId, _))⟩ => some runId
  | _ => none

theorem pool_of_reachedBy {c : TapeConfig} {tid : Nat} {runId : String} (reached : reachedBy c tid = some runId) :
    ∃ r app user session resolutionJson ts status, c.pool[tid]? =
      some ⟨.sendSignal r app user session "cfo" resolutionJson ts, .ret (.ok (runId, status))⟩ := by
  unfold reachedBy at reached
  split at reached
  next r app user session resolutionJson ts runId' status isReturn =>
    cases reached
    exact ⟨r, app, user, session, resolutionJson, ts, status, isReturn⟩
  next => cases reached

/-- The driver returns empty-handed, and the run is recovered. -/
theorem slipped_in_signal_recovered :
    awaitReturned "r" "cfo" slippedInRun 0 = some (false, "") ∧ Recovered "r" slippedInRun.state := by
  have empty : awaitReturned "r" "cfo" slippedInRun 0 = some (false, "") := by decide +kernel
  have reached : reachedBy slippedInRun 1 = some "r" := by decide +kernel
  have running : ((tape.run (quiet (World.empty .sqlite)) begun).state.runs.find? "r").any
      (fun row => row.status = RunStatus.running.code) = true := by decide +kernel
  obtain ⟨_, _, awaited⟩ := pool_of_awaitReturned empty
  obtain ⟨_, _, _, _, _, _, _, sent⟩ := pool_of_reachedBy reached
  obtain ⟨started, found, isRunning⟩ := (Option.any_eq_true _ _).mp running
  have only : ∀ tid call, slippedInRun.callOf tid = some call → isAwait call → tid = 0 := by
    intro tid call serves awaits
    have calls : ∀ tid < slippedInRun.pool.length, (slippedInRun.callOf tid).all fun call => !isAwait call || tid = 0 := by
      decide +kernel
    obtain ⟨thread, alive, -⟩ := Option.map_eq_some_iff.mp serves
    have first := calls tid (List.getElem?_eq_some_iff.mp alive).1
    simpa [serves, awaits] using first
  refine ⟨empty, ?_⟩
  have woken := parked_run_not_forgotten "r" "cfo" .sqlite begun (by decide +kernel) found (of_decide_eq_true isRunning)
    slippedIn (by decide +kernel) rfl only awaited sent
  exact (woken.resolve_left fun handed => by cases handed).2

end Tape.Gate
