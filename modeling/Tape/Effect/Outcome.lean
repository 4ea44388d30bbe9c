import Tape.Rules

/-! # Outcomes of effects

An effect is settled once its status is `CONFIRMED` or `FAILED`.  Four methods write
the outcome columns.  `complete_effect` and `reconcile_effect` first read the row and
give up on a settled one; `record_dispatch_attempt` and `record_external_observation`
read it too, but write whatever they found.  All four read and write in separate
statements.

So a settled outcome survives exactly the interleavings in which the two unguarded
methods do not start on a settled row, and no row is settled between a method's
read and its `UPDATE`.
-/

namespace Tape.Effect

open Interleave

/-- `CONFIRMED` or `FAILED`. -/
def isFinal (status : Int) : Bool :=
  status = EffectStatus.confirmed.code || status = EffectStatus.failed.code

def settled (runId key : String) (w : World) : Bool :=
  (w.effects.find? (runId, key)).any fun row => isFinal row.status

theorem settled_of_find? {runId key : String} {w : World} {row : EffectRecord}
    (found : w.effects.find? (runId, key) = some row) (final : isFinal row.status) :
    settled runId key w := by
  rw [settled, found]
  exact final

/-- A settled outcome of `w` is still there, unchanged, in `w'`. -/
def KeepsOutcome (runId key : String) (w w' : World) : Prop :=
  ∀ row, w.effects.find? (runId, key) = some row → isFinal row.status →
    ∃ row', w'.effects.find? (runId, key) = some row' ∧ row'.status = row.status ∧
      row'.responseJson = row.responseJson ∧ row'.errorJson = row.errorJson

theorem KeepsOutcome.refl (runId key : String) (w : World) : KeepsOutcome runId key w w :=
  fun row found _ => ⟨row, found, rfl, rfl, rfl⟩

theorem KeepsOutcome.trans {runId key : String} {w₁ w₂ w₃ : World}
    (first : KeepsOutcome runId key w₁ w₂) (second : KeepsOutcome runId key w₂ w₃) :
    KeepsOutcome runId key w₁ w₃ := by
  intro row found final
  obtain ⟨row', found', status, response, error⟩ := first row found final
  obtain ⟨row'', found'', status', response', error'⟩ := second row' found' (by rw [status]; exact final)
  exact ⟨row'', found'', status'.trans status, response'.trans response, error'.trans error⟩

/-! ## The acts that write an outcome -/

/-- The effect whose status an act overwrites without looking at it. -/
def outcomeTarget : Act → Option (String × String)
  | .sql (.effect (.setOutcome runId key ..)) => some (runId, key)
  | .sql (.effect (.recordAttempt runId key ..)) => some (runId, key)
  | .sql (.effect (.recordObservation runId key ..)) => some (runId, key)
  | _ => none

/-- The act blanks the payloads of a compacted run. -/
def zeroesEffects : Act → Bool
  | .sql (.effect (.zeroEffects _)) => true
  | _ => false

theorem keepsOutcome_of_calm {runId key : String} {act : Act} {w w' : World} {res : act.Res}
    (calm : outcomeTarget act ≠ some (runId, key)) (keepsPayloads : zeroesEffects act = false)
    (answers : tape.Answers act w res w') : KeepsOutcome runId key w w' := by
  intro row found final
  have same := Sql.Table.key_of_find? found
  rcases effect_of_answers answers found with kept | ⟨s, rfl, -, -, found'⟩
  · exact ⟨row, kept, rfl, rfl, rfl⟩
  · refine ⟨_, found', ?_⟩
    have unselected : s.selects row = false := by
      cases s with
      | setOutcome r k | recordAttempt r k | recordObservation r k =>
        simp only [EffectStmt.selects, decide_eq_false_iff_not]
        intro selected
        exact calm (by rw [← same, selected]; rfl)
      | zeroEffects r => cases keepsPayloads
      | claimDispatch r k claimer leaseExp now =>
        -- a claim needs `PENDING`
        have notPending : row.status ≠ EffectStatus.pending.code := by
          intro pending
          simp [isFinal, pending, EffectStatus.code] at final
        simp [EffectStmt.selects, EffectStmt.dispatchable, notPending]
      | _ => rfl
    simp [EffectStmt.apply, unselected]

/-! ## Reads -/

def readsEffect (runId key : String) : Act → Bool
  | .sql (.effect (.getEffect r k)) => (r, k) = (runId, key)
  | _ => false

/-- The row of the effect that an act returned. -/
def effectRead (runId key : String) : (act : Act) → act.Res → Option EffectRecord
  | .sql (.effect (.getEffect r k)), .ok row => if (r, k) = (runId, key) then row else none
  | _, _ => none

/-- The row of the effect that the thread's last act returned. -/
def lastRead (runId key : String) (tid : Nat) (log : List TapeEvent) : Option EffectRecord :=
  (lastOwn tid log).bind fun event => effectRead runId key event.op event.res

theorem find?_of_getEffect {runId key : String} {w w' : World} {row : Option EffectRecord}
    (answers : tape.Answers (.effect (.getEffect runId key)) w (.ok row) w') :
    w.effects.find? (runId, key) = row := by
  exact Except.ok.inj (exec_of_ok answers).1.symm

/-! ## The condition -/

/-- The calls that write an outcome without checking that there is none yet. -/
def isUnguarded : Call → Bool
  | .recordDispatchAttempt .. | .recordExternalObservation .. => true
  | _ => false

/-- `act`, about to be executed by thread `tid` on `call`, does not run into an outcome
    that its method would not have seen. -/
structure Undisturbed (runId key : String) (h : TapeHist) (tid : Nat) (call : Call) (act : Act) : Prop where
  /-- An unguarded call does not start on a settled effect. -/
  starts_open : isUnguarded call → readsEffect runId key act → (lastOwn tid h.log).isNone →
    ¬ settled runId key h.state
  /-- A settled effect was settled already when the call that now writes it read it. -/
  no_race : outcomeTarget act = some (runId, key) → settled runId key h.state →
    (lastRead runId key tid h.log).any fun row => isFinal row.status

instance (runId key : String) (h : TapeHist) (tid : Nat) (call : Call) (act : Act) :
    Decidable (Undisturbed runId key h tid call act) :=
  decidable_of_iff (_ ∧ _) ⟨fun both => ⟨both.1, both.2⟩, fun both => ⟨both.starts_open, both.no_race⟩⟩

def outcomeContract (runId key : String) (tid : Nat) (call : Call) : Contract World Act Act.Res where
  rely h h' := lastOwn tid h'.log = lastOwn tid h.log
  allowed h act := Undisturbed runId key h tid call act
  guar h h' := KeepsOutcome runId key h.state h'.state ∧
    ∀ other, other ≠ tid → lastOwn other h'.log = lastOwn other h.log
  rely_refl := SameOwn.refl tid
  rely_trans := SameOwn.trans

/-- The five methods that write an effect's outcome or its dispatch lease. -/
def isOutcomeCall : Call → Bool
  | .completeEffect .. | .reconcileEffect .. | .claimEffectDispatch .. | .recordDispatchAttempt ..
  | .recordExternalObservation .. => true
  | _ => false

section Safety

variable {runId key : String} {tid : Nat} {call : Call}

/-- Acts of the five methods other than their outcome `UPDATE`. -/
def Calm (act : Act) : Prop := outcomeTarget act = none ∧ zeroesEffects act = false

theorem calm_of_housekeeping (act : Act) (housekeeping : Housekeeping act) : Calm act := by
  cases housekeeping <;> exact ⟨rfl, rfl⟩

theorem guar_of_calm {h : TapeHist} {act : Act} {res : act.Res} {state : World} (calm : Calm act)
    (answers : tape.Answers act h.state res state) :
    (outcomeContract runId key tid call).guar h (h.push tid act res state) := by
  refine ⟨keepsOutcome_of_calm (by simp [calm.1]) calm.2 answers, fun other ne => ?_⟩
  exact lastOwn_push_ne h act res state ne

theorem safe_of_calm {α : Type} {program : Prog Act Act.Res α} (all : program.All Calm) (h : TapeHist) :
    tape.Safe (outcomeContract runId key tid call) tid (fun _ _ => True) program h :=
  System.Safe.of_all (fun _ _ _ _ calm _ answers => guar_of_calm calm answers) (fun _ _ => trivial) all h

/-- The outcome `UPDATE` of a method that read an open row. -/
theorem guar_of_open_read {h : TapeHist} {act : Act} {res : act.Res} {state : World} {r k : String}
    {existing : EffectRecord} (isOpen : (r, k) = (runId, key) → isFinal existing.status = false)
    (last : lastOwn tid h.log = some ⟨tid, .effect (.getEffect r k), .ok (some existing)⟩)
    (target : outcomeTarget act = some (r, k)) (keepsPayloads : zeroesEffects act = false)
    (allowed : Undisturbed runId key h tid call act) (answers : tape.Answers act h.state res state) :
    (outcomeContract runId key tid call).guar h (h.push tid act res state) := by
  refine ⟨?_, fun other ne => lastOwn_push_ne h act res state ne⟩
  by_cases same : (r, k) = (runId, key)
  · -- the row cannot be settled: it was open when it was read
    intro row found final
    have readFinal := allowed.no_race (by rw [target, same]) (settled_of_find? found final)
    simp only [lastRead, last, Option.bind_some, effectRead, same, if_true, Option.any_some,
      isOpen same] at readFinal
    cases readFinal
  · exact keepsOutcome_of_calm (by rw [target]; simpa using same) keepsPayloads answers

/-- The methods' read: it leaves the thread knowing the row it saw. -/
theorem safe_read {r k : String} {α : Type} {f : Option EffectRecord → StoreM α} {h : TapeHist}
    (absent : Prog.All Calm (f none).run)
    (present : ∀ h' existing, (isUnguarded call → lastOwn tid h.log = none → (r, k) = (runId, key) →
        isFinal existing.status = false) →
      lastOwn tid h'.log = some ⟨tid, .effect (.getEffect r k), .ok (some existing)⟩ →
      tape.Safe (outcomeContract runId key tid call) tid (fun _ _ => True) (f (some existing)).run h') :
    tape.Safe (outcomeContract runId key tid call) tid (fun _ _ => True)
      (RunStore.getEffect r k >>= f).run h := by
  refine safe_query (fun _ _ => trivial) fun h' res state rely allowed answers => ?_
  refine ⟨guar_of_calm ⟨rfl, rfl⟩ answers, fun value isOk => ?_⟩
  subst isOk
  cases value with
  | none => exact safe_of_calm absent _
  | some existing =>
    refine present _ existing (fun unguarded fresh same => ?_) (lastOwn_push_self ..)
    obtain ⟨rfl, rfl⟩ : r = runId ∧ k = key := by simpa using same
    have isOpen := allowed.starts_open unguarded (by simp [readsEffect])
      (by rw [show lastOwn tid h'.log = none from rely.trans fresh]; rfl)
    by_contra final
    exact isOpen (settled_of_find? (find?_of_getEffect answers) (by simpa using final))

/-- The methods' `UPDATE`, on a row the thread saw open, with nothing but calm acts after it. -/
theorem safe_write {r k : String} {s : EffectStmt} {α : Type} {f : s.Res → StoreM α} {h : TapeHist}
    {existing : EffectRecord} (isOpen : (r, k) = (runId, key) → isFinal existing.status = false)
    (last : lastOwn tid h.log = some ⟨tid, .effect (.getEffect r k), .ok (some existing)⟩)
    (target : outcomeTarget (.effect s) = some (r, k)) (keepsPayloads : zeroesEffects (.effect s) = false)
    (rest : ∀ value, Prog.All Calm (f value).run) :
    tape.Safe (outcomeContract runId key tid call) tid (fun _ _ => True) (s.query >>= f).run h := by
  refine safe_query (fun _ _ => trivial) fun h' res state rely allowed answers => ?_
  refine ⟨guar_of_open_read isOpen (rely.trans last) target keepsPayloads allowed answers, ?_⟩
  exact fun value _ => safe_of_calm (rest value) _

theorem safe_completeEffect (r k : String) (status : Int) (responseJson errorJson : String) (ts : Int)
    (h : TapeHist) :
    tape.Safe (outcomeContract runId key tid call) tid (fun _ _ => True)
      (RunStore.completeEffect r k status responseJson errorJson ts).run h := by
  refine safe_read trivial fun h' existing _ last => ?_
  simp only
  split
  · exact fun _ _ => trivial
  next pending =>
    have isOpen : isFinal existing.status = false := by
      rw [not_not.mp pending]
      rfl
    exact safe_write (fun _ => isOpen) last rfl rfl fun _ => all_journaled calm_of_housekeeping trivial fun _ => by constructor

theorem safe_reconcileEffect (r k : String) (status : Int) (responseJson errorJson : String) (ts : Int)
    (h : TapeHist) :
    tape.Safe (outcomeContract runId key tid call) tid (fun _ _ => True)
      (RunStore.reconcileEffect r k status responseJson errorJson ts).run h := by
  refine safe_read trivial fun h' existing _ last => ?_
  simp only
  split
  · exact fun _ _ => trivial
  next isOpen =>
    exact safe_write (fun _ => by simpa [isFinal] using isOpen) last rfl rfl fun _ =>
      all_journaled calm_of_housekeeping trivial fun _ => by constructor

theorem safe_recordDispatchAttempt (r k error : String) (nextDispatchAtMs ts : Int) {h : TapeHist}
    (unguarded : isUnguarded call) (fresh : lastOwn tid h.log = none) :
    tape.Safe (outcomeContract runId key tid call) tid (fun _ _ => True)
      (RunStore.recordDispatchAttempt r k error nextDispatchAtMs ts).run h := by
  refine safe_read trivial fun h' existing isOpen last => ?_
  exact safe_write (isOpen unguarded fresh) last rfl rfl fun _ =>
    all_journaled calm_of_housekeeping (all_query ⟨rfl, rfl⟩) fun _ => by constructor

theorem safe_recordExternalObservation (r k : String) (resolution : Int)
    (externalRef responseJson errorJson kind : String) (ts registerTs : Int) {h : TapeHist}
    (unguarded : isUnguarded call) (fresh : lastOwn tid h.log = none) :
    tape.Safe (outcomeContract runId key tid call) tid (fun _ _ => True)
      (RunStore.recordExternalObservation r k resolution externalRef responseJson errorJson kind ts
        registerTs).run h := by
  refine safe_read trivial fun h' existing isOpen last => ?_
  refine safe_write (isOpen unguarded fresh) last rfl rfl fun _ => all_journaled calm_of_housekeeping ?_ fun _ => by constructor
  split
  · refine .exceptBind (all_registerCompensation calm_of_housekeeping ⟨rfl, rfl⟩ fun _ => ⟨rfl, rfl⟩) ?_
    exact fun _ => all_query ⟨rfl, rfl⟩
  · exact all_query ⟨rfl, rfl⟩

theorem calm_claimEffectDispatch (r k claimer : String) (leaseTtlMs nowMs clock : Int) :
    Prog.All Calm (RunStore.claimEffectDispatch r k claimer leaseTtlMs nowMs clock).run :=
  .exceptBind (all_query ⟨rfl, rfl⟩) fun _ => .exceptBind (all_query ⟨rfl, rfl⟩) fun _ => trivial

end Safety

theorem outcome_compose (runId key : String) :
    System.Compose tape (fun call => isOutcomeCall call) (outcomeContract runId key)
      (fun _ _ _ _ => True) where
  compatible ne guar := guar.2 _ ne
  fresh {tid call h} admitted fresh := by
    cases call with
    | completeEffect => exact safe_completeEffect _ _ _ _ _ _ h
    | reconcileEffect => exact safe_reconcileEffect _ _ _ _ _ _ h
    | claimEffectDispatch => exact safe_of_calm (calm_claimEffectDispatch ..) h
    | recordDispatchAttempt => exact safe_recordDispatchAttempt _ _ _ _ _ rfl fresh
    | recordExternalObservation => exact safe_recordExternalObservation _ _ _ _ _ _ _ _ _ rfl fresh
    | _ => cases admitted

/-- **Outcomes are final.**  Along every interleaving of the five methods whose acts are
    undisturbed, from any database: once an effect is settled, its status, response and error
    never change, and no dispatcher is offered it again. -/
theorem outcome_final_of_undisturbed (runId key : String) (w : World) (before after : List (Choice Call))
    (undisturbed : tape.Along (System.Permits (fun call => isOutcomeCall call)
      fun tid call h act => Undisturbed runId key h tid call act) (quiet w) (before ++ after))
    (row : EffectRecord) (found : (tape.run (quiet w) before).state.effects.find? (runId, key) = some row)
    (final : isFinal row.status) :
    ∃ row', (tape.run (quiet w) (before ++ after)).state.effects.find? (runId, key) = some row' ∧
      row'.status = row.status ∧ row'.responseJson = row.responseJson ∧ row'.errorJson = row.errorJson ∧
      ∀ now, EffectStmt.dispatchable now row' = false := by
  obtain ⟨first, second⟩ := System.Along.append.mp undisturbed
  have owned := quiet_owned w
  have safe := System.run_safe (outcome_compose runId key) owned (System.poolSafe_of_empty rfl) first
  -- the invariant compares every later state with the one `before` led to
  have kept := System.run_hist (outcome_compose runId key)
    (I := fun h => KeepsOutcome runId key (tape.run (quiet w) before).state h.state)
    (fun _ _ _ _ guar holds => holds.trans guar.1) (owned.run _) safe (.refl _ _ _) second
  obtain ⟨row', found', status, response, error⟩ := kept row found final
  rw [← System.run_append] at found'
  refine ⟨row', found', status, response, error, fun now => ?_⟩
  have notPending : row'.status ≠ EffectStatus.pending.code := by
    intro pending
    rw [← status, pending] at final
    cases final
  simp [EffectStmt.dispatchable, notPending]

/-! ## A wire that is confirmed and then reopened -/

/-- A run with one `NON_IDEMPOTENT` effect, `PENDING` in the outbox since time 2. -/
def wireRequest : RunStore.EffectRequest where
  runId := "r"
  toolName := "wire"
  requestJson := "100 EUR"
  customKey := "k"
  semantics := EffectSemantics.nonIdempotent.code
  dispatchMode := EffectDispatchMode.outbox.code
  connector := "bank"
  scope := "wire"

def wireSetup : List (Choice Call) :=
  serve 0 (.beginRun 0 "app" "user" "session" "invocation" { scopes := ["wire"] } "driver" 60000 1 "r") ++
    serve 1 (.beginEffect 0 wireRequest 2)

def wireWorld : World := (tape.run (quiet (World.empty .sqlite)) wireSetup).state

def wireStatus (w : World) : Option Int := (w.effects.find? ("r", "k")).map EffectRecord.status

/-- `D1` claims and stalls, its lease runs out, `D2` claims and confirms. -/
def confirmedByD2 : List (Choice Call) :=
  serve 0 (.claimEffectDispatch "r" "k" "D1" 60000 1000 1000) ++
    serve 1 (.claimEffectDispatch "r" "k" "D2" 60000 61000 61000) ++
    serve 2 (.completeEffect "r" "k" EffectStatus.confirmed.code "ref 1" "" 61500)

/-- `D1` reports its own attempt as failed, to be retried at 70000. -/
def failureOfD1 : List (Choice Call) := serve 3 (.recordDispatchAttempt "r" "k" "timed out" 70000 62000)

/-- A stale failure report makes a confirmed effect `PENDING` again. -/
theorem confirmed_effect_reopened :
    tape.Along (System.Permits (fun call => isOutcomeCall call) fun _ _ _ _ => True) (quiet wireWorld)
        (confirmedByD2 ++ failureOfD1) ∧
      wireStatus (tape.run (quiet wireWorld) confirmedByD2).state = some EffectStatus.confirmed.code ∧
      wireStatus (tape.run (quiet wireWorld) (confirmedByD2 ++ failureOfD1)).state =
        some EffectStatus.pending.code := by
  refine ⟨?_, ?_, ?_⟩ <;> decide +kernel

/-- Without the stale report, an orderly reconciliation leaves the outcome alone. -/
theorem confirmed_effect_final :
    ∃ row, (tape.run (quiet wireWorld) confirmedByD2).state.effects.find? ("r", "k") = some row ∧
      isFinal row.status ∧
      ∃ row', (tape.run (quiet wireWorld) (confirmedByD2 ++
          serve 3 (.reconcileEffect "r" "k" EffectStatus.failed.code "" "absent" 63000))).state.effects.find?
            ("r", "k") = some row' ∧
        row'.status = row.status ∧ row'.responseJson = row.responseJson ∧ row'.errorJson = row.errorJson ∧
        ∀ now, EffectStmt.dispatchable now row' = false := by
  have settled : ((tape.run (quiet wireWorld) confirmedByD2).state.effects.find? ("r", "k")).any
      (fun row => isFinal row.status) = true := by decide +kernel
  obtain ⟨row, found, final⟩ := (Option.any_eq_true _ _).mp settled
  refine ⟨row, found, final, ?_⟩
  exact outcome_final_of_undisturbed "r" "k" wireWorld confirmedByD2 _ (by decide +kernel) row found final

end Tape.Effect
