import Tape.Effect.Dispatch

/-! # Confirmed dispatches

When a connector confirms, `dispatch_one` calls `complete_effect`.  That method keeps
any status but `PENDING` and still answers without an error, so the dispatcher takes
its confirmation for recorded even when a reconciler, a timer or another dispatcher
has moved the row to `FAILED` or `UNKNOWN` during the call; and the same processes can
overwrite a `CONFIRMED` row afterwards.

A confirmation is safe when the row it is reported on is still open, when nobody
reports anything else on a confirmed row, and when no row is confirmed between
another method's read and its `UPDATE`.
-/

namespace Tape.Effect.Confirm

open Interleave

def confirmed (runId key : String) (w : World) : Bool :=
  (w.effects.find? (runId, key)).any fun row => row.status = EffectStatus.confirmed.code

theorem confirmed_of_find? {runId key : String} {w : World} {row : EffectRecord}
    (found : w.effects.find? (runId, key) = some row) (isConfirmed : row.status = EffectStatus.confirmed.code) :
    confirmed runId key w := by
  rw [confirmed, found]
  exact decide_eq_true isConfirmed

theorem find?_of_confirmed {runId key : String} {w : World} (holds : confirmed runId key w) :
    ∃ row, w.effects.find? (runId, key) = some row ∧ row.status = EffectStatus.confirmed.code := by
  obtain ⟨row, found, isConfirmed⟩ := (Option.any_eq_true _ _).mp holds
  exact ⟨row, found, of_decide_eq_true isConfirmed⟩

/-- The act writes a status other than `CONFIRMED` on the effect. -/
def lowers (runId key : String) : Act → Bool
  | .sql (.effect (.setOutcome r k status ..)) =>
    (r, k) = (runId, key) && status ≠ EffectStatus.confirmed.code
  | .sql (.effect (.recordAttempt r k status ..)) =>
    (r, k) = (runId, key) && status ≠ EffectStatus.confirmed.code
  | .sql (.effect (.recordObservation r k status ..)) =>
    (r, k) = (runId, key) && status ≠ EffectStatus.confirmed.code
  | _ => false

theorem confirmed_of_answers {runId key : String} {act : Act} {w w' : World} {res : act.Res}
    (keeps : lowers runId key act = false) (answers : tape.Answers act w res w')
    (holds : confirmed runId key w) : confirmed runId key w' := by
  obtain ⟨row, found, isConfirmed⟩ := find?_of_confirmed holds
  have same := Sql.Table.key_of_find? found
  rcases effect_of_answers answers found with kept | ⟨s, rfl, -, -, found'⟩
  · exact confirmed_of_find? kept isConfirmed
  · refine confirmed_of_find? found' ?_
    unfold EffectStmt.apply
    split
    next selected =>
      cases s with
      | setOutcome r k status | recordAttempt r k status | recordObservation r k status =>
        have own : (r, k) = (runId, key) := (of_decide_eq_true selected).symm.trans same
        cases own
        have written : status = EffectStatus.confirmed.code := by simpa [lowers] using keeps
        exact written
      | claimDispatch => exact isConfirmed
      | zeroEffects => exact isConfirmed
      | _ => cases selected
    next => exact isConfirmed

/-- The effect's row is there. -/
def begun (runId key : String) (w : World) : Bool := (w.effects.find? (runId, key)).isSome

theorem begun_of_answers {runId key : String} {act : Act} {w w' : World} {res : act.Res}
    (answers : tape.Answers act w res w') (holds : begun runId key w) : begun runId key w' := by
  obtain ⟨row, found⟩ := Option.isSome_iff_exists.mp holds
  rcases effect_of_answers answers found with kept | ⟨s, -, -, -, found'⟩
  · exact Option.isSome_iff_exists.mpr ⟨_, kept⟩
  · exact Option.isSome_iff_exists.mpr ⟨_, found'⟩

theorem confirmed_of_setOutcome {runId key responseJson errorJson : String} {ts : Int} {w w' : World}
    {updated : Nat} (holds : begun runId key w)
    (answers : tape.Answers (.effect (.setOutcome runId key EffectStatus.confirmed.code responseJson errorJson ts))
      w (.ok updated) w') : confirmed runId key w' := by
  obtain ⟨row, found⟩ := Option.isSome_iff_exists.mp holds
  obtain ⟨-, rfl⟩ := exec_of_ok answers
  have written := EffectStmt.find?_exec_of_some
    (s := .setOutcome runId key EffectStatus.confirmed.code responseJson errorJson ts) found
  refine confirmed_of_find? written ?_
  have selected : (EffectStmt.setOutcome runId key EffectStatus.confirmed.code responseJson errorJson ts).selects
      row = true := decide_eq_true (Sql.Table.key_of_find? found)
  rw [EffectStmt.apply, if_pos selected]
  rfl

/-! ## The condition -/

/-- The act calls a connector, and the connector confirms. -/
def isConfirmedCall : Act → Bool
  | .outside (.dispatch _ outcome) => outcome.isConfirmed
  | _ => false

/-- The act asks the outside, and what it learns is then written without a guard on the status:
    a call that was not confirmed, or an observation. -/
def reportsUnguarded : Act → Bool
  | .outside (.dispatch _ outcome) => !outcome.isConfirmed
  | .outside (.observe _) => true
  | _ => false

/-- The effect is `PENDING` or `CONFIRMED`, if it is there. -/
def openForConfirmation (runId key : String) (w : World) : Bool :=
  (w.effects.find? (runId, key)).all fun row =>
    row.status = EffectStatus.pending.code || row.status = EffectStatus.confirmed.code

/-- `act`, about to be executed by thread `tid`, neither finds a confirmation overtaken nor
    overtakes one. -/
structure Unraced (runId key : String) (h : TapeHist) (tid : Nat) (act : Act) : Prop where
  /-- A confirmed call is reported on a row that nobody has moved away. -/
  reports_open : readsEffect runId key act → ((lastOwn tid h.log).any fun event => isConfirmedCall event.op) →
    openForConfirmation runId key h.state
  /-- Anything else is not reported on a confirmed row. -/
  starts_open : readsEffect runId key act → ((lastOwn tid h.log).any fun event => reportsUnguarded event.op) →
    ¬ confirmed runId key h.state
  /-- A confirmed row was confirmed already when the method that now lowers it read it. -/
  no_race : lowers runId key act → confirmed runId key h.state →
    (lastRead runId key tid h.log).any fun row => row.status = EffectStatus.confirmed.code

instance (runId key : String) (h : TapeHist) (tid : Nat) (act : Act) :
    Decidable (Unraced runId key h tid act) :=
  decidable_of_iff (_ ∧ _ ∧ _) ⟨fun all => ⟨all.1, all.2.1, all.2.2⟩,
    fun all => ⟨all.reports_open, all.starts_open, all.no_race⟩⟩

/-- The reply to a `complete_effect` of the effect arrived. -/
def acknowledges (runId key : String) : Act → Bool
  | .outside (.acknowledged r k) => (r, k) = (runId, key)
  | _ => false

def confirmContract (runId key : String) (tid : Nat) (_ : Call) : Contract World Act Act.Res where
  rely h h' := lastOwn tid h'.log = lastOwn tid h.log ∧
    (begun runId key h.state → begun runId key h'.state) ∧
    (confirmed runId key h.state → confirmed runId key h'.state)
  allowed h act := Unraced runId key h tid act
  guar h h' := ∃ act res state, h' = h.push tid act res state ∧ tape.Answers act h.state res state ∧
    (confirmed runId key h.state → confirmed runId key state) ∧
    (acknowledges runId key act → confirmed runId key h.state)
  rely_refl _ := ⟨rfl, id, id⟩
  rely_trans first second :=
    ⟨second.1.trans first.1, second.2.1 ∘ first.2.1, second.2.2 ∘ first.2.2⟩

/-- An act that does not lower the effect and acknowledges nothing. -/
structure Quiet (runId key : String) (act : Act) : Prop where
  keeps : lowers runId key act = false
  silent : acknowledges runId key act = false

section Safety

variable {runId key : String} {tid : Nat} {call : Call}

theorem quiet_of_neutral (act : Act) (neutral : isNeutral act) : Quiet runId key act := by
  rcases act with (s | s | s | s | s | s | s) | c | x
  case sql.effect => cases neutral
  case outside => cases x <;> first | exact ⟨rfl, rfl⟩ | cases neutral
  all_goals exact ⟨rfl, rfl⟩

theorem quiet_of_housekeeping (act : Act) (housekeeping : Housekeeping act) : Quiet runId key act :=
  quiet_of_neutral act (isNeutral_of_housekeeping housekeeping)

theorem guar_of_quiet {h : TapeHist} {act : Act} {res : act.Res} {state : World}
    (isQuiet : Quiet runId key act) (answers : tape.Answers act h.state res state) :
    (confirmContract runId key tid call).guar h (h.push tid act res state) :=
  ⟨act, res, state, rfl, answers, confirmed_of_answers isQuiet.keeps answers,
    fun acknowledged => by simp [isQuiet.silent] at acknowledged⟩

theorem safe_of_quiet {α : Type} {program : Prog Act Act.Res α} (all : program.All (Quiet runId key))
    (h : TapeHist) : tape.Safe (confirmContract runId key tid call) tid (fun _ _ => True) program h :=
  System.Safe.of_all (fun _ _ _ _ isQuiet _ answers => guar_of_quiet isQuiet answers) (fun _ _ => trivial) all h

theorem safe_neutral (act : Act) (neutral : Neutral act) (h : TapeHist) :
    tape.Safe (confirmContract runId key tid call) tid (fun _ _ => True) (Prog.perform act) h := by
  have all : Prog.All (Quiet runId key) (Prog.perform act : Prog Act Act.Res _) :=
    ⟨quiet_of_neutral act neutral.1, fun _ => trivial⟩
  exact safe_of_quiet all h

/-- An `UPDATE` of a method that read a row which was not confirmed. -/
theorem safe_lower {r k : String} {s : EffectStmt} {α : Type} {f : s.Res → StoreM α} {h : TapeHist}
    {existing : EffectRecord}
    (isOpen : (r, k) = (runId, key) → existing.status ≠ EffectStatus.confirmed.code)
    (last : lastOwn tid h.log = some ⟨tid, .effect (.getEffect r k), .ok (some existing)⟩)
    (target : lowers runId key (.effect s) → (r, k) = (runId, key))
    (rest : ∀ value, Prog.All (Quiet runId key) (f value).run) :
    tape.Safe (confirmContract runId key tid call) tid (fun _ _ => True) (s.query >>= f).run h := by
  refine safe_query (fun _ _ => trivial) fun h' res state rely allowed answers => ?_
  refine ⟨⟨_, res, state, rfl, answers, fun holds => ?_, fun silent => by cases silent⟩, ?_⟩
  · cases lowering : lowers runId key (.effect s) with
    | false => exact confirmed_of_answers lowering answers holds
    | true =>
      have same := target lowering
      have readConfirmed := allowed.no_race lowering holds
      rw [lastRead, rely.1, last] at readConfirmed
      have readOpen := isOpen same
      cases same
      simp [effectRead, readOpen] at readConfirmed
  · exact fun value _ => safe_of_quiet (rest value) _

theorem quiet_getEffect (r k : String) : Quiet runId key (.effect (.getEffect r k)) := ⟨rfl, rfl⟩

/-- The read of a method, which leaves the thread knowing the row it saw. -/
theorem safe_get {r k : String} {α : Type} {f : Option EffectRecord → StoreM α} {h : TapeHist}
    {post : Except StoreError α → TapeHist → Prop} (failed : ∀ e h, post (.error e) h)
    (absent : ∀ h', tape.Safe (confirmContract runId key tid call) tid post (f none).run h')
    (present : ∀ h₁ h₂ existing, lastOwn tid h₁.log = lastOwn tid h.log →
      Unraced runId key h₁ tid (.effect (.getEffect r k)) →
      h₁.state.effects.find? (r, k) = some existing → h₂.state = h₁.state →
      lastOwn tid h₂.log = some ⟨tid, .effect (.getEffect r k), .ok (some existing)⟩ →
      tape.Safe (confirmContract runId key tid call) tid post (f (some existing)).run h₂) :
    tape.Safe (confirmContract runId key tid call) tid post (RunStore.getEffect r k >>= f).run h := by
  refine safe_query failed fun h' res state rely allowed answers => ?_
  refine ⟨guar_of_quiet (quiet_getEffect r k) answers, fun value isOk => ?_⟩
  subst isOk
  cases value with
  | none => exact absent _
  | some existing =>
    have unchanged : state = h'.state := (exec_of_ok answers).2
    exact present h' _ existing rely.1 allowed (find?_of_getEffect answers) unchanged (lastOwn_push_self ..)

theorem safe_reconcileEffect (r k : String) (status : Int) (responseJson errorJson : String) (ts : Int)
    (h : TapeHist) : tape.Safe (confirmContract runId key tid call) tid (fun _ _ => True)
      (RunStore.reconcileEffect r k status responseJson errorJson ts).run h := by
  refine safe_get (fun _ _ => trivial) (fun _ _ _ => trivial) fun _ h₂ existing _ _ _ _ last => ?_
  simp only
  split
  · exact fun _ _ => trivial
  next isOpen =>
    refine safe_lower (fun _ isConfirmed => isOpen (by simp [isConfirmed])) last ?_ fun _ =>
      all_journaled quiet_of_housekeeping trivial fun _ => by constructor
    intro lowering
    simp only [lowers, Bool.and_eq_true, decide_eq_true_eq] at lowering
    exact lowering.1

/-- A read that reports something else than a confirmation did not see a confirmed row. -/
theorem not_confirmed_of_starts_open {h : TapeHist} {r k : String} {existing : EffectRecord} {event : TapeEvent}
    (allowed : Unraced runId key h tid (.effect (.getEffect r k)))
    (last : lastOwn tid h.log = some event) (unguarded : reportsUnguarded event.op)
    (found : h.state.effects.find? (r, k) = some existing) (same : (r, k) = (runId, key)) :
    existing.status ≠ EffectStatus.confirmed.code := by
  intro isConfirmed
  refine allowed.starts_open (by simp [readsEffect, same]) (by simp [last, unguarded]) ?_
  exact confirmed_of_find? (same ▸ found) isConfirmed

theorem safe_recordDispatchAttempt (r k error : String) (nextDispatchAtMs ts : Int) {h : TapeHist}
    {event : TapeEvent} (last : lastOwn tid h.log = some event) (unguarded : reportsUnguarded event.op) :
    tape.Safe (confirmContract runId key tid call) tid (fun _ _ => True)
      (RunStore.recordDispatchAttempt r k error nextDispatchAtMs ts).run h := by
  refine safe_get (fun _ _ => trivial) (fun _ _ _ => trivial) ?_
  intro h₁ h₂ existing kept allowed found _ read
  refine safe_lower (not_confirmed_of_starts_open allowed (kept.trans last) unguarded found) read ?_
    fun _ => all_journaled quiet_of_housekeeping (all_query (quiet_getEffect r k)) fun _ => by constructor
  intro lowering
  simp only [lowers, Bool.and_eq_true, decide_eq_true_eq] at lowering
  exact lowering.1

theorem safe_recordExternalObservation (r k : String) (resolution : Int)
    (externalRef responseJson errorJson kind : String) (ts registerTs : Int) {h : TapeHist}
    {event : TapeEvent} (last : lastOwn tid h.log = some event) (unguarded : reportsUnguarded event.op) :
    tape.Safe (confirmContract runId key tid call) tid (fun _ _ => True)
      (RunStore.recordExternalObservation r k resolution externalRef responseJson errorJson kind ts
        registerTs).run h := by
  refine safe_get (fun _ _ => trivial) (fun _ _ _ => trivial) ?_
  intro h₁ h₂ existing kept allowed found _ read
  refine safe_lower (not_confirmed_of_starts_open allowed (kept.trans last) unguarded found) read ?_
    fun _ => all_journaled quiet_of_housekeeping ?_ fun _ => by constructor
  · intro lowering
    simp only [lowers, Bool.and_eq_true, decide_eq_true_eq] at lowering
    exact lowering.1
  · split
    · refine .exceptBind (all_registerCompensation quiet_of_housekeeping ⟨rfl, rfl⟩ fun _ => ⟨rfl, rfl⟩) ?_
      exact fun _ => all_query (quiet_getEffect r k)
    · exact all_query (quiet_getEffect r k)

/-- A confirmation that was reported and answered is recorded. -/
theorem safe_completeConfirmed (r k responseJson errorJson : String) (ts : Int) {h : TapeHist}
    {event : TapeEvent} (last : lastOwn tid h.log = some event) (isCall : isConfirmedCall event.op) :
    tape.Safe (confirmContract runId key tid call) tid
      (fun result h => ∀ row, result = .ok (some row) → (r, k) = (runId, key) → confirmed runId key h.state)
      (RunStore.completeEffect r k EffectStatus.confirmed.code responseJson errorJson ts).run h := by
  refine safe_get (fun _ _ _ returned => by cases returned) (fun _ _ _ _ returned => by cases returned) ?_
  intro h₁ h₂ existing kept allowed found unchanged _
  simp only
  split
  next notPending =>
    -- nothing is written: the row the method read must have been confirmed
    intro h₃ rely _ _ same
    have isOpen := allowed.reports_open (by simp [readsEffect, same]) (by simp [kept, last, isCall])
    rw [same] at found
    simp only [openForConfirmation, found, Option.all_some, Bool.or_eq_true, decide_eq_true_eq,
      notPending, false_or] at isOpen
    refine rely.2.2 ?_
    rw [unchanged]
    exact confirmed_of_find? found isOpen
  next pending =>
    refine safe_query (fun _ _ _ returned => by cases returned) fun h₃ res state rely _ answers => ?_
    refine ⟨guar_of_quiet ⟨by simp [lowers], rfl⟩ answers, fun (updated : Nat) isOk => ?_⟩
    subst isOk
    have written : (r, k) = (runId, key) → confirmed runId key state := by
      intro same
      cases same
      refine confirmed_of_setOutcome (rely.2.1 ?_) answers
      rw [unchanged, begun, found]
      rfl
    refine System.Safe.of_all_knowing (K := confirmContract runId key tid call) (p := Quiet runId key)
      (fun h => (r, k) = (runId, key) → confirmed runId key h.state) ?_ ?_ ?_ ?_ written
    · exact fun rely known same => rely.2.2 (known same)
    · exact fun h act res state isQuiet _ known answers =>
        ⟨guar_of_quiet isQuiet answers, fun same => confirmed_of_answers isQuiet.keeps answers (known same)⟩
    · exact fun _ _ known _ _ same => known same
    · exact all_journaled quiet_of_housekeeping trivial fun _ => by constructor

theorem safe_recordOutcome (job : Sdk.DispatchJob) (cur : EffectRecord) {h : TapeHist}
    (last : lastOwn tid h.log = some ⟨tid, .outside (.dispatch cur job.outcome), ()⟩) :
    tape.Safe (confirmContract runId key tid call) tid (fun _ _ => True) (Sdk.recordOutcome job cur).run h := by
  have composable := System.Safe.composable (S := tape) (confirmContract runId key tid call) tid
  have attempt : ∀ (r k error : String) (nextAt ts : Int), job.outcome.isConfirmed = false →
      tape.Safe (confirmContract runId key tid call) tid (fun _ _ => True)
        (Sdk.Client.recordDispatchAttempt r k error nextAt ts).run h := by
    intro r k error nextAt ts other
    exact safe_rpcFound_of_safe (safe_recordDispatchAttempt r k error nextAt ts last
      (by simp [reportsUnguarded, other]))
  have retry : ∀ error retryAtMs, job.outcome.isConfirmed = false →
      tape.Safe (confirmContract runId key tid call) tid (fun _ _ => True) (Sdk.retry job cur error retryAtMs).run h := by
    intro error retryAtMs other
    unfold Sdk.retry
    split
    · exact fun _ _ => trivial
    · exact System.Safe.seq (attempt _ _ _ _ _ other) fun _ _ _ _ => trivial
  unfold Sdk.recordOutcome
  split
  next error raised =>
    split
    · exact System.Safe.seq (attempt _ _ _ _ _ (by rw [raised]; rfl)) fun _ _ _ _ => trivial
    · exact retry _ _ (by rw [raised]; rfl)
  next externalRef response isConfirmed =>
    refine System.Safe.exceptBind (fun _ _ => trivial) (safe_rpcFound (System.Safe.mono ?_
      (safe_completeConfirmed cur.runId cur.idempotencyKey _ "" job.recordAt last
        (by simp [isConfirmedCall, isConfirmed, DispatchOutcome.isConfirmed]))))
    intro result h recorded h' rely
    match result with
    | .error _ => exact fun _ failed => by cases failed
    | .ok none => exact fun _ failed => by cases failed
    | .ok (some row) =>
      rintro _ ⟨⟩
      -- the reply arrives, and the row is confirmed
      refine safe_external (fun _ _ => trivial) fun h₁ rely₁ _ => ⟨⟨_, _, _, rfl, .exec, id, ?_⟩, ?_⟩
      · intro acknowledged
        exact rely₁.2.2 (rely.2.2 (recorded row rfl (of_decide_eq_true acknowledged)))
      · refine System.Safe.seq (neutral_registerInverse composable ?_ job cur _) fun _ _ _ _ => trivial
        exact safe_neutral
  next error unknown =>
    exact System.Safe.seq (attempt _ _ _ _ _ (by rw [unknown]; rfl)) fun _ _ _ _ => trivial
  next error retryAtMs failed =>
    simp only
    split
    · have unguarded : reportsUnguarded (.outside (.dispatch cur job.outcome)) := by
        simp [reportsUnguarded, failed, DispatchOutcome.isConfirmed]
      exact System.Safe.seq (safe_rpcFound_of_safe (safe_recordExternalObservation _ _ _ _ _ _ _ _ _ last unguarded))
        fun _ _ _ _ => trivial
    · exact retry _ _ (by rw [failed]; rfl)

theorem safe_dispatchOne (job : Sdk.DispatchJob) (h : TapeHist) :
    tape.Safe (confirmContract runId key tid call) tid (fun _ _ => True) (Sdk.dispatchOne job).run h := by
  have claim : Prog.All (Quiet runId key)
      (Sdk.Client.claimEffectDispatch job.runId job.idempotencyKey job.claimer Sdk.dispatchLeaseMs job.claimAt).run :=
    all_rpc (.exceptBind (all_query ⟨rfl, rfl⟩) fun _ => .exceptBind (all_query ⟨rfl, rfl⟩) fun _ => trivial)
  unfold Sdk.dispatchOne
  split
  · exact fun _ _ => trivial
  refine System.Safe.seq (safe_of_quiet claim h) ?_
  rintro ⟨acquired, row⟩ h'
  cases acquired with
  | false => exact fun _ _ => trivial
  | true =>
    cases row with
    | none => exact fun _ _ => trivial
    | some cur =>
      simp only [Bool.not_true, Bool.false_eq_true, if_false]
      split
      · exact fun _ _ => trivial
      refine safe_external (fun _ _ => trivial) fun h₁ _ _ => ⟨guar_of_quiet ⟨rfl, rfl⟩ .exec, ?_⟩
      exact safe_recordOutcome job cur (lastOwn_push_self ..)

theorem safe_reconcileOnce (job : Sdk.ReconcileJob) (h : TapeHist) :
    tape.Safe (confirmContract runId key tid call) tid (fun _ _ => True) (Sdk.reconcileOnce job).run h := by
  have composable := System.Safe.composable (S := tape) (confirmContract runId key tid call) tid
  refine reconcileOnce_of composable (fun x => neutral_external composable safe_neutral) ?_ ?_ ?_ h
  · exact fun _ _ _ _ _ _ _ h => safe_reconcileEffect _ _ _ _ _ _ h
  · exact fun _ _ _ _ h => safe_of_quiet (all_query ⟨rfl, rfl⟩) h
  · intro e resolution externalRef responseJson errorJson kind ts registerTs h
    refine safe_external (fun _ _ => trivial) fun h₁ _ _ => ⟨guar_of_quiet ⟨rfl, rfl⟩ .exec, ?_⟩
    exact System.Safe.seq (safe_rpcFound_of_safe (safe_recordExternalObservation _ _ _ _ _ _ _ _ _
      (lastOwn_push_self ..) rfl)) fun _ _ _ _ => trivial

theorem safe_fireDueTimersOnce (job : Sdk.TimerJob) (h : TapeHist) :
    tape.Safe (confirmContract runId key tid call) tid (fun _ _ => True) (Sdk.fireDueTimersOnce job).run h := by
  have composable := System.Safe.composable (S := tape) (confirmContract runId key tid call) tid
  refine fireDueTimersOnce_of composable (fun x => neutral_external composable safe_neutral) ?_ ?_ ?_ ?_ ?_ h
  · exact fun _ _ _ _ _ _ _ h => safe_reconcileEffect _ _ _ _ _ _ h
  · exact fun r k h => safe_of_quiet (all_query (quiet_getEffect r k)) h
  · exact fun _ => safe_neutral _ (.of_isNeutral rfl nofun)
  · exact fun _ _ _ _ _ _ _ => neutral_sendSignal composable safe_neutral
  · exact fun _ _ _ => neutral_listDueTimers composable safe_neutral

end Safety

/-- Dispatchers, and the reactors that reconcile effects. -/
def isDispatcherOrReactor : Call → Bool
  | .dispatchOne _ | .reconcileOnce _ | .fireDueTimersOnce _ => true
  | _ => false

theorem confirm_compose (runId key : String) :
    System.Compose tape (fun call => isDispatcherOrReactor call) (confirmContract runId key)
      (fun _ _ _ _ => True) where
  compatible {tid call other call' h h'} ne guar := by
    obtain ⟨act, res, state, rfl, answers, kept, -⟩ := guar
    exact ⟨lastOwn_push_ne h act res state ne, begun_of_answers answers, kept⟩
  fresh {tid call h} admitted _ := by
    cases call with
    | dispatchOne job => exact safe_dispatchOne job h
    | reconcileOnce job => exact safe_reconcileOnce job h
    | fireDueTimersOnce job => exact safe_fireDueTimersOnce job h
    | _ => cases admitted

/-- **Confirmations last.**  In every interleaving of dispatchers, reconcilers and timers whose acts
    are unraced: once a dispatcher has been told by its connector that an effect is confirmed, and
    `complete_effect` has answered, the effect is `CONFIRMED` in every state that follows. -/
theorem acknowledged_effect_confirmed (runId key : String) (w : World) (choices : List (Choice Call))
    (unraced : tape.Along (System.Permits (fun call => isDispatcherOrReactor call)
      fun tid _ h act => Unraced runId key h tid act) (quiet w) choices)
    (acknowledged : ∃ event ∈ (tape.run (quiet w) choices).log, acknowledges runId key event.op) :
    ∃ row, (tape.run (quiet w) choices).state.effects.find? (runId, key) = some row ∧
      row.status = EffectStatus.confirmed.code := by
  have owned := quiet_owned w
  have lasts : (∃ event ∈ (tape.run (quiet w) choices).log, acknowledges runId key event.op) →
      confirmed runId key (tape.run (quiet w) choices).state := by
    -- the reply finds the row confirmed, and no step lowers it afterwards
    refine System.run_hist (confirm_compose runId key)
      (I := fun h => (∃ event ∈ h.log, acknowledges runId key event.op) → confirmed runId key h.state)
      ?_ owned (System.poolSafe_of_empty rfl) (by simp) unraced
    rintro tid call h h' ⟨act, res, state, rfl, -, kept, atReply⟩ holds ⟨event, member, isReply⟩
    rcases List.mem_cons.mp member with rfl | member
    · exact kept (atReply isReply)
    · exact kept (holds ⟨event, member, isReply⟩)
  exact find?_of_confirmed (lasts acknowledged)

/-! ## A wire that is observed while the bank is still working on it -/

/-- A reconciler that also looks at effects `PENDING` for half a minute, and finds nothing at the bank. -/
def earlyObserver : Sdk.ReconcileJob where
  pendingAfterMs := 30000
  observe := fun _ => some { status := "absent" }
  recordAt := fun _ => 100000
  sdkNow := 100000

/-- `D1` calls the bank, the reconciler ticks during the call, and then the bank confirms. -/
def observedDuringCall : List (Choice Call) :=
  serve 0 (.dispatchOne (wireJob "D1" 1000 (.confirmed "ref 1" []))) 3 ++
    serve 1 (.reconcileOnce earlyObserver) ++ List.replicate 16 (.exec 0)

/-- The confirmation is acknowledged, and the wire is `FAILED`. -/
theorem confirmed_wire_recorded_failed :
    tape.Along (System.Permits (fun call => isDispatcherOrReactor call) fun _ _ _ _ => True) (quiet wireWorld)
        observedDuringCall ∧
      ((tape.run (quiet wireWorld) observedDuringCall).log.any fun event =>
        event.tid = 0 && acknowledges "r" "k" event.op) = true ∧
      wireStatus (tape.run (quiet wireWorld) observedDuringCall).state = some EffectStatus.failed.code := by
  refine ⟨?_, ?_, ?_⟩ <;> decide +kernel

/-- `D1` is done before the reconciler looks. -/
def observedAfterCall : List (Choice Call) :=
  serve 0 (.dispatchOne (wireJob "D1" 1000 (.confirmed "ref 1" []))) ++ serve 1 (.reconcileOnce earlyObserver)

theorem confirmed_wire_recorded_confirmed :
    ∃ row, (tape.run (quiet wireWorld) observedAfterCall).state.effects.find? ("r", "k") = some row ∧
      row.status = EffectStatus.confirmed.code := by
  have replied : ((tape.run (quiet wireWorld) observedAfterCall).log.any fun event =>
      acknowledges "r" "k" event.op) = true := by decide +kernel
  exact acknowledged_effect_confirmed "r" "k" wireWorld observedAfterCall (by decide +kernel)
    (List.any_eq_true.mp replied)

end Tape.Effect.Confirm
