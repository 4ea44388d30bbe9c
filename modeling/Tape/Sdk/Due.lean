import Tape.Sdk.Dispatcher
import Tape.Sdk.Starvation

/-! # Effects behind others in the outbox

A pass of the dispatcher reads the first `limit` due effects, in the order in which they fell due.  An
effect without a connector stays due and keeps its place; one that is dispatched is `PENDING` no longer,
or due again later.
-/

namespace Tape.Sdk

open Sql Interleave Tape.Sequential

section Dispatcher

variable {job : OutboxJob} {e : EffectRecord} {w : World}

/-! ## One effect -/

/-- The dispatcher goes for another attempt, with the time that the connector asks for. -/
def retries (job : DispatchJob) (cur : EffectRecord) : Option Int :=
  match job.outcome with
  | .raised _ => if cur.semantics = EffectSemantics.nonIdempotent.code then none else some 0
  | .failed _ retryAtMs => if job.maxAttempts ≤ cur.dispatchAttempts + 1 then none else some retryAtMs
  | .confirmed .. | .unknown _ => none

/-- The time that the dispatcher schedules another attempt for, if it does. -/
def rescheduled (job : DispatchJob) (cur : EffectRecord) : Option Int := (retries job cur).bind (job.retryTime cur)

/-- There is a time for another attempt: `_backoff_ms` does not raise. -/
def Schedules (job : DispatchJob) (cur : EffectRecord) : Prop :=
  (retries job cur).all fun retryAtMs => (job.retryTime cur retryAtMs).isSome

instance (job : DispatchJob) (cur : EffectRecord) : Decidable (Schedules job cur) := inferInstanceAs (Decidable (_ = true))

/-- What came of a dispatch is recorded: the effect is open no longer, or has one attempt more. -/
def Attempted (old new : EffectRecord) : Prop :=
  new.status ≠ EffectStatus.pending.code ∨ new.dispatchAttempts = old.dispatchAttempts + 1

/-- `left` is `w` with the attempt for `cur` recorded, if another one can be scheduled. -/
structure Settles (job : DispatchJob) (cur : EffectRecord) (w left : World) : Prop where
  recorded : Schedules job cur → ∃ new, left.effects.find? cur.pk = some new ∧ Attempted cur new ∧
    (new.status = EffectStatus.pending.code →
      ∃ nextAt, rescheduled job cur = some nextAt ∧ 0 < nextAt ∧ new.nextDispatchAtMs = nextAt)
  others : ∀ pk, pk ≠ cur.pk → left.effects.find? pk = w.effects.find? pk

/-- The row after an attempt: without a time for a retry it is `UNKNOWN`. -/
theorem settles_attempt {job : DispatchJob} {cur : EffectRecord} (found : w.effects.find? cur.pk = some cur) (error : String)
    {nextAt : Int} (schedules : 0 < nextAt → rescheduled job cur = some nextAt) (ts : Int) (report : DispatchReport) :
    Settles job cur w (tape.alone (do
      let _ ← Client.recordDispatchAttempt cur.runId cur.idempotencyKey error nextAt ts
      return report : SdkM DispatchReport).run w).2 := by
  rw [left_last, Client.recordDispatchAttempt, left_rpcFound]
  obtain ⟨isNew, others⟩ := rewritten found (@Effect.find?_recordDispatchAttempt w cur.runId cur.idempotencyKey ts error nextAt)
    fun _ ne => if_neg ne
  rw [Effect.attempted, if_pos rfl] at isNew
  refine ⟨fun _ => ⟨_, isNew, .inr rfl, fun isOpen => ?_⟩, others⟩
  by_cases retries : nextAt ≤ 0
  · have isUnknown : attemptStatus nextAt = EffectStatus.unknown.code := if_pos retries
    cases isUnknown.symm.trans isOpen
  · exact ⟨nextAt, schedules (by omega), by omega, if_neg retries⟩

theorem effects_registerInverse (job : DispatchJob) (cur : EffectRecord) (w : World) :
    (tape.alone (registerInverse job cur).run w).2.effects = w.effects := by
  unfold registerInverse
  cases job.spec cur.toolName with
  | none => rfl
  | some spec =>
    have swallowed : ∀ action : SdkM ObligationRecord, (tape.alone (swallow action).run w).2 = (tape.alone action.run w).2 :=
      fun action => congrArg Prod.snd (tape.alone_bind action.run _ w)
    simp only [swallowed, Client.registerCompensation, left_rpc]
    exact Effect.effects_alone_of_all
      (all_registerCompensation Effect.housekeeping_keeps_effects (fun _ => rfl) fun _ _ => rfl) w

theorem settles_confirmed {job : DispatchJob} {cur : EffectRecord} (found : w.effects.find? cur.pk = some cur)
    (isOpen : cur.status = EffectStatus.pending.code) (responseJson : String) {left : World}
    (same : left.effects = (tape.alone (RunStore.completeEffect cur.runId cur.idempotencyKey EffectStatus.confirmed.code
      responseJson "" job.recordAt).run w).2.effects) : Settles job cur w left := by
  have completed := @Effect.find?_completeEffect w cur.runId cur.idempotencyKey job.recordAt EffectStatus.confirmed.code
    responseJson ""
  obtain ⟨isNew, others⟩ := rewritten found completed fun _ ne => if_neg fun both => ne both.1
  rw [← same, Effect.completed, if_pos ⟨rfl, isOpen⟩] at isNew
  rw [← same] at others
  have closed : EffectStatus.confirmed.code ≠ EffectStatus.pending.code := by decide
  exact ⟨fun _ => ⟨_, isNew, .inl closed, fun stillOpen => absurd stillOpen closed⟩, others⟩

/-- Another attempt is scheduled, or the backoff raises and nothing is recorded. -/
theorem settles_retry {job : DispatchJob} {cur : EffectRecord} (found : w.effects.find? cur.pk = some cur) (error : String)
    {retryAtMs : Int} (isRetry : retries job cur = some retryAtMs) :
    Settles job cur w (tape.alone (retry job cur error retryAtMs).run w).2 := by
  unfold retry
  cases time : job.retryTime cur retryAtMs with
  | none =>
    refine ⟨fun schedules => ?_, fun _ _ => rfl⟩
    simp [Schedules, isRetry, time] at schedules
  | some nextAt => exact settles_attempt found error (fun _ => by simp [rescheduled, isRetry, time]) _ _

/-- Whatever comes of a dispatch is recorded. -/
theorem settles_recordOutcome (job : DispatchJob) {cur : EffectRecord} (found : w.effects.find? cur.pk = some cur)
    (isOpen : cur.status = EffectStatus.pending.code) : Settles job cur w (tape.alone (recordOutcome job cur).run w).2 := by
  unfold recordOutcome
  cases outcome : job.outcome with
  | raised error =>
    by_cases nonIdempotent : cur.semantics = EffectSemantics.nonIdempotent.code
    · simp only [nonIdempotent, if_true]
      exact settles_attempt found _ (fun never => by omega) _ _
    · simp only [nonIdempotent, if_false]
      exact settles_retry found _ (by simp [retries, outcome, nonIdempotent])
  | confirmed externalRef response =>
    refine settles_confirmed found isOpen
      (Json.obj (Json.dictUpdate [("external_ref", .str externalRef)] response)).dumps ?_
    have completed := left_rpcFound (RunStore.completeEffect cur.runId cur.idempotencyKey EffectStatus.confirmed.code
      (Json.obj (Json.dictUpdate [("external_ref", .str externalRef)] response)).dumps "" job.recordAt)
        (.failedPrecondition "complete_effect before begin_effect") w
    cases done : tape.alone (Client.completeEffect cur.runId cur.idempotencyKey EffectStatus.confirmed.code
      (Json.obj (Json.dictUpdate [("external_ref", .str externalRef)] response)).dumps "" job.recordAt).run w with
    | mk answer left =>
      rw [← Client.completeEffect, done] at completed
      rw [← completed]
      cases answer with
      | error status => rw [System.alone_exceptBind_error tape done]
      | ok value =>
        rw [System.alone_exceptBind tape done, alone_external]
        exact (congrArg World.effects (left_last (registerInverse job cur) _ left)).trans (effects_registerInverse job cur left)
  | unknown error => exact settles_attempt found _ (fun never => by omega) _ _
  | failed error retryAtMs =>
    by_cases exhausted : job.maxAttempts ≤ cur.dispatchAttempts + 1
    · simp only [exhausted, if_true]
      rw [left_last, Client.recordExternalObservation, left_rpcFound]
      obtain ⟨isNew, others⟩ := rewritten found (@Effect.find?_recordExternalObservation w cur.runId cur.idempotencyKey
        job.recordAt EffectResolution.failed.code "" "" _ "" job.registerAt) fun _ ne => if_neg ne
      rw [Effect.observed, if_pos rfl] at isNew
      have closed : RunStore.observedStatus EffectResolution.failed.code cur ≠ EffectStatus.pending.code := by
        simp [RunStore.observedStatus, EffectResolution.code, EffectStatus.code]
      exact ⟨fun _ => ⟨_, isNew, .inl closed, fun stillOpen => absurd stillOpen closed⟩, others⟩
    · simp only [exhausted, if_false]
      exact settles_retry found _ (by simp [retries, outcome, exhausted])

/-- The statement that claims the effect for the dispatcher. -/
def OutboxJob.claim (job : OutboxJob) (e : EffectRecord) : EffectStmt :=
  let now := RunStore.claimTime (job.claimAt e) (job.claimAt e)
  .claimDispatch e.runId e.idempotencyKey job.claimer (addI64 now (RunStore.claimTtl dispatchLeaseMs)) now

theorem claimTime_self (now : Int) : RunStore.claimTime now now = now := by
  unfold RunStore.claimTime
  split <;> rfl

theorem alone_claim (job : OutboxJob) (e : EffectRecord) (w : World) :
    tape.alone (Client.claimEffectDispatch e.runId e.idempotencyKey job.claimer dispatchLeaseMs (job.claimAt e)).run w =
      (.ok (0 < w.effects.count (job.claim e).selects, ((job.claim e).exec w).2.find? e.pk),
        { w with effects := ((job.claim e).exec w).2 }) := rfl

theorem dispatchOne_skips (unregistered : job.registered e.connector = false) (w : World) :
    tape.alone (dispatchOne (job.one e)).run w = (.ok (.skipped "no connector registered"), w) := by
  simp only [dispatchOne, OutboxJob.one, unregistered]
  rfl

/-- A due effect is claimed and dispatched, and what comes of it is recorded. -/
theorem settles_dispatchOne (registered : job.registered e.connector) (due : EffectStmt.dispatchable (job.claimAt e) e)
    (found : w.effects.find? e.pk = some e) : Settles (job.one e) e w (tape.alone (dispatchOne (job.one e)).run w).2 := by
  have isOpen : e.status = EffectStatus.pending.code := by
    simp only [EffectStmt.dispatchable, Bool.and_eq_true, decide_eq_true_eq] at due
    exact due.1.1.1
  have selected : (job.claim e).selects e := by
    simp [OutboxJob.claim, EffectStmt.selects, claimTime_self, due]
  have acquired : 0 < w.effects.count (job.claim e).selects := (Table.count_pos_iff _ _).mpr ⟨e, found, selected⟩
  let cur := (job.claim e).assign e
  let w₁ : World := { w with effects := ((job.claim e).exec w).2 }
  have isCur : w₁.effects.find? e.pk = some cur := by
    have claimed := EffectStmt.find?_exec_of_some (s := job.claim e) found
    rwa [EffectStmt.apply, if_pos selected] at claimed
  have others : ∀ pk, pk ≠ e.pk → w₁.effects.find? pk = w.effects.find? pk := by
    intro pk ne
    refine (Effect.find?_exec (s := job.claim e) (fun _ same => by cases same) w pk).trans ?_
    cases other : w.effects.find? pk with
    | none => rfl
    | some row =>
      have unselected : (job.claim e).selects row = false := by
        simp [OutboxJob.claim, EffectStmt.selects, Table.key_of_find? other ▸ ne]
      simp [EffectStmt.apply, unselected]
  have settles := @settles_recordOutcome w₁ (job.one e) cur isCur isOpen
  have program : (tape.alone (dispatchOne (job.one e)).run w).2 = (tape.alone (recordOutcome (job.one e) cur).run w₁).2 := by
    have claimed : tape.alone (Client.claimEffectDispatch (job.one e).runId (job.one e).idempotencyKey (job.one e).claimer
        dispatchLeaseMs (job.one e).claimAt).run w = (.ok (true, some cur), w₁) := by
      refine (alone_claim job e w).trans (Prod.ext (congrArg Except.ok (Prod.ext ?_ isCur)) rfl)
      exact decide_eq_true acquired
    have known : (!(job.one e).connectorRegistered) = false := by simp [OutboxJob.one, registered]
    have pending : ¬ cur.status ≠ EffectStatus.pending.code := not_not.mpr isOpen
    simp only [dispatchOne, known, Bool.false_eq_true, if_false]
    rw [System.alone_exceptBind tape claimed]
    simp only [Bool.not_true, Bool.false_eq_true, if_false, if_neg pending, alone_external]
  rw [program]
  exact ⟨settles.recorded, fun pk ne => (settles.others pk ne).trans (others pk ne)⟩

/-! ## One pass -/

/-- `ORDER BY next_dispatch_at_ms, ts_ms`. -/
abbrev DueBefore (a b : EffectRecord) : Prop :=
  a.nextDispatchAtMs < b.nextDispatchAtMs ∨ (a.nextDispatchAtMs = b.nextDispatchAtMs ∧ a.tsMs ≤ b.tsMs)

instance : Std.Total DueBefore := ⟨fun a b => by unfold DueBefore; omega⟩

instance : IsTrans EffectRecord DueBefore := ⟨fun a b c => by unfold DueBefore; omega⟩

/-- The effects that a pass is after. -/
def OutboxJob.hot (job : OutboxJob) (row : EffectRecord) : Bool :=
  EffectStmt.dispatchable job.listAt row && (job.connector = "" || row.connector = job.connector)

/-- The body of the loop; whatever it raises, the pass goes on. -/
def OutboxJob.takesUp (job : OutboxJob) (e : EffectRecord) (w w' : World) (goesOn : Bool) : Prop :=
  w' = (tape.alone (dispatchOne (job.one e)).run w).2 ∧ goesOn = true

theorem alone_tried {α : Type} (action : SdkM α) (w : World) : tape.alone (tried action).run w =
    (.ok (tape.alone action.run w).1, (tape.alone action.run w).2) := tape.alone_bind action.run _ w

theorem pass_dispatchAll (job : OutboxJob) (effects : List EffectRecord) (w : World) :
    Sql.Pass job.takesUp effects w (tape.alone (dispatchAll job effects).run w).2 := by
  induction effects generalizing w with
  | nil => exact .nil w
  | cons e effects inductionHypothesis =>
    rw [dispatchAll, System.alone_exceptBind tape (alone_tried _ w)]
    refine .next ⟨rfl, rfl⟩ ?_
    rw [left_last]
    exact inductionHypothesis _

/-- What a pass leaves. -/
def outboxTick (w : World) (job : OutboxJob) : World := (tape.alone (outboxDispatchOnce job).run w).2

theorem outboxTick_eq {job : OutboxJob} (some_ : 1 ≤ job.limit) (w : World) : outboxTick w job =
    (tape.alone (dispatchAll job (window DueBefore job.limit.toNat (w.effects.rows.filter job.hot))).run w).2 := by
  have listed : tape.alone (Client.listEffectsToDispatch job.connector job.limit job.listAt).run w =
      (.ok (window DueBefore job.limit.toNat (w.effects.rows.filter job.hot)), w) := by
    have isListed : limitRows job.limit (orderBy₂ EffectRecord.nextDispatchAtMs EffectRecord.tsMs
      (w.effects.rows.filter job.hot)) =
        window DueBefore job.limit.toNat (w.effects.rows.filter job.hot) := if_neg (by omega)
    have isLimit : (if 0 < (if 0 < job.limit then job.limit else 200) then (if 0 < job.limit then job.limit else 200) else 200) =
        job.limit := by
      have positive : 0 < job.limit := some_
      rw [if_pos positive, if_pos positive]
    have isNow : (if 0 < job.listAt then job.listAt else job.listAt) = job.listAt := ite_self _
    have asked : tape.alone (Client.listEffectsToDispatch job.connector job.limit job.listAt).run w =
        (.ok (limitRows (if 0 < (if 0 < job.limit then job.limit else 200) then (if 0 < job.limit then job.limit else 200)
          else 200)
          (orderBy₂ EffectRecord.nextDispatchAtMs EffectRecord.tsMs (w.effects.rows.filter fun row =>
            EffectStmt.dispatchable (if 0 < job.listAt then job.listAt else job.listAt) row &&
              (job.connector = "" || row.connector = job.connector)))), w) := rfl
    rw [isLimit, isNow] at asked
    rw [← isListed]
    exact asked
  rw [outboxTick, outboxDispatchOnce, System.alone_exceptBind tape listed]

/-- What is in front of `e` does not keep a pass from it: fewer due effects without a connector come before it than the
    pass lists, every attempt that is to be made again can be scheduled, none for a time at which `e` was due already,
    and the server's clock does not go back. -/
structure OutboxJob.GetsTo (job : OutboxJob) (e : EffectRecord) (w : World) : Prop where
  few : (w.effects.rows.countP fun row => job.hot row && (!job.registered row.connector && DueBefore row e)) < job.limit.toNat
  schedules : ∀ row ∈ w.effects.rows, job.hot row → DueBefore row e → Schedules (job.one row) row
  retries : ∀ row ∈ w.effects.rows, job.hot row → DueBefore row e → ∀ nextAt, rescheduled (job.one row) row = some nextAt →
    0 < nextAt → e.nextDispatchAtMs < nextAt
  forward : ∀ row, job.listAt ≤ job.claimAt row

/-- A window of due effects without a connector comes before `e`, and the server's clock does not go back. -/
structure OutboxJob.IsBehind (job : OutboxJob) (e : EffectRecord) (w : World) : Prop where
  full : job.limit.toNat ≤ w.effects.rows.countP fun row =>
    job.hot row && (!job.registered row.connector && (DueBefore row e && !DueBefore e row))
  forward : ∀ row, job.listAt ≤ job.claimAt row

/-- Attempts that are to be made again can be scheduled, and are scheduled for later than `e`. -/
def OutboxJob.RetriesLater (job : OutboxJob) (e : EffectRecord) (w : World) : Prop :=
  ∀ row, w.effects.find? row.pk = some row → job.hot row → DueBefore row e → Schedules (job.one row) row ∧
    ∀ nextAt, rescheduled (job.one row) row = some nextAt → 0 < nextAt → e.nextDispatchAtMs < nextAt

theorem dispatchable_mono {first second : Int} (later : first ≤ second) (due : EffectStmt.dispatchable first e) :
    EffectStmt.dispatchable second e := by
  simp only [EffectStmt.dispatchable, Bool.and_eq_true, Bool.or_eq_true, decide_eq_true_eq] at due ⊢
  obtain ⟨⟨⟨isOpen, isOutbox⟩, isDue⟩, free⟩ := due
  exact ⟨⟨⟨isOpen, isOutbox⟩, isDue.trans later⟩, free.imp_right fun expired => expired.trans later⟩

theorem dispatchable_of_hot (isHot : job.hot e) : EffectStmt.dispatchable job.listAt e := by
  simp only [OutboxJob.hot, Bool.and_eq_true] at isHot
  exact isHot.1

theorem pending_of_hot (isHot : job.hot e) : e.status = EffectStatus.pending.code := by
  have due := dispatchable_of_hot isHot
  simp only [EffectStmt.dispatchable, Bool.and_eq_true, decide_eq_true_eq] at due
  exact due.1.1.1

/-- The row waits for a dispatch, and falls due no later than `e`. -/
def waitsFor (e row : EffectRecord) : Bool := row.status = EffectStatus.pending.code && DueBefore row e

theorem waitsFor_of_hot {row : EffectRecord} (isHot : job.hot row) (earlier : DueBefore row e) : waitsFor e row := by
  simp [waitsFor, pending_of_hot isHot, earlier]

/-- A row that was dispatched waits no longer, or not in front of `e`. -/
theorem settles_takesUp {row : EffectRecord} {left : World} (forward : ∀ row, job.listAt ≤ job.claimAt row)
    (registered : job.registered row.connector) (found : w.effects.find? row.pk = some row) (isHot : job.hot row)
    (taken : left = (tape.alone (dispatchOne (job.one row)).run w).2) : Settles (job.one row) row w left := by
  rw [taken]
  exact settles_dispatchOne registered (dispatchable_mono (forward row) (dispatchable_of_hot isHot)) found

theorem Settles.moved {row : EffectRecord} {left : World} (settles : Settles (job.one row) row w left)
    (later : Schedules (job.one row) row ∧
      ∀ nextAt, rescheduled (job.one row) row = some nextAt → 0 < nextAt → e.nextDispatchAtMs < nextAt) :
    ∃ new, left.effects.find? row.pk = some new ∧ waitsFor e new = false ∧ Attempted row new := by
  obtain ⟨new, isNew, attempted, schedule⟩ := settles.recorded later.1
  refine ⟨new, isNew, ?_, attempted⟩
  by_cases isOpen : new.status = EffectStatus.pending.code
  · obtain ⟨nextAt, isScheduled, positive, isNext⟩ := schedule isOpen
    have behind := later.2 nextAt isScheduled positive
    have notBefore : ¬ DueBefore new e := by
      unfold DueBefore
      omega
    simp [waitsFor, notBefore]
  · simp [waitsFor, isOpen]

theorem serves_outbox (forward : ∀ row, job.listAt ≤ job.claimAt row) :
    Serves World.effects DueBefore e job.takesUp job.hot (fun row => !job.registered row.connector) (waitsFor e)
      (job.RetriesLater e) Attempted where
  waiting r isHot earlier := waitsFor_of_hot isHot earlier
  others r w w' goesOn taken found isHot k ne := by
    cases registered : job.registered r.connector with
    | false =>
      obtain ⟨rfl, -⟩ := taken
      rw [dispatchOne_skips registered]
    | true => exact (settles_takesUp forward registered found isHot taken.1).others k ne
  fits r w w' goesOn taken found isHot earlier later := by
    cases registered : job.registered r.connector with
    | false =>
      obtain ⟨rfl, -⟩ := taken
      rw [dispatchOne_skips registered]
      exact later
    | true =>
      have settles := settles_takesUp forward registered found isHot taken.1
      obtain ⟨new, isNew, moved, -⟩ := settles.moved (later r found isHot earlier)
      intro row isRow isHot' earlier'
      by_cases own : row.pk = r.pk
      · -- the row that was dispatched is out of the way
        obtain rfl : row = new := Option.some.inj ((own ▸ isRow).symm.trans isNew)
        rw [waitsFor_of_hot isHot' earlier'] at moved
        cases moved
      · exact later row ((settles.others _ own).symm.trans isRow) isHot' earlier'
  skips r w w' goesOn taken unregistered := by
    obtain ⟨rfl, isOn⟩ := taken
    rw [dispatchOne_skips (by simpa using unregistered)]
    exact ⟨isOn, rfl⟩
  serves r w w' goesOn taken found isHot earlier registered later :=
    (settles_takesUp forward (by simpa using registered) found isHot taken.1).moved (later r found isHot earlier)

/-- A pass that gets to a due effect dispatches it, or leaves fewer effects that wait in front of it. -/
theorem outbox_tick (some_ : 1 ≤ job.limit) (registered : job.registered e.connector) (isHot : job.hot e)
    (getsTo : job.GetsTo e w) (found : w.effects.find? e.pk = some e) :
    (∃ new, (outboxTick w job).effects.find? e.pk = some new ∧ Attempted e new) ∨
      ((outboxTick w job).effects.find? e.pk = some e ∧
        (outboxTick w job).effects.count (waitsFor e) < w.effects.count (waitsFor e)) := by
  have pass := pass_dispatchAll job (window DueBefore job.limit.toNat (w.effects.rows.filter job.hot)) w
  have free : (!job.registered e.connector) = false := by simp [registered]
  have later : job.RetriesLater e w := fun row isRow isHot earlier =>
    ⟨getsTo.schedules row (Table.mem_of_find? isRow) isHot earlier, getsTo.retries row (Table.mem_of_find? isRow) isHot earlier⟩
  rw [outboxTick_eq some_]
  exact (serves_outbox getsTo.forward).tick pass found isHot free later getsTo.few

/-- A due effect whose connector is registered is dispatched within as many passes as there are effects, if the passes
    get to it. -/
theorem dispatched_within {jobs : List OutboxJob} (found : w.effects.find? e.pk = some e)
    (along : Along outboxTick (fun w job => 1 ≤ job.limit ∧ job.registered e.connector ∧ job.hot e ∧ job.GetsTo e w) w jobs)
    (enough : w.effects.rows.length ≤ jobs.length) :
    ∃ earlier job later, jobs = earlier ++ job :: later ∧
      ∃ new, (outboxTick (run outboxTick w earlier) job).effects.find? e.pk = some new ∧ Attempted e new := by
  cases jobs with
  | nil =>
    have none_ : w.effects.rows = [] := List.eq_nil_of_length_eq_zero (Nat.le_zero.mp enough)
    have member := Table.mem_of_find? found
    rw [none_] at member
    cases member
  | cons job jobs =>
    have waits : waitsFor e e := waitsFor_of_hot along.1.2.2.1 (.inr ⟨rfl, Int.le_refl _⟩)
    exact served_within World.effects waits
      (fun _ _ ok there => outbox_tick ok.1 ok.2.1 ok.2.2.1 ok.2.2.2 there) found along enough

/-- A pass does not get to an effect that is behind. -/
theorem starved_outboxTick (some_ : 1 ≤ job.limit) (behind : job.IsBehind e w) (found : w.effects.find? e.pk = some e) :
    (outboxTick w job).effects.find? e.pk = some e := by
  have pass := pass_dispatchAll job (window DueBefore job.limit.toNat (w.effects.rows.filter job.hot)) w
  rw [outboxTick_eq some_]
  exact (serves_outbox behind.forward).starved pass found behind.full

/-- An effect that each pass finds behind a window of others that it skips stays as it is. -/
theorem undispatched {jobs : List OutboxJob} (found : w.effects.find? e.pk = some e)
    (along : Along outboxTick (fun w job => 1 ≤ job.limit ∧ job.IsBehind e w) w jobs) :
    (run outboxTick w jobs).effects.find? e.pk = some e :=
  run_invariant (I := fun w : World => w.effects.find? e.pk = some e)
    (fun _ _ there ok => starved_outboxTick ok.1 ok.2 there) found along

end Dispatcher

end Tape.Sdk
