import Tape.Effect.Alone
import Tape.Sql.Poll

/-! # Effects behind others in the reactors' windows

The reconciler and the outbox dispatcher of the SDK against `SqlRunStore`, with no other process at
work.  A tick of the reconciler reads the 500 oldest effects and skips those that nothing is known
about; a tick of the dispatcher reads the first `limit` due effects and skips those whose connector is
not registered.  The effect is written before the journal, so an RPC that fails on the journal has
written its effect.
-/

namespace Tape

open Sql Interleave Tape.Sequential

namespace Sdk

/-! ## What an RPC leaves -/

section Rpc

variable {α β : Type}

theorem left_rpcFound (method : StoreM (Option α)) (absent : Status) (w : World) :
    (tape.alone (rpcFound method absent).run w).2 = (tape.alone method.run w).2 := by
  refine (congrArg Prod.snd (tape.alone_bind method.run _ w)).trans ?_
  rcases (tape.alone method.run w).1 with e | (_ | value) <;> rfl

theorem left_rpc (method : StoreM α) (w : World) : (tape.alone (rpc method).run w).2 = (tape.alone method.run w).2 := by
  refine (congrArg Prod.snd (tape.alone_bind method.run _ w)).trans ?_
  cases (tape.alone method.run w).1 <;> rfl

/-- What a process leaves that ends after an action. -/
theorem left_last (action : SdkM α) (f : α → β) (w : World) :
    (tape.alone (do let value ← action; return f value : SdkM β).run w).2 = (tape.alone action.run w).2 := by
  cases done : tape.alone action.run w with
  | mk answer left =>
    cases answer with
    | error e => rw [System.alone_exceptBind_error tape done]
    | ok _ =>
      rw [System.alone_exceptBind tape done]
      rfl

theorem alone_external (x : External) (f : Unit → SdkM α) (w : World) :
    tape.alone (external x >>= f).run w = tape.alone (f ()).run w := rfl

end Rpc

/-! ## The reconciler -/

section Reconciler

variable {job : ReconcileJob} {e : EffectRecord} {w : World}

/-- The effects that a tick is after. -/
def ReconcileJob.hot (job : ReconcileJob) (e : EffectRecord) : Bool :=
  let older := if 0 < job.pendingAfterMs then job.sdkNow - job.pendingAfterMs else 0
  e.status = EffectStatus.unknown.code ||
    (e.status = (if 0 < job.pendingAfterMs then EffectStatus.pending.code else -1) && (older = 0 || e.tsMs < older))

/-- Nothing is to be had about the effect, or nothing that is recorded. -/
def ReconcileJob.silent (job : ReconcileJob) (e : EffectRecord) : Bool :=
  match job.observe e, job.check e with
  | some _, _ => false
  | none, none | none, some .raised => true
  | none, some (.found _) => false
  | none, some .absent => !(e.status = EffectStatus.unknown.code && e.semantics ≠ EffectSemantics.nonIdempotent.code)

abbrev Older (a b : EffectRecord) : Prop := a.tsMs ≤ b.tsMs

instance : Std.Total Older := ⟨fun a b => Int.le_total a.tsMs b.tsMs⟩

instance : IsTrans EffectRecord Older := ⟨fun _ _ _ => Int.le_trans⟩

/-- What the observation makes of the effect. -/
def Observation.recorded (o : Observation) (recordAt : Int) (e : EffectRecord) : EffectRecord :=
  let status := if o.status.isEmpty then "absent" else o.status
  Effect.observed e.runId e.idempotencyKey (statusStrToResolution status).code o.externalRef o.responseJson "" recordAt e

/-- An RPC that rewrites one effect and stamps it. -/
theorem rewritten {f : EffectRecord → EffectRecord} {left : World} (found : w.effects.find? e.pk = some e)
    (written : ∀ pk, left.effects.find? pk = (w.effects.find? pk).map f) (kept : ∀ row, row.pk ≠ e.pk → f row = row) :
    left.effects.find? e.pk = some (f e) ∧ ∀ pk, pk ≠ e.pk → left.effects.find? pk = w.effects.find? pk := by
  constructor
  · rw [written, found]
    rfl
  · intro pk ne
    rw [written]
    cases other : w.effects.find? pk with
    | none => rfl
    | some row => rw [Option.map_some, kept row (Table.key_of_find? other ▸ ne)]

/-- The body of the loop skips the effect. -/
theorem reconcileOne_silent (isSilent : job.silent e) (w : World) : tape.alone (reconcileOne job e).run w = (.ok (), w) := by
  unfold ReconcileJob.silent at isSilent
  unfold reconcileOne
  cases observed : job.observe e with
  | some o => simp [observed] at isSilent
  | none =>
    cases checked : job.check e with
    | none => rfl
    | some result =>
      cases result with
      | raised => rfl
      | found responseJson => simp [observed, checked] at isSilent
      | absent =>
        simp only [observed, checked, Bool.not_eq_true'] at isSilent
        simp only [alone_external, isSilent]
        rfl

/-- It records what was observed. -/
theorem reconcileOne_observed {o : Observation} (observed : job.observe e = some o) (found : w.effects.find? e.pk = some e) :
    let left := (tape.alone (reconcileOne job e).run w).2
    left.effects.find? e.pk = some (o.recorded (job.recordAt e) e) ∧
      ∀ pk, pk ≠ e.pk → left.effects.find? pk = w.effects.find? pk := by
  have records : ∀ resolution externalRef responseJson kind,
      let left := (tape.alone (RunStore.recordExternalObservation e.runId e.idempotencyKey resolution externalRef responseJson ""
        kind (job.recordAt e) (job.recordAt e)).run w).2
      left.effects.find? e.pk =
          some (Effect.observed e.runId e.idempotencyKey resolution externalRef responseJson "" (job.recordAt e) e) ∧
        ∀ pk, pk ≠ e.pk → left.effects.find? pk = w.effects.find? pk :=
    fun resolution externalRef responseJson kind =>
      rewritten found (Effect.find?_recordExternalObservation resolution externalRef responseJson "" kind (job.recordAt e))
        fun _ ne => if_neg ne
  simp only [reconcileOne, observed, alone_external]
  rw [left_last, Client.recordExternalObservation, left_rpcFound]
  exact records _ _ _ _

/-- Or it reconciles the effect with what the check says. -/
theorem reconcileOne_checked (unobserved : job.observe e = none) (speaks : job.silent e = false) (isHot : job.hot e)
    (found : w.effects.find? e.pk = some e) :
    let left := (tape.alone (reconcileOne job e).run w).2
    (∃ new, left.effects.find? e.pk = some new ∧ new.tsMs = job.recordAt e) ∧
      ∀ pk, pk ≠ e.pk → left.effects.find? pk = w.effects.find? pk := by
  have isOpen : (!(e.status = EffectStatus.confirmed.code || e.status = EffectStatus.failed.code)) = true := by
    have status : e.status = EffectStatus.unknown.code ∨ e.status = EffectStatus.pending.code ∨ e.status = -1 := by
      by_cases pending : 0 < job.pendingAfterMs <;> simp [ReconcileJob.hot, pending] at isHot <;> tauto
    simp only [Bool.not_eq_true', Bool.or_eq_false_iff, decide_eq_false_iff_not]
    simp only [EffectStatus.code] at status ⊢
    omega
  have reconciles : ∀ status responseJson errorJson,
      let left := (tape.alone (RunStore.reconcileEffect e.runId e.idempotencyKey status responseJson errorJson
        (job.recordAt e)).run w).2
      (∃ new, left.effects.find? e.pk = some new ∧ new.tsMs = job.recordAt e) ∧
        ∀ pk, pk ≠ e.pk → left.effects.find? pk = w.effects.find? pk := by
    intro status responseJson errorJson
    obtain ⟨isNew, others⟩ := rewritten found (Effect.find?_reconcileEffect status responseJson errorJson)
      fun row ne => if_neg fun both => ne both.1
    refine ⟨⟨_, isNew, ?_⟩, others⟩
    rw [Effect.reconciled, if_pos ⟨rfl, isOpen⟩]
  unfold ReconcileJob.silent at speaks
  simp only [reconcileOne, unobserved]
  cases checked : job.check e with
  | none => simp [unobserved, checked] at speaks
  | some result =>
    cases result with
    | raised => simp [unobserved, checked] at speaks
    | found responseJson =>
      simp only [alone_external]
      rw [left_last, Client.reconcileEffect, left_rpcFound]
      exact reconciles _ _ _
    | absent =>
      simp only [unobserved, checked, Bool.not_eq_false'] at speaks
      simp only [alone_external, speaks, if_true]
      rw [left_last, Client.reconcileEffect, left_rpcFound]
      exact reconciles _ _ _

/-- The body of the loop, and whether the tick goes on. -/
def ReconcileJob.takesUp (job : ReconcileJob) (e : EffectRecord) (w w' : World) (goesOn : Bool) : Prop :=
  ∃ answer, tape.alone (reconcileOne job e).run w = (answer, w') ∧ answer.isOk = goesOn

theorem pass_reconcileAll (job : ReconcileJob) (effects : List EffectRecord) (w : World) :
    Sql.Pass job.takesUp effects w (tape.alone (reconcileAll job effects).run w).2 := by
  induction effects generalizing w with
  | nil => exact .nil w
  | cons e effects inductionHypothesis =>
    cases one : tape.alone (reconcileOne job e).run w with
    | mk answer left =>
      cases answer with
      | error status =>
        rw [reconcileAll, System.alone_exceptBind_error tape one]
        exact .ends ⟨_, one, rfl⟩
      | ok value =>
        rw [reconcileAll, System.alone_exceptBind tape one]
        exact .next ⟨_, one, rfl⟩ (inductionHypothesis left)

/-- What a tick leaves. -/
def reconcileTick (w : World) (job : ReconcileJob) : World := (tape.alone (reconcileOnce job).run w).2

theorem reconcileTick_eq (w : World) (job : ReconcileJob) : reconcileTick w job =
    (tape.alone (reconcileAll job (window Older 500 (w.effects.rows.filter job.hot))).run w).2 := by
  have listed : tape.alone (Client.listPendingEffects (if 0 < job.pendingAfterMs then job.sdkNow - job.pendingAfterMs else 0)
      (0 < job.pendingAfterMs) true 500).run w = (.ok (window Older 500 (w.effects.rows.filter job.hot)), w) := by
    by_cases pending : 0 < job.pendingAfterMs
    · simp only [pending, decide_true, if_true]
      have isHot : job.hot = fun row => row.status = EffectStatus.unknown.code || (row.status = EffectStatus.pending.code &&
          (job.sdkNow - job.pendingAfterMs = 0 || row.tsMs < job.sdkNow - job.pendingAfterMs)) := by
        funext row
        simp [ReconcileJob.hot, pending]
      rw [isHot]
      rfl
    · simp only [pending, decide_false, if_false]
      have isHot : job.hot = fun row => row.status = EffectStatus.unknown.code ||
        (row.status = -1 && ((0 : Int) = 0 || row.tsMs < 0)) := by
        funext row
        simp [ReconcileJob.hot, pending]
      rw [isHot]
      rfl
  have isOlder : (if decide (0 < job.pendingAfterMs) = true then job.sdkNow - job.pendingAfterMs else 0) =
      if 0 < job.pendingAfterMs then job.sdkNow - job.pendingAfterMs else 0 := by simp
  rw [reconcileTick, reconcileOnce]
  simp only [isOlder]
  rw [System.alone_exceptBind tape listed]

/-- What is in front of `e` does not keep a tick from it: fewer effects that it skips are as old than it reads, and the
    clock has moved on since `e` was written. -/
structure ReconcileJob.GetsTo (job : ReconcileJob) (e : EffectRecord) (w : World) : Prop where
  few : (w.effects.rows.countP fun row => job.hot row && (job.silent row && row.tsMs ≤ e.tsMs)) < 500
  later : ∀ row, e.tsMs < job.recordAt row

/-- A window of effects that the tick skips is older than `e`, and the clock has moved on since `e` was written. -/
structure ReconcileJob.IsBehind (job : ReconcileJob) (e : EffectRecord) (w : World) : Prop where
  full : 500 ≤ w.effects.rows.countP fun row => job.hot row && (job.silent row && row.tsMs < e.tsMs)
  later : ∀ row, e.tsMs < job.recordAt row

/-- An observation of the effect was recorded. -/
def ReconcileJob.Observed (job : ReconcileJob) (old new : EffectRecord) : Prop :=
  ∃ o, job.observe old = some o ∧ new = o.recorded (job.recordAt old) old

theorem serves_takesUp (later : ∀ row, e.tsMs < job.recordAt row) :
    Serves World.effects Older e job.takesUp job.hot job.silent (fun row => row.tsMs ≤ e.tsMs) (fun _ => True)
      (fun old new => (job.observe old).isSome → job.Observed old new) where
  waiting r _ older := decide_eq_true older
  others r w w' goesOn taken found isHot k ne := by
    obtain ⟨answer, one, -⟩ := taken
    obtain rfl : (tape.alone (reconcileOne job r).run w).2 = w' := congrArg Prod.snd one
    cases isSilent : job.silent r with
    | true => rw [reconcileOne_silent isSilent]
    | false =>
      cases observed : job.observe r with
      | some o => exact (reconcileOne_observed observed found).2 k ne
      | none => exact (reconcileOne_checked observed isSilent isHot found).2 k ne
  fits _ _ _ _ _ _ _ _ _ := trivial
  skips r w w' goesOn taken isSilent := by
    obtain ⟨answer, one, rfl⟩ := taken
    rw [reconcileOne_silent isSilent] at one
    cases one
    exact ⟨rfl, rfl⟩
  serves r w w' goesOn taken found isHot older speaks _ := by
    obtain ⟨answer, one, -⟩ := taken
    obtain rfl : (tape.alone (reconcileOne job r).run w).2 = w' := congrArg Prod.snd one
    have moved := later r
    cases observed : job.observe r with
    | some o =>
      refine ⟨_, (reconcileOne_observed observed found).1, decide_eq_false ?_, fun _ => ⟨o, observed, rfl⟩⟩
      rw [Observation.recorded, Effect.observed, if_pos rfl]
      exact not_le.mpr moved
    | none =>
      obtain ⟨⟨new, isNew, stamped⟩, -⟩ := reconcileOne_checked observed speaks isHot found
      exact ⟨new, isNew, decide_eq_false (by omega), fun some_ => by simp at some_⟩

/-- A tick that gets to an `UNKNOWN` effect records what its connector observes, or leaves fewer effects that are as old. -/
theorem reconcile_tick (unknown : e.status = EffectStatus.unknown.code) (observes : (job.observe e).isSome)
    (getsTo : job.GetsTo e w) (found : w.effects.find? e.pk = some e) :
    (∃ new, (reconcileTick w job).effects.find? e.pk = some new ∧ job.Observed e new) ∨
      ((reconcileTick w job).effects.find? e.pk = some e ∧ (reconcileTick w job).effects.count (fun row => row.tsMs ≤ e.tsMs) <
        w.effects.count fun row => row.tsMs ≤ e.tsMs) := by
  have pass := pass_reconcileAll job (window Older 500 (w.effects.rows.filter job.hot)) w
  have isHot : job.hot e := by simp [ReconcileJob.hot, unknown]
  have speaks : job.silent e = false := by
    obtain ⟨o, observed⟩ := Option.isSome_iff_exists.mp observes
    simp [ReconcileJob.silent, observed]
  rw [reconcileTick_eq]
  cases (serves_takesUp getsTo.later).tick pass found isHot speaks trivial getsTo.few with
  | inl served =>
    obtain ⟨new, isNew, recorded⟩ := served
    exact .inl ⟨new, isNew, recorded observes⟩
  | inr waits => exact .inr waits

/-- A tick does not get to an effect that is behind. -/
theorem starved_reconcileTick (behind : job.IsBehind e w) (found : w.effects.find? e.pk = some e) :
    (reconcileTick w job).effects.find? e.pk = some e := by
  have pass := pass_reconcileAll job (window Older 500 (w.effects.rows.filter job.hot)) w
  rw [reconcileTick_eq]
  refine (serves_takesUp behind.later).starved pass found (behind.full.trans (List.countP_mono_left fun row _ => ?_))
  simp only [Bool.and_eq_true, Bool.not_eq_true', decide_eq_true_eq, decide_eq_false_iff_not]
  exact fun ⟨isHot, isSkipped, older⟩ => ⟨isHot, isSkipped, older.le, not_le.mpr older⟩

/-- An `UNKNOWN` effect whose connector answers is observed within as many ticks as there are effects, if the ticks get to it. -/
theorem observed_within {jobs : List ReconcileJob} (found : w.effects.find? e.pk = some e)
    (unknown : e.status = EffectStatus.unknown.code)
    (along : Along reconcileTick (fun w job => (job.observe e).isSome ∧ job.GetsTo e w) w jobs)
    (enough : w.effects.rows.length ≤ jobs.length) :
    ∃ earlier job later, jobs = earlier ++ job :: later ∧
      ∃ new, (reconcileTick (run reconcileTick w earlier) job).effects.find? e.pk = some new ∧ job.Observed e new := by
  have tick : ∀ w (job : ReconcileJob), ((job.observe e).isSome ∧ job.GetsTo e w) → w.effects.find? e.pk = some e →
      (∃ new, (reconcileTick w job).effects.find? e.pk = some new ∧ job.Observed e new) ∨
        ((reconcileTick w job).effects.find? e.pk = some e ∧
          (reconcileTick w job).effects.count (fun row => row.tsMs ≤ e.tsMs) < w.effects.count fun row => row.tsMs ≤ e.tsMs) :=
    fun w job ok there => reconcile_tick unknown ok.1 ok.2 there
  exact served_within World.effects (decide_eq_true (Int.le_refl e.tsMs)) tick found along enough

/-- An effect that each tick finds behind a window of others that it skips stays as it is. -/
theorem unobserved {jobs : List ReconcileJob} (found : w.effects.find? e.pk = some e)
    (along : Along reconcileTick (fun w job => job.IsBehind e w) w jobs) :
    (run reconcileTick w jobs).effects.find? e.pk = some e :=
  run_invariant (I := fun w : World => w.effects.find? e.pk = some e)
    (fun _ _ there behind => starved_reconcileTick behind there) found along

end Reconciler

end Sdk

end Tape
