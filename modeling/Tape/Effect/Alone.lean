import Tape.Effect.Address

/-! # The effects after a method that ran alone

A ledger method reads its effect, issues at most one statement that writes it, and journals.  Where
nobody else runs, what it leaves of the effects is what that one statement leaves.
-/

namespace Tape.Effect

open Sql Interleave

variable {α : Type} {w : World} {runId key : String} {ts : Int}

theorem effects_alone_of_all {program : Prog Act Act.Res α}
    (all : program.All fun act => ∀ w, (act.exec w).2.effects = w.effects) (w : World) :
    (tape.alone program w).2.effects = w.effects :=
  System.alone_of_all (S := tape) (I := fun w' => w'.effects = w.effects) (fun _ _ keeps same => (keeps _).trans same) all rfl

theorem housekeeping_keeps_effects (act : Act) (housekeeping : Housekeeping act) (w : World) :
    (act.exec w).2.effects = w.effects := by
  cases housekeeping <;> rfl

/-- The effects after a statement and whatever else does not touch them. -/
theorem effects_alone_query {s : EffectStmt} {f : s.Res → StoreM α} {value : s.Res} (answer : (s.exec w).1 = .ok value)
    (rest : (f value).run.All fun act => ∀ w, (act.exec w).2.effects = w.effects) :
    (tape.alone (s.query >>= f).run w).2.effects = (s.exec w).2 := by
  have first := alone_query (s := .effect s) (f := f) (w := w) answer
  exact (congrArg (fun out => out.2.effects) first).trans (effects_alone_of_all rest _)

theorem alone_getEffect (runId key : String) (f : Option EffectRecord → StoreM α) (w : World) :
    tape.alone (RunStore.getEffect runId key >>= f).run w = tape.alone (f (w.effects.find? (runId, key))).run w :=
  alone_query (s := .effect (.getEffect runId key)) rfl

theorem effects_completeEffect (status : Int) (responseJson errorJson : String) :
    (tape.alone (RunStore.completeEffect runId key status responseJson errorJson ts).run w).2.effects =
      if (w.effects.find? (runId, key)).any fun row => row.status = EffectStatus.pending.code then
        ((EffectStmt.setOutcome runId key status responseJson errorJson ts).exec w).2
      else w.effects := by
  rw [RunStore.completeEffect, alone_getEffect]
  cases found : w.effects.find? (runId, key) with
  | none => rfl
  | some existing =>
    by_cases pending : existing.status = EffectStatus.pending.code
    · simp only [Option.any_some, pending, decide_true, if_true, ne_eq, not_true_eq_false, if_false]
      exact effects_alone_query rfl (all_journaled housekeeping_keeps_effects trivial fun _ => by constructor)
    · simp only [Option.any_some, pending, decide_false, Bool.false_eq_true, if_false, ne_eq, not_false_eq_true, if_true]
      rfl

theorem alone_claimEffectDispatch (claimer : String) (leaseTtlMs nowMs clock : Int) :
    let now := RunStore.claimTime nowMs clock
    let s := EffectStmt.claimDispatch runId key claimer (addI64 now (RunStore.claimTtl leaseTtlMs)) now
    tape.alone (RunStore.claimEffectDispatch runId key claimer leaseTtlMs nowMs clock).run w =
      (.ok (0 < w.effects.count s.selects, (s.exec w).2.find? (runId, key)), { w with effects := (s.exec w).2 }) := rfl

theorem effects_recordDispatchAttempt (error : String) (nextDispatchAtMs : Int) :
    (tape.alone (RunStore.recordDispatchAttempt runId key error nextDispatchAtMs ts).run w).2.effects =
      match w.effects.find? (runId, key) with
      | none => w.effects
      | some existing =>
        ((EffectStmt.recordAttempt runId key (attemptStatus nextDispatchAtMs) (existing.dispatchAttempts + 1) error
          (if nextDispatchAtMs ≤ 0 then 0 else nextDispatchAtMs) ts).exec w).2 := by
  rw [RunStore.recordDispatchAttempt, alone_getEffect]
  cases found : w.effects.find? (runId, key) with
  | none => rfl
  | some existing =>
    refine effects_alone_query rfl (all_journaled housekeeping_keeps_effects ?_ fun _ => by constructor)
    exact all_query fun _ => rfl

/-- When an observation makes the effect due. -/
def observedDispatch (resolution : Int) (existing : EffectRecord) (ts : Int) : Int :=
  if resolution = EffectResolution.absent.code && existing.semantics = EffectSemantics.idempotent.code then ts
  else existing.nextDispatchAtMs

theorem effects_recordExternalObservation (resolution : Int) (externalRef responseJson errorJson kind : String)
    (registerTs : Int) :
    (tape.alone (RunStore.recordExternalObservation runId key resolution externalRef responseJson errorJson kind ts
      registerTs).run w).2.effects =
      match w.effects.find? (runId, key) with
      | none => w.effects
      | some existing =>
        ((EffectStmt.recordObservation runId key (RunStore.observedStatus resolution existing) responseJson errorJson
          externalRef (observedDispatch resolution existing ts) ts).exec w).2 := by
  rw [RunStore.recordExternalObservation, alone_getEffect]
  cases found : w.effects.find? (runId, key) with
  | none => rfl
  | some existing =>
    refine effects_alone_query rfl (all_journaled housekeeping_keeps_effects ?_ fun _ => by constructor)
    split
    · exact .exceptBind (all_registerCompensation housekeeping_keeps_effects (fun _ => rfl) fun _ _ => rfl) fun _ =>
        all_query fun _ => rfl
    · exact all_query fun _ => rfl

/-! ## The rows one by one -/

/-- An `UPDATE` goes over the rows. -/
theorem find?_exec {s : EffectStmt} (updates : ∀ row, s ≠ .insertEffect row) (w : World) (pk : String × String) :
    (s.exec w).2.find? pk = (w.effects.find? pk).map s.apply := by
  cases found : w.effects.find? pk with
  | some row => exact EffectStmt.find?_exec_of_some found
  | none =>
    cases after : (s.exec w).2.find? pk with
    | none => rfl
    | some row => exact absurd (EffectStmt.insert_of_find?_exec found after).1 (updates row)

/-- A method that reads the row of its key and writes it with a statement of its own. -/
theorem find?_written {t : Table EffectRecord.pk} (s : EffectRecord → EffectStmt)
    (updates : ∀ existing row, s existing ≠ .insertEffect row)
    (selects : ∀ existing row, (s existing).selects row = decide (row.pk = (runId, key)))
    (written : t = match w.effects.find? (runId, key) with
      | none => w.effects
      | some existing => ((s existing).exec w).2) (pk : String × String) :
    t.find? pk = (w.effects.find? pk).map fun row => if row.pk = (runId, key) then (s row).assign row else row := by
  rw [written]
  cases found : w.effects.find? pk with
  | none =>
    cases w.effects.find? (runId, key) with
    | none => exact found
    | some existing => exact (find?_exec (updates existing) w pk).trans (by rw [found]; rfl)
  | some row =>
    have isKey := Table.key_of_find? found
    by_cases own : row.pk = (runId, key)
    · obtain rfl : pk = (runId, key) := isKey.symm.trans own
      simp only [found, find?_exec (updates row), Option.map_some, EffectStmt.apply, selects, own, decide_true, if_true]
    · rw [Option.map_some, if_neg own]
      cases w.effects.find? (runId, key) with
      | none => exact found
      | some existing =>
        refine (find?_exec (updates existing) w pk).trans ?_
        simp only [found, Option.map_some, EffectStmt.apply, selects, own, decide_false, Bool.false_eq_true, if_false]

/-- The row after `complete_effect`. -/
def completed (runId key : String) (status : Int) (responseJson errorJson : String) (ts : Int) (row : EffectRecord) :
    EffectRecord :=
  if row.pk = (runId, key) ∧ row.status = EffectStatus.pending.code
  then { row with status, responseJson, errorJson, tsMs := ts } else row

/-- A method that writes the outcome of its effect where the row has it so. -/
theorem find?_setOutcome {t : Table EffectRecord.pk} {writes : EffectRecord → Bool} {status : Int}
    {responseJson errorJson : String}
    (written : t = if (w.effects.find? (runId, key)).any writes then
      ((EffectStmt.setOutcome runId key status responseJson errorJson ts).exec w).2 else w.effects) (pk : String × String) :
    t.find? pk = (w.effects.find? pk).map fun row =>
      if row.pk = (runId, key) ∧ writes row then { row with status, responseJson, errorJson, tsMs := ts } else row := by
  rw [written]
  have updated := find?_exec (s := .setOutcome runId key status responseJson errorJson ts) (fun _ same => by cases same) w pk
  cases found : w.effects.find? pk with
  | none =>
    split
    · rw [updated, found]
      rfl
    · exact found
  | some row =>
    have isKey := Table.key_of_find? found
    by_cases own : row.pk = (runId, key)
    · obtain rfl : pk = (runId, key) := isKey.symm.trans own
      cases isOpen : writes row with
      | true =>
        simp only [found, Option.any_some, isOpen, if_true, updated, Option.map_some, EffectStmt.apply,
          EffectStmt.selects, EffectStmt.assign, own, decide_true, and_self]
      | false =>
        simp only [found, Option.any_some, isOpen, Bool.false_eq_true, if_false, Option.map_some, and_false]
    · simp only [Option.map_some, own, false_and, if_false]
      split
      · simp only [updated, found, Option.map_some, EffectStmt.apply, EffectStmt.selects, own, decide_false,
          Bool.false_eq_true, if_false]
      · exact found

theorem find?_completeEffect (status : Int) (responseJson errorJson : String) (pk : String × String) :
    (tape.alone (RunStore.completeEffect runId key status responseJson errorJson ts).run w).2.effects.find? pk =
      (w.effects.find? pk).map (completed runId key status responseJson errorJson ts) := by
  refine (find?_setOutcome (effects_completeEffect status responseJson errorJson) pk).trans
    (congrArg (Option.map · _) (funext fun row => ?_))
  simp only [completed, decide_eq_true_eq]

theorem effects_reconcileEffect (status : Int) (responseJson errorJson : String) :
    (tape.alone (RunStore.reconcileEffect runId key status responseJson errorJson ts).run w).2.effects =
      if (w.effects.find? (runId, key)).any fun row =>
          !(row.status = EffectStatus.confirmed.code || row.status = EffectStatus.failed.code) then
        ((EffectStmt.setOutcome runId key status responseJson errorJson ts).exec w).2
      else w.effects := by
  rw [RunStore.reconcileEffect, alone_getEffect]
  cases found : w.effects.find? (runId, key) with
  | none => rfl
  | some existing =>
    cases settled : decide (existing.status = EffectStatus.confirmed.code) ||
      decide (existing.status = EffectStatus.failed.code) with
    | true =>
      simp only [Option.any_some, settled, Bool.not_true, Bool.false_eq_true, if_false, if_true]
      rfl
    | false =>
      simp only [Option.any_some, settled, Bool.not_false, if_true, Bool.false_eq_true, if_false]
      exact effects_alone_query rfl (all_journaled housekeeping_keeps_effects trivial fun _ => by constructor)

/-- The row after `reconcile_effect`. -/
def reconciled (runId key : String) (status : Int) (responseJson errorJson : String) (ts : Int) (row : EffectRecord) :
    EffectRecord :=
  if row.pk = (runId, key) ∧ !(row.status = EffectStatus.confirmed.code || row.status = EffectStatus.failed.code)
  then { row with status, responseJson, errorJson, tsMs := ts } else row

theorem find?_reconcileEffect (status : Int) (responseJson errorJson : String) (pk : String × String) :
    (tape.alone (RunStore.reconcileEffect runId key status responseJson errorJson ts).run w).2.effects.find? pk =
      (w.effects.find? pk).map (reconciled runId key status responseJson errorJson ts) :=
  find?_setOutcome (effects_reconcileEffect status responseJson errorJson) pk

/-- The row after `claim_effect_dispatch`. -/
def claimed (runId key claimer : String) (leaseTtlMs nowMs clock : Int) : EffectRecord → EffectRecord :=
  let now := RunStore.claimTime nowMs clock
  (EffectStmt.claimDispatch runId key claimer (addI64 now (RunStore.claimTtl leaseTtlMs)) now).apply

theorem find?_claimEffectDispatch (claimer : String) (leaseTtlMs nowMs clock : Int) (pk : String × String) :
    (tape.alone (RunStore.claimEffectDispatch runId key claimer leaseTtlMs nowMs clock).run w).2.effects.find? pk =
      (w.effects.find? pk).map (claimed runId key claimer leaseTtlMs nowMs clock) := by
  rw [alone_claimEffectDispatch]
  exact find?_exec (s := .claimDispatch ..) (fun _ same => by cases same) w pk

/-- The row after `record_dispatch_attempt`. -/
def attempted (runId key error : String) (nextDispatchAtMs ts : Int) (row : EffectRecord) : EffectRecord :=
  if row.pk = (runId, key) then
    (EffectStmt.recordAttempt runId key (attemptStatus nextDispatchAtMs) (row.dispatchAttempts + 1) error
      (if nextDispatchAtMs ≤ 0 then 0 else nextDispatchAtMs) ts).assign row
  else row

theorem find?_recordDispatchAttempt (error : String) (nextDispatchAtMs : Int) (pk : String × String) :
    (tape.alone (RunStore.recordDispatchAttempt runId key error nextDispatchAtMs ts).run w).2.effects.find? pk =
      (w.effects.find? pk).map (attempted runId key error nextDispatchAtMs ts) :=
  find?_written _ (fun _ _ same => by cases same) (fun _ _ => rfl) (effects_recordDispatchAttempt error nextDispatchAtMs) pk

/-- The row after `record_external_observation`. -/
def observed (runId key : String) (resolution : Int) (externalRef responseJson errorJson : String) (ts : Int)
    (row : EffectRecord) : EffectRecord :=
  if row.pk = (runId, key) then
    (EffectStmt.recordObservation runId key (RunStore.observedStatus resolution row) responseJson errorJson externalRef
      (observedDispatch resolution row ts) ts).assign row
  else row

theorem find?_recordExternalObservation (resolution : Int) (externalRef responseJson errorJson kind : String)
    (registerTs : Int) (pk : String × String) :
    (tape.alone (RunStore.recordExternalObservation runId key resolution externalRef responseJson errorJson kind ts
      registerTs).run w).2.effects.find? pk =
      (w.effects.find? pk).map (observed runId key resolution externalRef responseJson errorJson ts) :=
  find?_written _ (fun _ _ same => by cases same) (fun _ _ => rfl)
    (effects_recordExternalObservation resolution externalRef responseJson errorJson kind registerTs) pk

/-! ## Beginning an effect -/

/-- The scopes of the run, as `begin_effect` comes by them. -/
def grantedScopes (server : Nat) (runId : String) (w : World) : List String :=
  ((tape.alone (RunStore.runScopesFor server runId).run w).1.toOption).getD []

theorem alone_runScopesFor (server : Nat) (runId : String) (w : World) : ∃ w₁,
    tape.alone (RunStore.runScopesFor server runId).run w = (.ok (grantedScopes server runId w), w₁) ∧
      w₁.effects = w.effects := by
  have kept := effects_alone_of_all (all_runScopesFor server runId) w
  have answers : ∃ scopes, (tape.alone (RunStore.runScopesFor server runId).run w).1 = .ok scopes := by
    unfold RunStore.runScopesFor
    have looked : tape.alone (CacheOp.lookup server runId).access.run w =
        (.ok (tape.exec (.cache (.lookup server runId)) w).1, (tape.exec (.cache (.lookup server runId)) w).2) := rfl
    rw [alone_seq looked]
    cases (tape.exec (.cache (.lookup server runId)) w).1 with
    | some cached => exact ⟨cached, rfl⟩
    | none => exact ⟨_, rfl⟩
  obtain ⟨scopes, answer⟩ := answers
  exact ⟨_, Prod.ext (by rw [grantedScopes, answer]; rfl) rfl, kept⟩

/-- The request passes the checks of `begin_effect`. -/
def accepts (server : Nat) (r : RunStore.EffectRequest) (w : World) : Bool :=
  !(r.sem = EffectSemantics.nonIdempotent.code && r.dmode = EffectDispatchMode.inline.code) &&
    !(r.sem = EffectSemantics.nonIdempotent.code && r.scope.isEmpty) && !(!r.businessKey.isEmpty && r.connector.isEmpty) &&
      (r.scope.isEmpty || (grantedScopes server r.runId w).any (· = r.scope))

/-- An effect is inserted if neither its key nor its business key has one. -/
def inserts (r : RunStore.EffectRequest) (w : World) : Bool :=
  (w.effects.find? (r.runId, r.key)).isNone && (businessKeyOwner r w).isNone

theorem routed_of_accepts {server : Nat} {r : RunStore.EffectRequest} (accepted : accepts server r w) :
    r.businessKey = "" ∨ r.connector ≠ "" := by
  simp only [accepts, Bool.and_eq_true, Bool.not_eq_true', Bool.and_eq_false_imp] at accepted
  by_cases unkeyed : r.businessKey = ""
  · exact .inl unkeyed
  · exact .inr fun unrouted => by simpa [unkeyed, unrouted] using accepted.1.2

theorem inserts_eq_true {r : RunStore.EffectRequest} :
    inserts r w ↔ w.effects.find? (r.runId, r.key) = none ∧ businessKeyOwner r w = none := by
  simp [inserts]

/-- The row of an accepted request is in nobody's way. -/
theorem insertEffect_of_inserts {r : RunStore.EffectRequest} (inserted : inserts r w) (seq ts : Int) :
    ((EffectStmt.insertEffect (RunStore.freshEffect r seq ts)).exec w).1 = .ok () ∧
      ∀ pk, ((EffectStmt.insertEffect (RunStore.freshEffect r seq ts)).exec w).2.find? pk =
        if (r.runId, r.key) = pk then some (RunStore.freshEffect r seq ts) else w.effects.find? pk := by
  obtain ⟨absent, unowned⟩ := inserts_eq_true.mp inserted
  have clear : w.effects.rows.any (EffectStmt.sameBusinessKey (RunStore.freshEffect r seq ts)) = false := by
    simp only [businessKeyOwner] at unowned
    split at unowned
    next unkeyed => simp [EffectStmt.sameBusinessKey, RunStore.freshEffect, String.isEmpty_iff.mp unkeyed]
    next keyed =>
      simp only [List.find?_eq_none, Bool.and_eq_true, decide_eq_true_eq, not_and] at unowned
      simp only [List.any_eq_false, EffectStmt.sameBusinessKey, RunStore.freshEffect, Bool.and_eq_true, decide_eq_true_eq]
      rintro old member ⟨⟨_, sameConnector⟩, sameKey⟩
      exact unowned old member sameConnector.symm sameKey.symm
  obtain ⟨table, accepted⟩ := Option.isSome_iff_exists.mp (Table.insert_isSome_iff.mpr
    ⟨show w.effects.find? (RunStore.freshEffect r seq ts).pk = none from absent, clear⟩)
  simp only [EffectStmt.exec, insertRow, accepted, Table.find?_insert accepted]
  exact ⟨rfl, fun _ => rfl⟩

theorem alone_claimed {r : RunStore.EffectRequest} (connected : r.businessKey.isEmpty ∨ ¬ r.connector.isEmpty) (w : World) :
    tape.alone (RunStore.admitEffect.claimed r).run w = (.ok (businessKeyOwner r w), w) := by
  unfold RunStore.admitEffect.claimed businessKeyOwner
  by_cases unkeyed : r.businessKey.isEmpty
  · simp only [unkeyed, Bool.not_true, Bool.false_and, Bool.false_eq_true, if_true]
    rfl
  · simp only [unkeyed, connected.resolve_left unkeyed, Bool.not_false, Bool.and_self, Bool.false_eq_true, if_false]
    rfl

theorem find?_admitEffect {r : RunStore.EffectRequest} (connected : r.businessKey.isEmpty ∨ ¬ r.connector.isEmpty)
    (ts : Int) (w : World) : ∃ seq, ∀ pk,
      (tape.alone (RunStore.admitEffect r ts).run w).2.effects.find? pk =
        if inserts r w ∧ (r.runId, r.key) = pk then some (RunStore.freshEffect r seq ts) else w.effects.find? pk := by
  obtain ⟨seq, w₁, drawn, kept⟩ : ∃ seq w₁, tape.alone (RunStore.nextSeq r.runId).run w = (.ok seq, w₁) ∧
    w₁.effects = w.effects := ⟨_, _, rfl, rfl⟩
  refine ⟨seq, fun pk => ?_⟩
  rw [RunStore.admitEffect, alone_getEffect]
  cases found : w.effects.find? (r.runId, r.key) with
  | some recorded => simp [inserts, found]; rfl
  | none =>
    simp only
    rw [alone_seq (alone_claimed connected w)]
    cases owned : businessKeyOwner r w with
    | some owner => simp [inserts, owned]; rfl
    | none =>
      have inserted : inserts r w := inserts_eq_true.mpr ⟨found, owned⟩
      simp only
      rw [alone_seq drawn]
      have inserted₁ : inserts r w₁ := by
        rwa [inserts, businessKeyOwner, kept]
      obtain ⟨accepted, isTable⟩ := insertEffect_of_inserts inserted₁ seq ts
      -- whether the journal takes the entry makes no difference to the effects
      refine (congrArg (fun t => Table.find? t pk)
        (effects_alone_query (s := .insertEffect (RunStore.freshEffect r seq ts)) accepted ?_)).trans ?_
      · exact .exceptBind (all_journal housekeeping_keeps_effects _ _ _ _ _ (by constructor)) fun _ => trivial
      · simp [isTable, kept, inserted]

/-- The effects after `begin_effect`: those before it, and the new one if the request is accepted. -/
theorem find?_beginEffect (server : Nat) (r : RunStore.EffectRequest) (ts : Int) (w : World) : ∃ seq, ∀ pk,
    (tape.alone (RunStore.beginEffect server r ts).run w).2.effects.find? pk =
      if (accepts server r w ∧ inserts r w) ∧ (r.runId, r.key) = pk then some (RunStore.freshEffect r seq ts)
      else w.effects.find? pk := by
  unfold RunStore.beginEffect accepts
  by_cases unscheduled : (r.sem = EffectSemantics.nonIdempotent.code && r.dmode = EffectDispatchMode.inline.code) = true
  · simp only [unscheduled]
    exact ⟨0, fun pk => by simp; rfl⟩
  by_cases unscoped : (r.sem = EffectSemantics.nonIdempotent.code && r.scope.isEmpty) = true
  · simp only [if_neg unscheduled, unscoped]
    exact ⟨0, fun pk => by simp; rfl⟩
  by_cases unrouted : (!r.businessKey.isEmpty && r.connector.isEmpty) = true
  · simp only [if_neg unscheduled, if_neg unscoped, unrouted]
    exact ⟨0, fun pk => by simp; rfl⟩
  have connected : r.businessKey.isEmpty ∨ ¬ r.connector.isEmpty := by
    simp only [Bool.and_eq_true, Bool.not_eq_true', not_and] at unrouted
    by_cases unkeyed : r.businessKey.isEmpty
    · exact .inl unkeyed
    · exact .inr (unrouted (Bool.eq_false_iff.mpr unkeyed))
  simp only [Bool.eq_false_iff.mpr unscheduled, Bool.eq_false_iff.mpr unscoped, Bool.eq_false_iff.mpr unrouted,
    Bool.not_false, Bool.true_and]
  by_cases open_ : r.scope.isEmpty
  · obtain ⟨seq, admitted⟩ := find?_admitEffect connected ts w
    exact ⟨seq, fun pk => by simp [open_, admitted]⟩
  · obtain ⟨w₁, read, kept⟩ := alone_runScopesFor server r.runId w
    simp only [open_, Bool.false_or, Bool.false_eq_true, if_false, alone_seq read]
    by_cases granted : (grantedScopes server r.runId w).any (· = r.scope)
    · obtain ⟨seq, admitted⟩ := find?_admitEffect connected ts w₁
      have same : inserts r w₁ = inserts r w := by
        rw [inserts, businessKeyOwner, kept]
        rfl
      exact ⟨seq, fun pk => by simp only [granted, if_true, admitted, same, kept, true_and]⟩
    · -- a refusal draws a number and journals the violation
      refine ⟨0, fun pk => ?_⟩
      rw [if_neg granted, if_neg fun all => granted all.1.1, ← kept]
      refine congrArg (fun t => Table.find? t pk) (effects_alone_of_all ?_ w₁)
      exact .exceptBind (all_nextSeq housekeeping_keeps_effects _) fun _ => .exceptBind
        (all_orElse (all_journal housekeeping_keeps_effects _ _ _ _ _ (by constructor))) fun _ => trivial

end Tape.Effect
