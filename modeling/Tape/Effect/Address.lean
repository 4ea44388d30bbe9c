import Tape.Rules

/-! # Addressing the effect that was begun

A caller of `begin_effect` goes on with its own run id and the key it was returned: the
response carries no run id, and `get_effect`, `complete_effect` and `register_compensation`
are all keyed by the two.  The row found under the request's own key is the run's, and so is
a row inserted; the row found under the business key is whosever it is.
-/

namespace Tape.Effect

open Sql Interleave

/-- The row that `begin_effect` finds under the request's business key, if it looks for one. -/
def businessKeyOwner (r : RunStore.EffectRequest) (w : World) : Option EffectRecord :=
  if r.businessKey.isEmpty then none
  else w.effects.rows.find? fun row => row.connector = r.connector && row.businessKey = r.businessKey

/-- The run has an effect under the request's key, or the business key is nobody else's. -/
def addressable (r : RunStore.EffectRequest) (w : World) : Bool :=
  (w.effects.find? (r.runId, r.key)).isSome || (businessKeyOwner r w).all fun row => row.runId = r.runId

section Alone

variable {r : RunStore.EffectRequest} {ts : Int} {w w' : World} {e : EffectRecord}

/-- A row that was inserted and journaled is the run's, under the request's key. -/
theorem found_of_inserted {row : EffectRecord} {seq : Int} {payload : Json}
    (done : tape.alone (do
        (EffectStmt.insertEffect row).query
        RunStore.journal r.runId seq "effect" payload ts
        return row : StoreM EffectRecord).run w = (.ok e, w')) :
    e = row ∧ w'.effects.find? row.pk = some row := by
  obtain ⟨_, w₁, inserted, rest⟩ := alone_seq_ok done
  obtain ⟨_, w₂, journaled, returned⟩ := alone_seq_ok rest
  have left : (insertRow "tape_effects" w.effects (EffectStmt.sameBusinessKey row) row).1 = .ok () :=
    congrArg Prod.fst inserted
  have isRow := (find?_insertRow_of_ok left).2
  have afterInsert : w₁.effects = (insertRow "tape_effects" w.effects (EffectStmt.sameBusinessKey row) row).2 :=
    (congrArg (fun out => out.2.effects) inserted).symm
  have afterJournal : w₂.effects = w₁.effects := (congrArg (fun out => out.2.effects) journaled).symm
  cases returned
  exact ⟨rfl, by rw [afterJournal, afterInsert, isRow]⟩

theorem claimed_eq {other : Option EffectRecord} (connected : r.businessKey.isEmpty ∨ ¬r.connector.isEmpty)
    (asked : tape.alone (RunStore.admitEffect.claimed r).run w = (.ok other, w')) :
    other = businessKeyOwner r w ∧ w' = w := by
  unfold RunStore.admitEffect.claimed at asked
  unfold businessKeyOwner
  by_cases unkeyed : r.businessKey.isEmpty
  · simp only [unkeyed, Bool.not_true, Bool.false_and, Bool.false_eq_true] at asked
    cases asked
    exact ⟨(if_pos unkeyed).symm, rfl⟩
  · have routed := connected.resolve_left unkeyed
    simp only [unkeyed, routed, Bool.not_false, Bool.and_self] at asked
    cases asked
    exact ⟨(if_neg unkeyed).symm, rfl⟩

/-- The three ways in which `begin_effect` comes by the row it returns. -/
theorem admitted_cases (connected : r.businessKey.isEmpty ∨ ¬r.connector.isEmpty)
    (admitted : tape.alone (RunStore.admitEffect r ts).run w = (.ok e, w')) :
    w.effects.find? (r.runId, r.key) = some e ∧ w' = w ∨
      w.effects.find? (r.runId, r.key) = none ∧ businessKeyOwner r w = some e ∧ w' = w ∨
      w.effects.find? (r.runId, r.key) = none ∧ businessKeyOwner r w = none ∧
        e.idempotencyKey = r.key ∧ w'.effects.find? (r.runId, r.key) = some e := by
  obtain ⟨own, w₁, looked, rest⟩ := alone_seq_ok admitted
  obtain ⟨rfl, rfl⟩ : own = w.effects.find? (r.runId, r.key) ∧ w₁ = w := by
    cases looked
    exact ⟨rfl, rfl⟩
  cases found : w₁.effects.find? (r.runId, r.key) with
  | some recorded =>
    rw [found] at rest
    cases rest
    exact .inl ⟨rfl, rfl⟩
  | none =>
    rw [found] at rest
    obtain ⟨other, w₂, asked, rest⟩ := alone_seq_ok rest
    obtain ⟨rfl, rfl⟩ := claimed_eq connected asked
    cases claimed : businessKeyOwner r w₂ with
    | some other =>
      rw [claimed] at rest
      cases rest
      exact .inr (.inl ⟨rfl, rfl, rfl⟩)
    | none =>
      rw [claimed] at rest
      obtain ⟨seq, w₃, drawn, rest⟩ := alone_seq_ok rest
      obtain ⟨rfl, isRow⟩ := found_of_inserted rest
      exact .inr (.inr ⟨rfl, rfl, rfl, isRow⟩)

theorem all_runScopesFor (server : Nat) (runId : String) :
    (RunStore.runScopesFor server runId).run.All fun act => ∀ w, (act.exec w).2.effects = w.effects := by
  refine .exceptBind (all_access fun _ => rfl) fun cached => ?_
  cases cached with
  | some scopes => exact trivial
  | none => exact .exceptBind (all_query fun _ => rfl) fun _ => .exceptBind (all_access fun _ => rfl) fun _ => trivial

/-- Every success of `begin_effect` is an admission, on the same effects. -/
theorem admitted_of_begun {server : Nat}
    (begun : tape.alone (RunStore.beginEffect server r ts).run w = (.ok e, w')) :
    (r.businessKey.isEmpty ∨ ¬r.connector.isEmpty) ∧
      ∃ w₁, w₁.effects = w.effects ∧ tape.alone (RunStore.admitEffect r ts).run w₁ = (.ok e, w') := by
  unfold RunStore.beginEffect at begun
  split at begun
  · cases begun
  split at begun
  · cases begun
  split at begun
  · cases begun
  next routed =>
    have connected : r.businessKey.isEmpty ∨ ¬r.connector.isEmpty := by
      simp only [Bool.and_eq_true, Bool.not_eq_true', not_and] at routed
      by_cases unkeyed : r.businessKey.isEmpty
      · exact .inl unkeyed
      · exact .inr (routed (Bool.eq_false_iff.mpr unkeyed))
    refine ⟨connected, ?_⟩
    split at begun
    · exact ⟨w, rfl, begun⟩
    · obtain ⟨granted, w₁, read, rest⟩ := alone_seq_ok begun
      have same : w₁.effects = w.effects := by
        have kept := System.alone_of_all (S := tape) (I := fun w₁ => w₁.effects = w.effects)
          (fun _ _ keeps same => (keeps _).trans same) (all_runScopesFor server r.runId) (s := w) rfl
        rwa [read] at kept
      split at rest
      · exact ⟨w₁, same, rest⟩
      · -- a denial is never a success
        obtain ⟨_, _, _, rest⟩ := alone_seq_ok rest
        obtain ⟨_, _, _, rest⟩ := alone_seq_ok rest
        cases rest

end Alone

/-- **A begun effect is addressable.**  When `begin_effect` has returned an effect, `get_effect` with the
    caller's run id and the returned key returns it, if and only if the run had an effect under the
    request's key before, or the request's business key was not another run's. -/
theorem begun_effect_addressable_iff {server : Nat} {r : RunStore.EffectRequest} {ts : Int} {w w' : World} {e : EffectRecord}
    (begun : tape.alone (RunStore.beginEffect server r ts).run w = (.ok e, w')) :
    (tape.alone (RunStore.getEffect r.runId e.idempotencyKey).run w').1 = .ok (some e) ↔ addressable r w := by
  obtain ⟨connected, w₁, same, admitted⟩ := admitted_of_begun begun
  have asked : (tape.alone (RunStore.getEffect r.runId e.idempotencyKey).run w').1 =
      .ok (w'.effects.find? (r.runId, e.idempotencyKey)) := rfl
  rw [asked, Except.ok.injEq]
  rcases admitted_cases connected admitted with ⟨own, rfl⟩ | ⟨absent, claimed, rfl⟩ | ⟨absent, free, sameKey, isRow⟩
  · have sameKey : e.pk = (r.runId, r.key) := Table.key_of_find? own
    have isKey : e.idempotencyKey = r.key := congrArg Prod.snd sameKey
    rw [isKey, own]
    simp [addressable, ← same, own]
  · have listed : e ∈ w'.effects.rows := by
      unfold businessKeyOwner at claimed
      split at claimed
      · cases claimed
      · exact List.mem_of_find?_eq_some claimed
    have owner : businessKeyOwner r w = some e := by
      rw [← claimed, businessKeyOwner, businessKeyOwner, same]
    simp only [addressable, ← same, absent, owner, Option.isSome_none, Bool.false_or, Option.all_some, decide_eq_true_eq]
    constructor
    · intro found
      have sameKey : e.pk = (r.runId, e.idempotencyKey) := Table.key_of_find? found
      exact congrArg Prod.fst sameKey
    · intro sameRun
      rw [← sameRun]
      exact Table.find?_key_of_mem listed
  · have owner : businessKeyOwner r w = none := by
      rw [← free, businessKeyOwner, businessKeyOwner, same]
    rw [sameKey, isRow]
    simp [addressable, owner]

/-! ## Two runs and one business key -/

/-- A wire of 1000 from the account, as the run's `callIndex`-th call. -/
def wire (runId : String) (callIndex : Int := 0) : RunStore.EffectRequest where
  runId := runId
  toolName := "wire"
  callIndex := callIndex
  dispatchMode := EffectDispatchMode.outbox.code
  businessKey := "acct:1000"
  connector := "bank.wire"

/-- Two runs, of which the first has begun the wire. -/
def wiredByFirst : World :=
  (tape.run (quiet (World.empty .sqlite)) (serve 0 (.beginRun 0 "app" "user" "s" "inv-1" {} "A" 60000 1 "r1") ++
    serve 1 (.beginRun 0 "app" "user" "s" "inv-2" {} "B" 60000 2 "r2") ++
    serve 2 (.beginEffect 0 (wire "r1") 10))).state

/-- Whose effect `begin_effect` returns, and what `get_effect` and `complete_effect` then find under the
    caller's run and the returned key. -/
def addressedBy (r : RunStore.EffectRequest) (w : World) : Option (String × Option EffectRecord × Option EffectRecord) :=
  match tape.alone (RunStore.beginEffect 0 r 20).run w with
  | (.ok e, w') =>
    match (tape.alone (RunStore.getEffect r.runId e.idempotencyKey).run w').1,
        (tape.alone (RunStore.completeEffect r.runId e.idempotencyKey EffectStatus.confirmed.code "{}" "" 30).run w').1 with
    | .ok found, .ok completed => some (e.runId, found, completed)
    | _, _ => none
  | _ => none

/-- The second run is handed the first run's effect, and can neither get nor complete it. -/
theorem begun_effect_not_found : addressedBy (wire "r2") wiredByFirst = some ("r1", none, none) := by
  decide +kernel

/-- The first run, calling the tool again, is handed its own effect. -/
theorem begun_again_found : ∃ e w', tape.alone (RunStore.beginEffect 0 (wire "r1" 1) 20).run wiredByFirst = (.ok e, w') ∧
    (tape.alone (RunStore.getEffect "r1" e.idempotencyKey).run w').1 = .ok (some e) := by
  have succeeds : (tape.alone (RunStore.beginEffect 0 (wire "r1" 1) 20).run wiredByFirst).1.toBool := by decide +kernel
  cases begun : tape.alone (RunStore.beginEffect 0 (wire "r1" 1) 20).run wiredByFirst with
  | mk result w' =>
    cases result with
    | error e => simp [begun, Except.toBool] at succeeds
    | ok e => exact ⟨e, w', rfl, (begun_effect_addressable_iff begun).mpr (by decide +kernel)⟩

end Tape.Effect
