import Tape.Embedded.Snapshot

/-! # Business identities

The constraint on `(connector, business_key)` sees the live rows.  A row that is deleted takes its
identity along: the snapshot has it, but `begin_effect` looks there under the session and the
idempotency key only.
-/

namespace Tape.Embedded

open Sql

inductive LifeCall where
  | retain (call : RetentionCall)
  | complete (session : SessionKey) (key : String) (status : EffectStatus) (responseJson errorJson : Json) (now : Int)

def LifeCall.serve (s : Store) : LifeCall → Store
  | retain call => call.serve s
  | complete session key status responseJson errorJson now =>
    leaves (completeEffect session key status responseJson errorJson now s) s

/-- The business identity of a row. -/
def hasIdentity (connector businessKey : String) (row : StorageEffect) : Bool :=
  row.connector = some connector && row.businessKey = some businessKey

/-- The call adds a row with the identity. -/
def LifeCall.Adds (connector businessKey : String) (s : Store) (call : LifeCall) : Prop :=
  ∃ session key row, (call.serve s).effect session key = some row ∧ hasIdentity connector businessKey row ∧
    s.effect session key = none

/-- A call that deletes the row finds it in the snapshot. -/
def LifeCall.CapturedFirst (session : SessionKey) (key : String) (s : Store) (call : LifeCall) : Prop :=
  (s.effect session key).isSome → (call.serve s).effect session key = none → (s.captured session key).isSome

instance (session : SessionKey) (key : String) (s : Store) (call : LifeCall) :
    Decidable (call.CapturedFirst session key s) :=
  inferInstanceAs (Decidable ((s.effect session key).isSome → (call.serve s).effect session key = none →
    (s.captured session key).isSome))

/-- A request for the identity is refused, or it is for a key that is known, or for the one the
    identity was first recorded under, or a live row has the identity. -/
def LifeCall.Recognised (session : SessionKey) (key connector businessKey : String) (s : Store) : LifeCall → Prop
  | .retain (.begin_ r now) => hasIdentity connector businessKey (r.freshRow now) →
    r.refusal.isSome ∨ (r.session, r.key) = (session, key) ∨ (s.effect r.session r.key).isSome ∨
      (s.captured r.session r.key).isSome ∨ s.effects.rows.any (hasIdentity connector businessKey)
  | _ => True

variable {s : Store} {session session' : SessionKey} {key key' connector businessKey : String} {row : StorageEffect}

/-! ## One call -/

/-- Rows with one identity stand in each other's way. -/
theorem sameBusinessKey_of_hasIdentity (fresh : hasIdentity connector businessKey row) (old : StorageEffect) :
    sameBusinessKey row old = hasIdentity connector businessKey old := by
  simp only [hasIdentity, Bool.and_eq_true, decide_eq_true_eq] at fresh
  simp [sameBusinessKey, hasIdentity, fresh, eq_comm]

theorem hasIdentity_insert_isSome_iff {r : BeginEffect} {now : Int} (fresh : hasIdentity connector businessKey (r.freshRow now))
    (absent : s.effect r.session r.key = none) :
    (s.effects.insert (sameBusinessKey (r.freshRow now)) (r.freshRow now)).isSome ↔
      s.effects.rows.any (hasIdentity connector businessKey) = false := by
  have free : StorageEffect.pk (r.freshRow now) ∉ s.effects.rows.map StorageEffect.pk := by
    intro taken
    obtain ⟨old, member, same⟩ := List.mem_map.mp taken
    have found := Table.find?_key_of_mem member
    rw [same, show s.effects.find? (r.freshRow now).pk = none from absent] at found
    cases found
  have clash : s.effects.rows.any (sameBusinessKey (r.freshRow now)) =
      s.effects.rows.any (hasIdentity connector businessKey) :=
    congrArg s.effects.rows.any (funext fun old => sameBusinessKey_of_hasIdentity fresh old)
  rw [Table.insert, dif_pos free, clash]
  cases s.effects.rows.any (hasIdentity connector businessKey) <;> simp

/-- Only `begin_effect` adds rows, and only those it asks for. -/
theorem adds_begin_iff (r : BeginEffect) (now : Int) (s : Store) :
    LifeCall.Adds connector businessKey s (.retain (.begin_ r now)) ↔
      hasIdentity connector businessKey (r.freshRow now) ∧ r.refusal = none ∧ s.effect r.session r.key = none ∧
        s.captured r.session r.key = none ∧ s.effects.rows.any (hasIdentity connector businessKey) = false := by
  simp only [LifeCall.Adds, LifeCall.serve, RetentionCall.serve]
  constructor
  · rintro ⟨session, key, row, found, identity, absent⟩
    cases beginEffect_cases r now s with
    | inl same =>
      rw [same, absent] at found
      cases found
    | inr added =>
      obtain ⟨inserted, isInsert, isFree, uncaptured, accepted, answer⟩ := added
      rw [answer, leaves_ok, Store.effect, Table.find?_insert isInsert] at found
      split at found
      next isKey =>
        cases found
        have free := (hasIdentity_insert_isSome_iff identity isFree).mp (by rw [isInsert]; rfl)
        exact ⟨identity, accepted, isFree, uncaptured, free⟩
      next =>
        rw [show s.effects.find? (session, key) = none from absent] at found
        cases found
  · rintro ⟨identity, accepted, isFree, uncaptured, free⟩
    have isSome := (hasIdentity_insert_isSome_iff identity isFree).mpr free
    obtain ⟨inserted, isInsert⟩ := Option.isSome_iff_exists.mp isSome
    refine ⟨r.session, r.key, r.freshRow now, ?_, identity, isFree⟩
    have answer : beginEffect r now s = .ok (r.freshRow now, { s with effects := inserted }) := by
      simp [beginEffect, accepted, isFree, uncaptured, isInsert]
    rw [answer, leaves_ok, Store.effect, Table.find?_insert isInsert]
    exact if_pos rfl

/-- A completion adds no row and forgets none. -/
theorem effect_complete (status : EffectStatus) (responseJson errorJson : Json) (now : Int) (session' : SessionKey)
    (key' : String) :
    ((LifeCall.complete session key status responseJson errorJson now).serve s).effect session' key' = none ↔
      s.effect session' key' = none := by
  simp only [LifeCall.serve]
  cases writesOnly_completeEffect session key status responseJson errorJson now s with
  | inl same => rw [Store.effect, same, Store.effect]
  | inr written =>
    obtain ⟨u, same⟩ := written
    rw [Store.effect, same]
    change (s.writeEffect session key u).effect session' key' = none ↔ _
    rw [s.effect_writeEffect, Option.map_eq_none_iff]

theorem captured_complete (status : EffectStatus) (responseJson errorJson : Json) (now : Int) :
    ((LifeCall.complete session key status responseJson errorJson now).serve s).captured = s.captured := by
  simp only [LifeCall.serve, completeEffect]
  split
  · rfl
  · split
    · rfl
    · split <;> rfl

theorem not_adds_of_not_begin {call : LifeCall} (other : ∀ r now, call ≠ .retain (.begin_ r now)) :
    ¬ call.Adds connector businessKey s := by
  intro ⟨session, key, row, found, _, absent⟩
  cases call with
  | complete => rw [(effect_complete ..).mpr absent] at found; cases found
  | retain call =>
    cases call with
    | begin_ r now => exact other r now rfl
    | snapshot => rw [show s.effect session key = some row from found] at absent; cases absent
    | compact groups policy nowMs clock =>
      rw [LifeCall.serve, RetentionCall.serve, effect_compactOnce, absent] at found
      cases found
    | continueAsNew =>
      rw [LifeCall.serve, RetentionCall.serve, effect_continueAsNew, absent] at found
      cases found

/-! ## Runs -/

/-- The key is known: `begin_effect` answers it. -/
def Known (session : SessionKey) (key : String) (s : Store) : Prop :=
  (s.effect session key).isSome ∨ (s.captured session key).isSome

/-- A known key stays known, if its row is captured before it is deleted. -/
theorem Known.serve {call : LifeCall} (known : Known session key s) (captured : call.CapturedFirst session key s) :
    Known session key (call.serve s) := by
  have remembered : (s.captured session key).isSome → ((call.serve s).captured session key).isSome := by
    intro isSome
    cases call with
    | complete => rwa [captured_complete]
    | retain call =>
      cases captured_serve_cases call s session key with
      | inl same => rwa [LifeCall.serve, same]
      | inr merged =>
        obtain ⟨row, -, -, isCaptured⟩ := merged
        rw [LifeCall.serve, isCaptured]
        rfl
  cases known with
  | inr isCaptured => exact .inr (remembered isCaptured)
  | inl live =>
    cases after : (call.serve s).effect session key with
    | some row => exact .inl (by rw [after]; rfl)
    | none => exact .inr (remembered (captured live after))

/-- What one call adds, once the key is known. -/
theorem not_adds_iff (known : Known session key s) (call : LifeCall) :
    ¬ call.Adds connector businessKey s ↔ call.Recognised session key connector businessKey s := by
  by_cases begins : ∃ r now, call = .retain (.begin_ r now)
  · obtain ⟨r, now, rfl⟩ := begins
    rw [adds_begin_iff, LifeCall.Recognised]
    constructor
    · intro adds identity
      by_contra unknown
      simp only [not_or, Bool.not_eq_true, Option.isSome_eq_false_iff, Option.isNone_iff_eq_none] at unknown
      exact adds ⟨identity, unknown.1, unknown.2.2.1, unknown.2.2.2⟩
    · intro recognised ⟨identity, accepted, isFree, uncaptured, free⟩
      have same : (r.session, r.key) = (session, key) := by
        simpa [accepted, isFree, uncaptured, free] using recognised identity
      obtain ⟨rfl, rfl⟩ := Prod.mk.inj same
      simp [Known, isFree, uncaptured] at known
  · have other : ∀ r now, call ≠ .retain (.begin_ r now) := fun r now same => begins ⟨r, now, same⟩
    refine ⟨fun _ => ?_, fun _ => not_adds_of_not_begin other⟩
    cases call with
    | complete => trivial
    | retain call =>
      cases call with
      | begin_ r now => exact absurd rfl (other r now)
      | snapshot | compact | continueAsNew => trivial

/-- The identity was confirmed under the key. -/
def ConfirmedUnder (session : SessionKey) (key connector businessKey : String) (s : Store) : Prop :=
  ∃ row, s.effect session key = some row ∧ row.status = .confirmed ∧ hasIdentity connector businessKey row

/-- Once a business identity is confirmed, in a run that captures its row before it deletes it, no other
    row with the identity is added if and only if every request for it is recognised. -/
theorem identity_added_once_iff (s : Store) (session : SessionKey) (key connector businessKey : String)
    (confirmed : ConfirmedUnder session key connector businessKey s) (calls : List LifeCall)
    (captured : Sequential.Along LifeCall.serve (LifeCall.CapturedFirst session key) s calls) :
    Sequential.Along LifeCall.serve (fun s call => ¬ call.Adds connector businessKey s) s calls ↔
      Sequential.Along LifeCall.serve (LifeCall.Recognised session key connector businessKey) s calls := by
  obtain ⟨row, found, -, -⟩ := confirmed
  have known : Known session key s := .inl (by rw [found]; rfl)
  exact Sequential.Along.congr_of_invariant (fun _ _ => Known.serve) (fun _ call known => not_adds_iff known call)
    known captured

/-- The payment of an invoice. -/
def invoicePayment : BeginEffect := { payment with businessKey := some "invoice" }

/-- The same payment, from another session. -/
def otherPayment : BeginEffect := { invoicePayment with session := ⟨"app", "user", "t"⟩ }

/-- The invoice is paid, captured and pruned. -/
def invoicePaid : List LifeCall :=
  [.retain (.begin_ invoicePayment 1), .complete payment.session "k" .confirmed (.str "sent") .null 5]

def invoicePruned : List LifeCall := [.retain (.snapshot payment.session 0 6 6), .retain (compactedAt 20)]

def statusOf (s : Store) (r : BeginEffect) : Option EffectStatus := (s.effect r.session r.key).map StorageEffect.status

/-- The session that paid is recognised after the row is gone. -/
theorem invoice_paid_once :
    ¬ LifeCall.Adds "bank" "invoice" (Sequential.run LifeCall.serve .empty (invoicePaid ++ invoicePruned))
      (.retain (.begin_ invoicePayment 30)) := by
  have confirmed : ConfirmedUnder payment.session "k" "bank" "invoice" (Sequential.run LifeCall.serve .empty invoicePaid) :=
    ⟨_, rfl, rfl, rfl⟩
  have added := identity_added_once_iff _ _ _ _ _ confirmed (invoicePruned ++ [.retain (.begin_ invoicePayment 30)])
    (by decide)
  have recognised : Sequential.Along LifeCall.serve (LifeCall.Recognised payment.session "k" "bank" "invoice")
      (Sequential.run LifeCall.serve .empty invoicePaid) (invoicePruned ++ [.retain (.begin_ invoicePayment 30)]) :=
    Sequential.Along.append.mpr ⟨⟨trivial, trivial, trivial⟩, fun _ => .inr (.inl rfl), trivial⟩
  rw [Sequential.run_append]
  exact (Sequential.Along.append.mp (added.mpr recognised)).2.1

/-- The session that did not pays the invoice again. -/
theorem invoice_paid_twice :
    statusOf (Sequential.run LifeCall.serve .empty invoicePaid) invoicePayment = some .confirmed ∧
    (statusOf (Sequential.run LifeCall.serve .empty (invoicePaid ++ invoicePruned)) otherPayment = none ∧
      ((Sequential.run LifeCall.serve .empty (invoicePaid ++ invoicePruned)).captured payment.session "k").isSome) ∧
    ((Sequential.run LifeCall.serve .empty (invoicePaid ++ invoicePruned ++ [.retain (.begin_ otherPayment 30)])).effect
      otherPayment.session "k").any (hasIdentity "bank" "invoice") := by
  decide

end Tape.Embedded
