import Tape.Embedded.Service
import Tape.Sequential

/-! # Calls on the effect ledger

The mutating methods of the effect ledger as calls that are served one at a time.
-/

namespace Tape.Embedded

open Sql

inductive LedgerCall where
  | begin_ (request : BeginEffect) (now : Int)
  | complete (session : SessionKey) (key : String) (status : EffectStatus) (responseJson errorJson : Json) (now : Int)
  | claim (session : SessionKey) (key claimer : String) (leaseTtlMs nowMs clock : Int)
  | attempt (session : SessionKey) (key error : String) (nextDispatchAtMs now : Int)
  | observe (session : SessionKey) (key : String) (observation : Observation) (now : Int)

namespace LedgerCall

/-- The store after the call. -/
def serve (s : Store) : LedgerCall → Store
  | begin_ r now => leaves (beginEffect r now s) s
  | complete session key status responseJson errorJson now =>
    leaves (completeEffect session key status responseJson errorJson now s) s
  | claim session key claimer leaseTtlMs nowMs clock =>
    leaves (claimEffectDispatch session key claimer leaseTtlMs nowMs clock s) s
  | attempt session key error nextDispatchAtMs now => leaves (recordDispatchAttempt session key error nextDispatchAtMs now s) s
  | observe session key o now => leaves (recordExternalObservation session key o now s) s

end LedgerCall

/-! ## What each method leaves of one effect -/

section Effects

variable {s : Store} {session : SessionKey} {key : String} {row : StorageEffect}

/-- `begin_effect` leaves the store, or adds one row under a free key. -/
theorem beginEffect_cases (r : BeginEffect) (now : Int) (s : Store) :
    leaves (beginEffect r now s) s = s ∨ ∃ inserted,
      s.effects.insert (sameBusinessKey (r.freshRow now)) (r.freshRow now) = some inserted ∧
        s.effect r.session r.key = none ∧ s.captured r.session r.key = none ∧ r.refusal = none ∧
        beginEffect r now s = .ok (r.freshRow now, { s with effects := inserted }) := by
  unfold beginEffect
  cases refused : r.refusal with
  | some e => exact .inl rfl
  | none =>
    cases found : s.effect r.session r.key with
    | some existing => exact .inl rfl
    | none =>
      cases isCaptured : s.captured r.session r.key with
      | some captured => exact .inl rfl
      | none =>
        cases inserted : s.effects.insert (sameBusinessKey (r.freshRow now)) (r.freshRow now) with
        | none => exact .inl (by simp)
        | some table => exact .inr ⟨table, by simp⟩

/-- A row that exists survives `begin_effect`. -/
theorem effect_beginEffect (found : s.effect session key = some row) (r : BeginEffect) (now : Int) :
    (leaves (beginEffect r now s) s).effect session key = some row := by
  cases beginEffect_cases r now s with
  | inl same => rw [same, found]
  | inr added =>
    obtain ⟨inserted, isInsert, absent, -, -, answer⟩ := added
    rw [answer, leaves_ok]
    have other : (r.freshRow now).pk ≠ (session, key) := by
      intro same
      obtain ⟨rfl, rfl⟩ := Prod.mk.inj same
      rw [show s.effect (r.freshRow now).session (r.freshRow now).idempotencyKey = none from absent] at found
      cases found
    simp only [Store.effect, Table.find?_insert isInsert, if_neg other]
    exact found

/-- `complete_effect` writes the outcome of a pending effect. -/
theorem effect_completeEffect (found : s.effect session key = some row) {status : EffectStatus}
    (valid : status ≠ .pending) (responseJson errorJson : Json) (now : Int) :
    (leaves (completeEffect session key status responseJson errorJson now s) s).effect session key =
      some (if row.status = .pending then (completion status responseJson errorJson now).apply row else row) := by
  unfold completeEffect
  rw [if_neg valid, found]
  by_cases pending : row.status = .pending
  · simp [pending, s.effect_writeEffect_self found]
  · simp [pending, found]

theorem effect_claimEffectDispatch (found : s.effect session key = some row) (claimer : String)
    (leaseTtlMs nowMs clock : Int) :
    (leaves (claimEffectDispatch session key claimer leaseTtlMs nowMs clock s) s).effect session key =
      some (if row.dispatchable (orNow nowMs clock)
        then (claim claimer (orNow nowMs clock + leaseTtlMs)).apply row else row) := by
  unfold claimEffectDispatch
  by_cases due : row.dispatchable (orNow nowMs clock)
  · simp [found, due, s.effect_writeEffect_self found]
  · simp [found, due]

theorem effect_recordDispatchAttempt (found : s.effect session key = some row) (error : String)
    (nextDispatchAtMs now : Int) :
    (leaves (recordDispatchAttempt session key error nextDispatchAtMs now s) s).effect session key =
      some ((dispatchAttempt error nextDispatchAtMs now).apply row) := by
  simp [recordDispatchAttempt, found, s.effect_writeEffect_self found]

/-- The observation is refused with the obligation that is to go with it. -/
def refusedWith (s : Store) (o : Observation) (row : StorageEffect) : Bool :=
  o.compensates && s.obligations.rows.any fun old =>
    row.session = old.session && row.idempotencyKey = old.effectKey && o.compensateOnDuplicateKind = old.kind

theorem le_foldl_max {l : List Int} {n x : Int} (member : x ∈ l ∨ x ≤ n) : x ≤ l.foldl max n := by
  induction l generalizing n with
  | nil => simpa using member
  | cons head l inductionHypothesis =>
    apply inductionHypothesis
    rcases member with member | le
    · cases List.mem_cons.mp member with
      | inl same => exact .inr (by omega)
      | inr member => exact .inl member
    · exact .inr (by omega)

/-- The number of a new obligation is free, so an insert is refused for its kind alone. -/
theorem numbered_inserted_iff (o : StorageObligation) (s : Store) :
    (s.obligations.insert (sameObligation { o with seq := nextObligationSeq s })
      { o with seq := nextObligationSeq s }).isSome ↔ s.obligations.rows.any (sameObligation o) = false := by
  have free : nextObligationSeq s ∉ s.obligations.rows.map StorageObligation.pk := by
    intro taken
    have bound : nextObligationSeq s ≤ (s.obligations.rows.map StorageObligation.seq).foldl max 0 :=
      le_foldl_max (.inl taken)
    rw [nextObligationSeq] at bound
    omega
  have clash : s.obligations.rows.any (sameObligation { o with seq := nextObligationSeq s }) =
      s.obligations.rows.any (sameObligation o) := rfl
  rw [Table.insert, dif_pos free, clash]
  cases s.obligations.rows.any (sameObligation o) <;> simp

theorem duplicateObligation_inserted_iff (o : Observation) (row : StorageEffect) (now : Int) (s : Store)
    (compensates : o.compensates) :
    (s.obligations.insert (sameObligation (duplicateObligation o row now s)) (duplicateObligation o row now s)).isSome ↔
      refusedWith s o row = false := by
  rw [refusedWith, compensates, Bool.true_and]
  exact numbered_inserted_iff (duplicateObligation o row now s) s

theorem effect_recordExternalObservation (found : s.effect session key = some row) (o : Observation) (now : Int) :
    (leaves (recordExternalObservation session key o now s) s).effect session key =
      some (if (o.apply row).isNone ∨ refusedWith s o row then row else (o.update now).apply row) := by
  unfold recordExternalObservation
  rw [found]
  by_cases known : (o.apply row).isNone
  · simp [known, found]
  · by_cases compensates : o.compensates
    · have inserted := duplicateObligation_inserted_iff o row now s compensates
      cases isInsert : s.obligations.insert (sameObligation (duplicateObligation o row now s))
          (duplicateObligation o row now s) with
      | none =>
        rw [isInsert] at inserted
        have refused : refusedWith s o row = true := by simpa using inserted
        simp [known, compensates, isInsert, refused, found]
      | some registered =>
        rw [isInsert] at inserted
        have allowed : refusedWith s o row = false := by simpa using inserted
        have written := s.effect_writeEffect_self found (o.update now)
        simp [known, compensates, isInsert, allowed]
        exact written
    · have allowed : refusedWith s o row = false := by simp [refusedWith, compensates]
      simp [known, compensates, allowed, s.effect_writeEffect_self found]

end Effects

/-! ## What each method leaves of the others -/

section Frame

variable {s s' : Store} {session session' : SessionKey} {key key' : String}

/-- Of the effects, at most the one of the key was written. -/
def WritesOnly (session : SessionKey) (key : String) (s s' : Store) : Prop :=
  s'.effects = s.effects ∨ ∃ u, s'.effects = (s.writeEffect session key u).effects

theorem WritesOnly.effect_ne (writes : WritesOnly session key s s') (ne : (session', key') ≠ (session, key)) :
    s'.effect session' key' = s.effect session' key' := by
  cases writes with
  | inl same => rw [Store.effect, same, Store.effect]
  | inr written =>
    obtain ⟨u, same⟩ := written
    rw [Store.effect, same]
    exact s.effect_writeEffect_ne u ne

theorem writesOnly_completeEffect (session : SessionKey) (key : String) (status : EffectStatus)
    (responseJson errorJson : Json) (now : Int) (s : Store) :
    WritesOnly session key s (leaves (completeEffect session key status responseJson errorJson now s) s) := by
  unfold completeEffect
  split
  · exact .inl rfl
  · split
    · exact .inl rfl
    · split
      · exact .inl rfl
      · exact .inr ⟨_, rfl⟩

theorem writesOnly_claimEffectDispatch (session : SessionKey) (key claimer : String) (leaseTtlMs nowMs clock : Int)
    (s : Store) : WritesOnly session key s (leaves (claimEffectDispatch session key claimer leaseTtlMs nowMs clock s) s) := by
  unfold claimEffectDispatch
  by_cases acquired : (s.effect session key).any (StorageEffect.dispatchable (orNow nowMs clock))
  · exact .inr ⟨claim claimer (orNow nowMs clock + leaseTtlMs), by simp [acquired]⟩
  · exact .inl (by simp [acquired])

theorem writesOnly_recordDispatchAttempt (session : SessionKey) (key error : String) (nextDispatchAtMs now : Int)
    (s : Store) : WritesOnly session key s (leaves (recordDispatchAttempt session key error nextDispatchAtMs now s) s) := by
  unfold recordDispatchAttempt
  split
  · exact .inl rfl
  · exact .inr ⟨_, rfl⟩

theorem writesOnly_recordExternalObservation (session : SessionKey) (key : String) (o : Observation) (now : Int)
    (s : Store) : WritesOnly session key s (leaves (recordExternalObservation session key o now s) s) := by
  unfold recordExternalObservation
  split
  · exact .inl rfl
  · split
    · exact .inl rfl
    · simp only
      split
      · split
        · exact .inr ⟨o.update now, rfl⟩
        · exact .inl rfl
      · exact .inr ⟨o.update now, rfl⟩

end Frame

end Tape.Embedded
