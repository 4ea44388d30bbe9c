import Tape.Effect.Alone

/-! # What a recorded outcome survives

The methods of the ledger complete an effect that is pending and leave a confirmed one as it is, so that what a
confirmed effect has recorded is what `begin_effect` answers from then on.
-/

namespace Tape.Effect

open Sql Interleave

variable {w w' : World} {runId key text : String} {ts : Int}

/-- The effect is confirmed, and this is the response on record. -/
def Records (runId key text : String) (w : World) : Prop :=
  ∃ row, w.effects.find? (runId, key) = some row ∧ row.status = EffectStatus.confirmed.code ∧ row.responseJson = text

/-- Confirmed effects keep their responses. -/
def KeepsRecords (w w' : World) : Prop := ∀ runId key text, Records runId key text w → Records runId key text w'

theorem keepsRecords_of_effects (same : w'.effects = w.effects) : KeepsRecords w w' := by
  intro runId key text records
  rwa [Records, same]

/-- Rows that are rewritten one by one, and confirmed ones not at all. -/
theorem keepsRecords_of_map {change : EffectRecord → EffectRecord}
    (rewritten : ∀ pk, w'.effects.find? pk = (w.effects.find? pk).map change)
    (kept : ∀ row, row.status = EffectStatus.confirmed.code → change row = row) : KeepsRecords w w' := by
  rintro runId key text ⟨row, found, confirmed, response⟩
  refine ⟨row, ?_, confirmed, response⟩
  rw [rewritten, found, Option.map_some, kept row confirmed]

theorem keepsRecords_beginEffect (server : Nat) (r : RunStore.EffectRequest) (ts : Int) (w : World) :
    KeepsRecords w (tape.alone (RunStore.beginEffect server r ts).run w).2 := by
  obtain ⟨seq, isAfter⟩ := find?_beginEffect server r ts w
  rintro runId key text ⟨row, found, recorded⟩
  refine ⟨row, ?_, recorded⟩
  rw [isAfter, if_neg, found]
  rintro ⟨inserted, isKey⟩
  -- a new effect has a key that no other has
  have absent := (inserts_eq_true.mp inserted.2).1
  rw [isKey, found] at absent
  cases absent

theorem keepsRecords_completeEffect (runId key : String) (status : Int) (responseJson errorJson : String) (ts : Int) (w : World) :
    KeepsRecords w (tape.alone (RunStore.completeEffect runId key status responseJson errorJson ts).run w).2 := by
  refine keepsRecords_of_map (find?_completeEffect status responseJson errorJson) fun row confirmed => ?_
  exact if_neg fun isOpen => absurd (confirmed.symm.trans isOpen.2) (by decide)

theorem keepsRecords_reconcileEffect (runId key : String) (status : Int) (responseJson errorJson : String) (ts : Int)
    (w : World) :
    KeepsRecords w (tape.alone (RunStore.reconcileEffect runId key status responseJson errorJson ts).run w).2 := by
  refine keepsRecords_of_map (find?_reconcileEffect status responseJson errorJson) fun row confirmed => ?_
  exact if_neg fun isOpen => by simp [confirmed] at isOpen

theorem keepsRecords_registerCompensation (runId effectKey kind : String) (payload : Json) (compensatorRef : String)
    (maxAttempts ts : Int) (w : World) : KeepsRecords w
      (tape.alone (RunStore.registerCompensation runId effectKey kind payload compensatorRef maxAttempts ts).run w).2 :=
  keepsRecords_of_effects (effects_alone_of_all
    (all_registerCompensation housekeeping_keeps_effects (fun _ => rfl) fun _ _ => rfl) w)

/-- A completion that is acknowledged found its effect. -/
theorem found_of_completeEffect {status : Int} {responseJson errorJson : String} {row : EffectRecord}
    (answered : (tape.alone (RunStore.completeEffect runId key status responseJson errorJson ts).run w).1 = .ok (some row)) :
    (w.effects.find? (runId, key)).isSome := by
  rw [RunStore.completeEffect, alone_getEffect] at answered
  cases found : w.effects.find? (runId, key) with
  | none =>
    rw [found] at answered
    cases answered
  | some existing => rfl

/-- A pending effect records the response it is confirmed with. -/
theorem records_completeEffect {row : EffectRecord} (found : w.effects.find? (runId, key) = some row)
    (pending : row.status = EffectStatus.pending.code) (responseJson errorJson : String) : Records runId key responseJson
      (tape.alone (RunStore.completeEffect runId key EffectStatus.confirmed.code responseJson errorJson ts).run w).2 := by
  have isKey : row.pk = (runId, key) := Table.key_of_find? found
  refine ⟨completed runId key EffectStatus.confirmed.code responseJson errorJson ts row, ?_, ?_, ?_⟩
  · rw [find?_completeEffect, found, Option.map_some]
  · simp [completed, isKey, pending]
  · simp [completed, isKey, pending]

/-- `begin_effect` returns the row of its key, if there is one. -/
theorem beginEffect_recorded {server : Nat} {r : RunStore.EffectRequest} {row recorded : EffectRecord}
    (found : w.effects.find? (r.runId, r.key) = some recorded)
    (answered : (tape.alone (RunStore.beginEffect server r ts).run w).1 = .ok row) : row = recorded := by
  obtain ⟨connected, w₁, same, admitted⟩ := admitted_of_begun (Prod.ext answered rfl)
  rw [← same] at found
  cases admitted_cases connected admitted with
  | inl own =>
    rw [own.1] at found
    exact Option.some.inj found
  | inr others =>
    have absent : w₁.effects.find? (r.runId, r.key) = none := others.elim And.left And.left
    rw [absent] at found
    cases found

/-- Where no business key is asked for, the row that `begin_effect` returns is the row of its key. -/
theorem found_of_beginEffect {server : Nat} {r : RunStore.EffectRequest} {row : EffectRecord} (unkeyed : r.businessKey.isEmpty)
    (answered : tape.alone (RunStore.beginEffect server r ts).run w = (.ok row, w')) :
    w'.effects.find? (r.runId, r.key) = some row := by
  obtain ⟨connected, w₁, same, admitted⟩ := admitted_of_begun answered
  cases admitted_cases connected admitted with
  | inl own =>
    rw [own.2]
    exact own.1
  | inr others =>
    cases others with
    | inl owned =>
      rw [businessKeyOwner, if_pos unkeyed] at owned
      cases owned.2.1
    | inr inserted => exact inserted.2.2.2

end Tape.Effect
