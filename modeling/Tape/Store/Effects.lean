import Tape.Store.World

/-! # Statements on `tape_effects`

One constructor for each SQL text.  `complete_effect` and `reconcile_effect` issue
the same `UPDATE`, `setOutcome`.
-/

namespace Tape

open Sql

inductive EffectStmt where
  | getEffect (runId key : String)
  | findBusinessKey (connector businessKey : String)
  | insertEffect (row : EffectRecord)
  | setOutcome (runId key : String) (status : Int) (responseJson errorJson : String) (ts : Int)
  | toDispatch (now : Int) (connector : String) (limit : Int)
  | claimDispatch (runId key claimer : String) (leaseExp now : Int)
  | recordAttempt (runId key : String) (status attempts : Int) (error : String) (nextAt ts : Int)
  | recordObservation (runId key : String) (status : Int)
      (responseJson errorJson externalRef : String) (nextDispatch ts : Int)
  | listPending (limit unknown pending olderThanMs : Int)
  | countUnknown (runId : String)
  | sumBytes (runId : String)
  | zeroEffects (runId : String)

namespace EffectStmt

def Res : EffectStmt → Type
  | getEffect .. | findBusinessKey .. => Option EffectRecord
  | toDispatch .. | listPending .. => List EffectRecord
  | countUnknown _ | sumBytes _ => Int
  | insertEffect _ => Unit
  | setOutcome .. | claimDispatch .. | recordAttempt .. | recordObservation .. | zeroEffects _ => Nat

/-- `PENDING + OUTBOX + due`, with no live lease: the `WHERE` that
    `list_effects_to_dispatch` and `claim_effect_dispatch` share. -/
def dispatchable (now : Int) (row : EffectRecord) : Bool :=
  row.status = EffectStatus.pending.code && row.dispatchMode = EffectDispatchMode.outbox.code &&
    row.nextDispatchAtMs ≤ now && (row.dispatchClaimedBy = "" || row.dispatchClaimExpiresAtMs ≤ now)

/-- The `WHERE` clause of an `UPDATE`. -/
def selects : EffectStmt → EffectRecord → Bool
  | setOutcome runId key .., row => row.pk = (runId, key)
  | claimDispatch runId key _ _ now, row => row.pk = (runId, key) && dispatchable now row
  | recordAttempt runId key .., row => row.pk = (runId, key)
  | recordObservation runId key .., row => row.pk = (runId, key)
  | zeroEffects runId, row =>
    row.runId = runId && (row.requestJson ≠ "" || row.responseJson ≠ "" || row.errorJson ≠ "")
  | _, _ => false

/-- The `SET` clause of an `UPDATE`. -/
def assign : EffectStmt → EffectRecord → EffectRecord
  | setOutcome _ _ status responseJson errorJson ts, row =>
    { row with status, responseJson, errorJson, tsMs := ts }
  | claimDispatch _ _ claimer leaseExp _, row =>
    -- `ts_ms=?6` binds the lease expiry, not the time of the claim
    { row with dispatchClaimedBy := claimer, dispatchClaimExpiresAtMs := leaseExp, tsMs := leaseExp }
  | recordAttempt _ _ status attempts error nextAt ts, row =>
    { row with
      status, dispatchAttempts := attempts, lastDispatchError := error, nextDispatchAtMs := nextAt
      dispatchClaimedBy := "", dispatchClaimExpiresAtMs := 0, tsMs := ts }
  | recordObservation _ _ status responseJson errorJson externalRef nextDispatch ts, row =>
    { row with
      status, responseJson, errorJson, externalRef, nextDispatchAtMs := nextDispatch
      dispatchClaimedBy := "", dispatchClaimExpiresAtMs := 0, tsMs := ts }
  | zeroEffects _, row => { row with requestJson := "", responseJson := "", errorJson := "" }
  | _, row => row

def set (s : EffectStmt) : Update EffectRecord.pk where
  apply := s.assign
  key_apply row := by cases s <;> rfl

/-- The partial unique index `idx_effects_business_key`. -/
def sameBusinessKey (a b : EffectRecord) : Bool :=
  a.businessKey ≠ "" && a.connector ≠ "" && a.connector = b.connector && a.businessKey = b.businessKey

def exec : (s : EffectStmt) → World → Except StoreError s.Res × Table EffectRecord.pk
  | getEffect runId key, w => (.ok (w.effects.find? (runId, key)), w.effects)
  | findBusinessKey connector businessKey, w =>
    (.ok (w.effects.rows.find? fun row => row.connector = connector && row.businessKey = businessKey),
      w.effects)
  | insertEffect row, w => insertRow "tape_effects" w.effects (sameBusinessKey row) row
  | toDispatch now connector limit, w =>
    (.ok (limitRows limit (orderBy₂ EffectRecord.nextDispatchAtMs EffectRecord.tsMs
      (w.effects.rows.filter fun row =>
        dispatchable now row && (connector = "" || row.connector = connector)))), w.effects)
  | listPending limit unknown pending olderThanMs, w =>
    (.ok (limitRows limit (orderBy EffectRecord.tsMs (w.effects.rows.filter fun row =>
      row.status = unknown ||
        (row.status = pending && (olderThanMs = 0 || row.tsMs < olderThanMs))))), w.effects)
  | countUnknown runId, w =>
    (.ok (w.effects.count fun row => row.runId = runId && row.status = EffectStatus.unknown.code : Int),
      w.effects)
  | sumBytes runId, w =>
    (.ok ((w.effects.rows.filter fun row => row.runId = runId).map fun row =>
      (row.requestJson.length + row.responseJson.length + row.errorJson.length : Int)).sum, w.effects)
  | setOutcome runId key status responseJson errorJson ts, w =>
    update (setOutcome runId key status responseJson errorJson ts) w
  | claimDispatch runId key claimer leaseExp now, w =>
    update (claimDispatch runId key claimer leaseExp now) w
  | recordAttempt runId key status attempts error nextAt ts, w =>
    update (recordAttempt runId key status attempts error nextAt ts) w
  | recordObservation runId key status responseJson errorJson externalRef nextDispatch ts, w =>
    update (recordObservation runId key status responseJson errorJson externalRef nextDispatch ts) w
  | zeroEffects runId, w => update (zeroEffects runId) w
where
  update (s : EffectStmt) (w : World) : Except StoreError Nat × Table EffectRecord.pk :=
    (.ok (w.effects.count s.selects), w.effects.update s.selects s.set)

/-- What the statement makes of one row of the table. -/
def apply (s : EffectStmt) (row : EffectRecord) : EffectRecord :=
  if s.selects row then s.assign row else row

/-- An effect that exists stays, and changes by the statement's `SET` clause alone. -/
theorem find?_exec_of_some {s : EffectStmt} {w : World} {pk : String × String} {row : EffectRecord}
    (found : w.effects.find? pk = some row) : (s.exec w).2.find? pk = some (s.apply row) := by
  cases s
  case insertEffect row' => exact find?_insertRow_of_some found
  all_goals
    first
    | exact found
    | simp only [exec, exec.update, Table.find?_update, found, Option.map_some]; rfl

/-- An effect that appears was inserted. -/
theorem insert_of_find?_exec {s : EffectStmt} {w : World} {pk : String × String} {row : EffectRecord}
    (absent : w.effects.find? pk = none) (found : (s.exec w).2.find? pk = some row) :
    s = insertEffect row ∧ row.pk = pk := by
  cases s
  case insertEffect row' =>
    obtain ⟨same, rfl⟩ := find?_insertRow_of_none absent found
    exact ⟨rfl, same⟩
  all_goals
    simp [exec, exec.update, Table.find?_update, absent] at found

/-- A claim changes a row iff that row was there and dispatchable: the `UPDATE` is a
    compare-and-set. -/
theorem claimDispatch_pos_iff {w : World} {runId key claimer : String} {leaseExp now : Int} :
    0 < w.effects.count (claimDispatch runId key claimer leaseExp now).selects ↔
      ∃ row, w.effects.find? (runId, key) = some row ∧ dispatchable now row := by
  rw [Table.count_pos_iff]
  constructor
  · rintro ⟨row, found, selected⟩
    simp only [selects, Bool.and_eq_true, decide_eq_true_eq] at selected
    exact ⟨row, selected.1 ▸ found, selected.2⟩
  · rintro ⟨row, found, due⟩
    have same := Table.key_of_find? found
    exact ⟨row, same ▸ found, by simp [selects, same, due]⟩

end EffectStmt

end Tape
