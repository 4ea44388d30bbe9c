import Mathlib.Data.Prod.Lex
import Mathlib.Data.String.Basic
import Tape.Store.World

/-! # Statements on the other tables

Decisions, obligations, gates, timers and the journal, and the operations on the
scope cache.
-/

namespace Tape

open Sql

/-! ## `tape_decisions` -/

inductive DecisionStmt where
  | getDecision (runId : String) (decisionIndex : Int)
  | insertDecision (row : DecisionRecord)
  | sumBytes (runId : String)
  | zeroDecisions (runId : String)

namespace DecisionStmt

def Res : DecisionStmt → Type
  | getDecision .. => Option DecisionRecord
  | insertDecision _ => Unit
  | sumBytes _ => Int
  | zeroDecisions _ => Nat

def hasPayload (row : DecisionRecord) : Bool :=
  row.requestJson ≠ "" || row.responseJson ≠ "" || row.rationale ≠ ""

def zero : Update DecisionRecord.pk where
  apply row := { row with requestJson := "", responseJson := "", rationale := "" }
  key_apply _ := rfl

def exec : (s : DecisionStmt) → World → Except StoreError s.Res × Table DecisionRecord.pk
  | getDecision runId decisionIndex, w => (.ok (w.decisions.find? (runId, decisionIndex)), w.decisions)
  | insertDecision row, w => insertRow "tape_decisions" w.decisions (fun _ => false) row
  | sumBytes runId, w =>
    (.ok ((w.decisions.rows.filter fun row => row.runId = runId).map fun row =>
      (row.requestJson.length + row.responseJson.length : Int)).sum, w.decisions)
  | zeroDecisions runId, w =>
    let blanked (row : DecisionRecord) : Bool := row.runId = runId && hasPayload row
    (.ok (w.decisions.count blanked), w.decisions.update blanked zero)

/-- A recorded decision stays; only the zeroing of its own run changes its payload. -/
theorem find?_exec_of_some {s : DecisionStmt} {w : World} {pk : String × Int} {row : DecisionRecord}
    (found : w.decisions.find? pk = some row) :
    (s.exec w).2.find? pk = some row ∨
      (s = zeroDecisions pk.1 ∧ (s.exec w).2.find? pk = some (zero.apply row)) := by
  cases s
  case insertDecision row' => exact .inl (find?_insertRow_of_some found)
  case zeroDecisions runId =>
    simp only [exec, Table.find?_update, found, Option.map_some]
    split
    next blanked =>
      have own : row.runId = runId := by
        simp only [Bool.and_eq_true, decide_eq_true_eq] at blanked
        exact blanked.1
      have same := Table.key_of_find? found
      exact .inr ⟨by rw [← same, ← own], rfl⟩
    next => exact .inl rfl
  all_goals exact .inl found

/-- A decision that appears was inserted. -/
theorem insert_of_find?_exec {s : DecisionStmt} {w : World} {pk : String × Int} {row : DecisionRecord}
    (absent : w.decisions.find? pk = none) (found : (s.exec w).2.find? pk = some row) :
    s = insertDecision row ∧ row.pk = pk := by
  cases s
  case insertDecision row' =>
    obtain ⟨same, rfl⟩ := find?_insertRow_of_none absent found
    exact ⟨rfl, same⟩
  all_goals
    simp [exec, Table.find?_update, absent] at found

end DecisionStmt

/-! ## `tape_obligations` -/

inductive ObligationStmt where
  | findObligation (runId effectKey kind : String)
  | insertObligation (row : ObligationRecord)
  | listObligations (runId : String) (onlyUnresolved : Bool) (statusFilter : Int)
  | listUnresolved (now : Int) (pending stuck committedExpired : Bool) (limit : Int)
  | claimObligation (runId : String) (seq : Int) (claimer : String) (leaseExp now : Int)
  | getObligation (runId : String) (seq : Int)
  | recordAttempt (runId : String) (seq status attempts : Int) (error : String) (nextAt now : Int)
  | resolve (runId : String) (seq status : Int) (resultJson : String) (now : Int)
  | countOpen (runId : String)

namespace ObligationStmt

def Res : ObligationStmt → Type
  | findObligation .. | getObligation .. => Option ObligationRecord
  | insertObligation _ => Unit
  | listObligations .. | listUnresolved .. => List ObligationRecord
  | claimObligation .. | recordAttempt .. | resolve .. => Nat
  | countOpen _ => Int

/-- `PENDING` and due, or `COMMITTED` under a lease that ran out. -/
def claimable (now : Int) (row : ObligationRecord) : Bool :=
  (row.status = ObligationStatus.pending.code && row.nextAttemptAtMs ≤ now) ||
    (row.status = ObligationStatus.committed.code && row.claimExpiresAtMs ≤ now && 0 < row.claimExpiresAtMs)

def selects : ObligationStmt → ObligationRecord → Bool
  | claimObligation runId seq _ _ now, row => row.pk = (runId, seq) && claimable now row
  | recordAttempt runId seq .., row => row.pk = (runId, seq)
  | resolve runId seq .., row => row.pk = (runId, seq)
  | _, _ => false

def assign : ObligationStmt → ObligationRecord → ObligationRecord
  | claimObligation _ _ claimer leaseExp now, row =>
    { row with
      status := ObligationStatus.committed.code, claimedBy := claimer
      claimExpiresAtMs := leaseExp, tsMs := now }
  | recordAttempt _ _ status attempts error nextAt now, row =>
    { row with
      status, attempts, lastError := error, nextAttemptAtMs := nextAt
      claimedBy := "", claimExpiresAtMs := 0, tsMs := now }
  | resolve _ _ status resultJson now, row =>
    { row with status, resultJson, claimedBy := "", claimExpiresAtMs := 0, tsMs := now }
  | _, row => row

def set (s : ObligationStmt) : Update ObligationRecord.pk where
  apply := s.assign
  key_apply row := by cases s <;> rfl

/-- The clause `list_obligations` adds to `run_id=?1`. -/
def listed (onlyUnresolved : Bool) (statusFilter : Int) (row : ObligationRecord) : Bool :=
  if 0 < statusFilter then row.status = statusFilter
  else if onlyUnresolved then
    !(row.status = ObligationStatus.compensated.code || row.status = ObligationStatus.stuck.code)
  else true

/-- The `OR` of the clauses `list_unresolved_obligations` collects. -/
def unresolved (now : Int) (pending stuck committedExpired : Bool) (row : ObligationRecord) : Bool :=
  (pending && row.status = ObligationStatus.pending.code && row.nextAttemptAtMs ≤ now) ||
    (committedExpired && row.status = ObligationStatus.committed.code && row.claimExpiresAtMs ≤ now &&
      0 < row.claimExpiresAtMs) ||
    (stuck && row.status = ObligationStatus.stuck.code)

def exec : (s : ObligationStmt) → World → Except StoreError s.Res × Table ObligationRecord.pk
  | findObligation runId effectKey kind, w =>
    (.ok (w.obligations.rows.find? fun row =>
      row.runId = runId && row.effectKey = effectKey && row.kind = kind), w.obligations)
  | insertObligation row, w => insertRow "tape_obligations" w.obligations (fun _ => false) row
  | listObligations runId onlyUnresolved statusFilter, w =>
    -- `ORDER BY seq DESC`
    (.ok (orderBy (fun row => -row.seq) (w.obligations.rows.filter fun row =>
      row.runId = runId && listed onlyUnresolved statusFilter row)), w.obligations)
  | listUnresolved now pending stuck committedExpired limit, w =>
    (.ok (limitRows limit (orderBy₂ ObligationRecord.nextAttemptAtMs ObligationRecord.tsMs
      (w.obligations.rows.filter (unresolved now pending stuck committedExpired)))), w.obligations)
  | getObligation runId seq, w => (.ok (w.obligations.find? (runId, seq)), w.obligations)
  | countOpen runId, w =>
    (.ok (w.obligations.count fun row => row.runId = runId &&
      (row.status = ObligationStatus.pending.code || row.status = ObligationStatus.committed.code) : Int),
      w.obligations)
  | claimObligation runId seq claimer leaseExp now, w =>
    update (claimObligation runId seq claimer leaseExp now) w
  | recordAttempt runId seq status attempts error nextAt now, w =>
    update (recordAttempt runId seq status attempts error nextAt now) w
  | resolve runId seq status resultJson now, w => update (resolve runId seq status resultJson now) w
where
  update (s : ObligationStmt) (w : World) : Except StoreError Nat × Table ObligationRecord.pk :=
    (.ok (w.obligations.count s.selects), w.obligations.update s.selects s.set)

def apply (s : ObligationStmt) (row : ObligationRecord) : ObligationRecord :=
  if s.selects row then s.assign row else row

/-- An obligation that exists stays, and changes by the statement's `SET` clause alone. -/
theorem find?_exec_of_some {s : ObligationStmt} {w : World} {pk : String × Int} {row : ObligationRecord}
    (found : w.obligations.find? pk = some row) : (s.exec w).2.find? pk = some (s.apply row) := by
  cases s
  case insertObligation row' => exact find?_insertRow_of_some found
  all_goals
    first
    | exact found
    | simp only [exec, exec.update, Table.find?_update, found, Option.map_some]; rfl

/-- An obligation that appears was inserted. -/
theorem insert_of_find?_exec {s : ObligationStmt} {w : World} {pk : String × Int} {row : ObligationRecord}
    (absent : w.obligations.find? pk = none) (found : (s.exec w).2.find? pk = some row) :
    s = insertObligation row ∧ row.pk = pk := by
  cases s
  case insertObligation row' =>
    obtain ⟨same, rfl⟩ := find?_insertRow_of_none absent found
    exact ⟨rfl, same⟩
  all_goals
    simp [exec, exec.update, Table.find?_update, absent] at found

end ObligationStmt

/-! ## `tape_signals` -/

inductive SignalStmt where
  | getSignal (runId gateName : String)
  | consume (runId gateName : String)
  /-- `INSERT … awaited=1 ON CONFLICT DO UPDATE SET awaited=1, context_json`. -/
  | awaitGate (runId gateName contextJson : String) (ts : Int)
  /-- `INSERT … delivered=1 ON CONFLICT DO UPDATE SET resolution_json, delivered=1`. -/
  | deliver (runId gateName resolutionJson : String) (ts : Int)

namespace SignalStmt

def Res : SignalStmt → Type
  | getSignal .. => Option (Int × String)
  | consume .. | awaitGate .. | deliver .. => Nat

def exec : (s : SignalStmt) → World → Except StoreError s.Res × Table SignalRow.pk
  | getSignal runId gateName, w =>
    (.ok ((w.signals.find? (runId, gateName)).map fun row => (row.delivered, row.resolutionJson)), w.signals)
  | consume runId gateName, w =>
    let selected (row : SignalRow) : Bool := row.pk = (runId, gateName)
    (.ok (w.signals.count selected),
      w.signals.update selected ⟨fun row => { row with consumed := 1 }, fun _ => rfl⟩)
  | awaitGate runId gateName contextJson ts, w =>
    (.ok (1 : Nat), w.signals.upsert
      { runId, gateName, contextJson, resolutionJson := "", delivered := 0, awaited := 1, consumed := 0,
        createdAtMs := ts }
      ⟨fun row => { row with awaited := 1, contextJson }, fun _ => rfl⟩)
  | deliver runId gateName resolutionJson ts, w =>
    (.ok (1 : Nat), w.signals.upsert
      { runId, gateName, contextJson := "", resolutionJson, delivered := 1, awaited := 0, consumed := 0,
        createdAtMs := ts }
      ⟨fun row => { row with resolutionJson, delivered := 1 }, fun _ => rfl⟩)

/-- What the statement makes of one row of the table. -/
def apply : SignalStmt → SignalRow → SignalRow
  | getSignal .., row => row
  | consume runId gateName, row => if row.pk = (runId, gateName) then { row with consumed := 1 } else row
  | awaitGate runId gateName contextJson _, row =>
    if row.pk = (runId, gateName) then { row with awaited := 1, contextJson } else row
  | deliver runId gateName resolutionJson _, row =>
    if row.pk = (runId, gateName) then { row with resolutionJson, delivered := 1 } else row

/-- A gate that exists stays. -/
theorem find?_exec_of_some {s : SignalStmt} {w : World} {pk : String × String} {row : SignalRow}
    (found : w.signals.find? pk = some row) : (s.exec w).2.find? pk = some (s.apply row) := by
  have own : row.pk = pk := Table.key_of_find? found
  cases s with
  | getSignal => exact found
  | consume => simp [exec, apply, Table.find?_update, found]
  | awaitGate runId gateName | deliver runId gateName =>
    simp only [exec, apply, Table.find?_upsert, found, own]
    by_cases same : (runId, gateName) = pk
    · simp [SignalRow.pk, same]
    · simp [SignalRow.pk, same, Ne.symm same]

/-- A gate that appears is awaited, or a signal was delivered to it. -/
theorem insert_of_find?_exec {s : SignalStmt} {w : World} {pk : String × String} {row : SignalRow}
    (absent : w.signals.find? pk = none) (found : (s.exec w).2.find? pk = some row) :
    (∃ ts, s = awaitGate pk.1 pk.2 row.contextJson ts ∧ row.delivered = 0 ∧ row.awaited = 1 ∧ row.consumed = 0) ∨
      ∃ ts, s = deliver pk.1 pk.2 row.resolutionJson ts ∧ row.delivered = 1 ∧ row.awaited = 0 ∧ row.consumed = 0 := by
  cases s with
  | getSignal => simp [exec, absent] at found
  | consume => simp [exec, Table.find?_update, absent] at found
  | awaitGate runId gateName contextJson ts =>
    simp only [exec, Table.find?_upsert, absent] at found
    split at found
    next same =>
      cases same
      cases found
      exact .inl ⟨ts, rfl, rfl, rfl, rfl⟩
    next => cases found
  | deliver runId gateName resolutionJson ts =>
    simp only [exec, Table.find?_upsert, absent] at found
    split at found
    next same =>
      cases same
      cases found
      exact .inr ⟨ts, rfl, rfl, rfl, rfl⟩
    next => cases found

end SignalStmt

/-! ## `tape_timers` -/

inductive TimerStmt where
  | upsertTimer (runId timerId : String) (fireAtMs : Int) (kind : String) (payload : Json) (ts : Int)
  | getTimer (runId timerId : String)
  | deleteTimer (runId timerId : String)
  | dueTimers (nowMs limit : Int)
  /-- `UPDATE … SET fired=1 … AND fired=0`. -/
  | fireTimer (runId timerId : String)

namespace TimerStmt

def Res : TimerStmt → Type
  | getTimer .. => Option TimerRecord
  | dueTimers .. => List TimerRecord
  | upsertTimer .. | deleteTimer .. | fireTimer .. => Nat

def exec : (s : TimerStmt) → World → Except StoreError s.Res × Table TimerRecord.pk
  | upsertTimer runId timerId fireAtMs kind payload ts, w =>
    (.ok (1 : Nat), w.timers.upsert { runId, timerId, fireAtMs, kind, payload, fired := false, createdAtMs := ts }
      ⟨fun row => { row with fireAtMs, kind, payload, fired := false }, fun _ => rfl⟩)
  | getTimer runId timerId, w => (.ok (w.timers.find? (runId, timerId)), w.timers)
  | deleteTimer runId timerId, w =>
    let selected (row : TimerRecord) : Bool := row.pk = (runId, timerId)
    (.ok (w.timers.count selected), w.timers.delete selected)
  | dueTimers nowMs limit, w =>
    (.ok (limitRows limit (orderBy TimerRecord.fireAtMs (w.timers.rows.filter fun row =>
      !row.fired && row.fireAtMs ≤ nowMs))), w.timers)
  | fireTimer runId timerId, w =>
    let selected (row : TimerRecord) : Bool := row.pk = (runId, timerId) && !row.fired
    (.ok (w.timers.count selected),
      w.timers.update selected ⟨fun row => { row with fired := true }, fun _ => rfl⟩)

end TimerStmt

/-! ## `tape_journal` and `tape_global_seq` -/

inductive JournalStmt where
  /-- `next_global_seq`: `UPDATE` and `SELECT` of the counter in one transaction. -/
  | nextGlobalSeq
  | insertEntry (row : EventEntry)
  | readAfter (fromGlobalSeq limit : Int)
  | bySubject (fromGlobalSeq : Int) (like : String) (limit : Int)
  | since (fromTsMs : Int) (runId kind : String) (limit : Int)

namespace JournalStmt

def Res : JournalStmt → Type
  | nextGlobalSeq => Int
  | insertEntry _ => Unit
  | readAfter .. | bySubject .. | since .. => List EventEntry

/-- The entries of the journal after a cursor that meet a condition, in `global_seq`
    order and at most `limit` of them. -/
def tail (w : World) (fromGlobalSeq limit : Int) (cond : EventEntry → Bool) : List EventEntry :=
  limitRows limit (orderBy EventEntry.globalSeq (w.journal.rows.filter fun row =>
    fromGlobalSeq < row.globalSeq && cond row))

/-- `(?2 = '' OR run_id = ?2) AND (?3 = '' OR kind = ?3)`. -/
def asks (runId kind : String) (row : EventEntry) : Bool :=
  (runId = "" || row.runId = runId) && (kind = "" || row.kind = kind)

/-- `ORDER BY ts_ms, run_id, seq`. -/
def sinceKey (row : EventEntry) : Int ×ₗ String ×ₗ Int := toLex (row.tsMs, toLex (row.runId, row.seq))

theorem mem_of_mem_tail {w : World} {fromGlobalSeq limit : Int} {cond : EventEntry → Bool} {e : EventEntry}
    (member : e ∈ tail w fromGlobalSeq limit cond) : e ∈ w.journal.rows :=
  List.mem_of_mem_filter (mem_of_mem_orderBy (mem_of_mem_limitRows member))

def exec : (s : JournalStmt) → World → Except StoreError s.Res × Table EventEntry.pk × Int
  | nextGlobalSeq, w => (.ok (w.globalSeq + 1), w.journal, w.globalSeq + 1)
  | insertEntry row, w =>
    let inserted := insertRow "tape_journal" w.journal (fun old => old.globalSeq = row.globalSeq) row
    (inserted.1, inserted.2, w.globalSeq)
  | readAfter fromGlobalSeq limit, w =>
    (.ok (tail w fromGlobalSeq limit fun _ => true), w.journal, w.globalSeq)
  | bySubject fromGlobalSeq pattern limit, w =>
    (.ok (tail w fromGlobalSeq limit fun row =>
      Subjects.like w.dialect pattern.toList row.subject.toList), w.journal, w.globalSeq)
  | since fromTsMs runId kind limit, w =>
    (.ok (limitRows limit ((w.journal.rows.filter fun row =>
      fromTsMs ≤ row.tsMs && asks runId kind row).insertionSort fun a b => sinceKey a ≤ sinceKey b)),
      w.journal, w.globalSeq)

end JournalStmt

/-! ## The scope cache -/

inductive CacheOp where
  | lookup (server : Nat) (runId : String)
  | cacheScopes (server : Nat) (runId : String) (scopes : List String)
  | evictScopes (server : Nat) (runId : String)

namespace CacheOp

def Res : CacheOp → Type
  | lookup .. => Option (List String)
  | cacheScopes .. | evictScopes .. => Unit

def scopeCacheMax : Nat := 8192

def exec : (c : CacheOp) → World → c.Res × (Nat → List (String × List String))
  | lookup server runId, w =>
    (((w.scopeCache server).find? fun entry => entry.1 = runId).map Prod.snd, w.scopeCache)
  | cacheScopes server runId scopes, w =>
    -- a full map is dropped whole before the insert
    let kept := if scopeCacheMax ≤ (w.scopeCache server).length then [] else w.scopeCache server
    ((), fun other => if other = server then (runId, scopes) :: kept.filter fun entry => entry.1 ≠ runId
      else w.scopeCache other)
  | evictScopes server runId, w =>
    ((), fun other => if other = server then (w.scopeCache server).filter fun entry => entry.1 ≠ runId
      else w.scopeCache other)

end CacheOp

end Tape
