import Tape.Store.World

/-! # Statements on `tape_runs`

One constructor for each SQL text that `SqlRunStore` issues on the table.  An
`UPDATE` is split into the rows it selects and what it assigns to them, so that
`RunStmt.apply` says what a statement does to one row.
-/

namespace Tape

open Sql

inductive RunStmt where
  /-- `SELECT run_id, seq_cursor … WHERE app_name, user_id, session_id, invocation_id`. -/
  | findInvocation (app user session invocation : String)
  /-- The lease-taking `UPDATE` of `begin_run`. -/
  | claimRun (runId leaseOwner : String) (leaseExp : Int)
  | insertRun (row : RunRow)
  | getRun (runId : String)
  /-- The lease-taking `UPDATE` of `resume_run`. -/
  | resumeRun (runId leaseOwner : String) (leaseExp : Int)
  | endRun (runId : String) (status ts : Int) (detailJson : String)
  | bumpSeq (runId : String)
  | readSeq (runId : String)
  | toRecover (nowMs limit : Int)
  | readScopes (runId : String)
  | compactable (beforeMs limit : Int)
  /-- `SELECT status, ended_at_ms, compacted_at_ms`. -/
  | readCompaction (runId : String)
  | stampCompacted (runId : String) (tsMs : Int)
  /-- The `UPDATE` of `await_signal`: `WAITING` on a gate, lease released. -/
  | parkRun (runId gateName : String)
  /-- `SELECT waiting_on_gate … WHERE status = WAITING`. -/
  | waitingGate (runId : String)
  /-- The `UPDATE` of `send_signal`: `RUNNABLE`. -/
  | releaseRun (runId : String)
  | latestRun (app user session : String)

namespace RunStmt

def Res : RunStmt → Type
  | findInvocation .. => Option (String × Int)
  | getRun _ => Option RunRow
  | readSeq _ => Option Int
  | toRecover .. => List RunRow
  | readScopes _ => Option (List String)
  | compactable .. => List RunRow
  | readCompaction _ => Option (Int × Int × Int)
  | waitingGate _ => Option String
  | latestRun .. => Option String
  | insertRun _ => Unit
  | claimRun .. | resumeRun .. | endRun .. | bumpSeq _ | stampCompacted .. | parkRun .. | releaseRun _ => Nat

/-- The `WHERE` clause of an `UPDATE`. -/
def selects : RunStmt → RunRow → Bool
  | claimRun runId _ _, row =>
    row.runId = runId && !(row.status = RunStatus.terminal.code || row.status = RunStatus.stuck.code)
  | resumeRun runId _ _, row => row.runId = runId
  | endRun runId _ _ _, row => row.runId = runId
  | bumpSeq runId, row => row.runId = runId
  | stampCompacted runId _, row => row.runId = runId
  | parkRun runId _, row => row.runId = runId
  | releaseRun runId, row => row.runId = runId
  | _, _ => false

/-- The `SET` clause of an `UPDATE`. -/
def assign : RunStmt → RunRow → RunRow
  | claimRun _ leaseOwner leaseExp, row | resumeRun _ leaseOwner leaseExp, row =>
    { row with status := RunStatus.running.code, leaseOwner, leaseExpiresAtMs := leaseExp }
  | endRun _ status ts detailJson, row =>
    { row with status, endedAtMs := ts, detailJson, leaseOwner := "" }
  | bumpSeq _, row => { row with seqCursor := row.seqCursor + 1 }
  | stampCompacted _ tsMs, row => { row with compactedAtMs := tsMs }
  | parkRun _ gateName, row =>
    { row with status := RunStatus.waiting.code, waitingOnGate := gateName, leaseOwner := "" }
  | releaseRun _, row => { row with status := RunStatus.runnable.code, waitingOnGate := "" }
  | _, row => row

def set (s : RunStmt) : Update RunRow.pk where
  apply := s.assign
  key_apply row := by cases s <;> rfl

def isDelivered (signals : Table SignalRow.pk) (runId : String) : Bool :=
  signals.rows.any fun signal => signal.runId = runId && signal.delivered = 1 && signal.consumed = 0

/-- The statuses `list_compactable_runs` and `compact_run` call terminal. -/
def isTerminal (status : Int) : Bool :=
  status = RunStatus.terminal.code || status = RunStatus.failed.code ||
    status = RunStatus.cancelled.code || status = RunStatus.stuck.code

/-- `list_runs_to_recover`'s `WHERE`. -/
def recoverable (signals : Table SignalRow.pk) (nowMs : Int) (row : RunRow) : Bool :=
  row.status = RunStatus.runnable.code ||
    (row.status = RunStatus.running.code && row.leaseExpiresAtMs < nowMs) ||
    (row.status = RunStatus.waiting.code && isDelivered signals row.runId)

/-- `UNIQUE(app_name, user_id, session_id, invocation_id)`. -/
def sameInvocation (a b : RunRow) : Bool :=
  a.appName = b.appName && a.userId = b.userId && a.sessionId = b.sessionId &&
    a.invocationId = b.invocationId

def exec : (s : RunStmt) → World → Except StoreError s.Res × Table RunRow.pk
  | findInvocation app user session invocation, w =>
    (.ok ((w.runs.rows.find? fun row => row.appName = app && row.userId = user &&
      row.sessionId = session && row.invocationId = invocation).map fun row => (row.runId, row.seqCursor)),
      w.runs)
  | insertRun row, w => insertRow "tape_runs" w.runs (sameInvocation row) row
  | getRun runId, w => (.ok (w.runs.find? runId), w.runs)
  | readSeq runId, w => (.ok ((w.runs.find? runId).map RunRow.seqCursor), w.runs)
  | toRecover nowMs limit, w =>
    (.ok (limitRows limit (w.runs.rows.filter (recoverable w.signals nowMs))), w.runs)
  | readScopes runId, w => (.ok ((w.runs.find? runId).map RunRow.scopes), w.runs)
  | compactable beforeMs limit, w =>
    (.ok (limitRows limit (orderBy RunRow.endedAtMs (w.runs.rows.filter fun row =>
      isTerminal row.status && row.compactedAtMs = 0 && 0 < row.endedAtMs && row.endedAtMs < beforeMs))),
      w.runs)
  | readCompaction runId, w =>
    (.ok ((w.runs.find? runId).map fun row => (row.status, row.endedAtMs, row.compactedAtMs)), w.runs)
  | waitingGate runId, w =>
    (.ok (((w.runs.find? runId).filter fun row => row.status = RunStatus.waiting.code).map
      RunRow.waitingOnGate), w.runs)
  | latestRun app user session, w =>
    -- `ORDER BY started_at_ms DESC LIMIT 1`
    (.ok ((orderBy (fun row => -row.startedAtMs) (w.runs.rows.filter fun row =>
      row.appName = app && row.userId = user && row.sessionId = session)).head?.map RunRow.runId), w.runs)
  | claimRun runId leaseOwner leaseExp, w => update (claimRun runId leaseOwner leaseExp) w
  | resumeRun runId leaseOwner leaseExp, w => update (resumeRun runId leaseOwner leaseExp) w
  | endRun runId status ts detailJson, w => update (endRun runId status ts detailJson) w
  | bumpSeq runId, w => update (bumpSeq runId) w
  | stampCompacted runId tsMs, w => update (stampCompacted runId tsMs) w
  | parkRun runId gateName, w => update (parkRun runId gateName) w
  | releaseRun runId, w => update (releaseRun runId) w
where
  /-- Run an `UPDATE` and answer the number of rows it changed. -/
  update (s : RunStmt) (w : World) : Except StoreError Nat × Table RunRow.pk :=
    (.ok (w.runs.count s.selects), w.runs.update s.selects s.set)

/-- What the statement makes of one row of the table. -/
def apply (s : RunStmt) (row : RunRow) : RunRow := if s.selects row then s.assign row else row

/-- A run that exists stays, and changes by the statement's `SET` clause alone. -/
theorem find?_exec_of_some {s : RunStmt} {w : World} {runId : String} {row : RunRow}
    (found : w.runs.find? runId = some row) :
    (s.exec w).2.find? runId = some (s.apply row) := by
  cases s
  case insertRun row' => exact find?_insertRow_of_some found
  all_goals
    first
    | exact found
    | simp only [exec, exec.update, Table.find?_update, found, Option.map_some]; rfl

/-- A statement inserts one run at the end of the table, or changes the rows in place. -/
theorem rows_exec (s : RunStmt) (w : World) :
    (∃ row, (s.exec w).2.rows = w.runs.rows ++ [row]) ∨ (s.exec w).2.rows = w.runs.rows.map s.apply := by
  have reads : ∀ s : RunStmt, (∀ row, s.selects row = false) → w.runs.rows = w.runs.rows.map s.apply := by
    intro s none
    have same : s.apply = id := funext fun row => by simp [apply, none row]
    rw [same, List.map_id]
  cases s
  case insertRun row =>
    simp only [exec, insertRow]
    split
    next inserted accepted => exact .inl ⟨row, Table.rows_insert accepted⟩
    next => exact .inr (reads _ fun _ => rfl)
  all_goals
    first
    | exact .inr (reads _ fun _ => rfl)
    | exact .inr rfl

/-- A run that appears was inserted. -/
theorem insert_of_find?_exec {s : RunStmt} {w : World} {runId : String} {row : RunRow}
    (absent : w.runs.find? runId = none) (found : (s.exec w).2.find? runId = some row) :
    s = insertRun row ∧ row.runId = runId := by
  cases s
  case insertRun row' =>
    obtain ⟨same, rfl⟩ := find?_insertRow_of_none absent found
    exact ⟨rfl, same⟩
  all_goals
    simp [exec, exec.update, Table.find?_update, absent] at found

end RunStmt

end Tape
