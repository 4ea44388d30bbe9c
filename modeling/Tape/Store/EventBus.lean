import Tape.Store.World

/-! # Statements of the event bus

The key-value store, the reactions with their cursors over the journal, and the task
queue.  `tape_tasks` has a unique index besides its key, so a statement on it may be
refused.
-/

namespace Tape

open Sql

/-! ## `tape_values` -/

inductive ValueStmt where
  | getValue («namespace» key : String)
  /-- `INSERT … version 1 ON CONFLICT DO UPDATE SET … version = version + 1, deleted = 0`. -/
  | upsertValue («namespace» key valueJson : String) (ts : Int) (writer : String)
  /-- `UPDATE … SET version = version + 1, value_json = '', deleted = 1`. -/
  | tombstone («namespace» key : String) (ts : Int)

namespace ValueStmt

def Res : ValueStmt → Type
  | getValue .. => Option ValueRecord
  | upsertValue .. | tombstone .. => Nat

def exec : (s : ValueStmt) → World → Except StoreError s.Res × Table ValueRecord.pk
  | getValue «namespace» key, w => (.ok (w.values.find? («namespace», key)), w.values)
  | upsertValue «namespace» key valueJson ts writer, w =>
    (.ok (1 : Nat), w.values.upsert
      { «namespace», key, valueJson, version := 1, tsMs := ts, writer, deleted := false }
      ⟨fun row => { row with valueJson, version := row.version + 1, tsMs := ts, writer, deleted := false },
        fun _ => rfl⟩)
  | tombstone «namespace» key ts, w =>
    let selected (row : ValueRecord) : Bool := row.pk = («namespace», key)
    (.ok (w.values.count selected), w.values.update selected
      ⟨fun row => { row with valueJson := "", version := row.version + 1, tsMs := ts, deleted := true },
        fun _ => rfl⟩)

end ValueStmt

/-! ## `tape_reactions` -/

inductive ReactionStmt where
  | existsReaction (reactionId : String)
  /-- `INSERT … ON CONFLICT(reaction_id) DO UPDATE`; the time of the first registration stays. -/
  | upsertReaction (row : Reaction)
  | softDelete (reactionId : String)
  /-- An empty pattern lists all of them. -/
  | listReactions (subjectPattern : String)

namespace ReactionStmt

def Res : ReactionStmt → Type
  | existsReaction _ => Bool
  | upsertReaction _ | softDelete _ => Nat
  | listReactions _ => List Reaction

def exec : (s : ReactionStmt) → World → Except StoreError s.Res × Table Reaction.pk
  | existsReaction reactionId, w => (.ok (w.reactions.find? reactionId).isSome, w.reactions)
  | upsertReaction row, w =>
    (.ok (1 : Nat), w.reactions.upsert { row with deleted := false }
      ⟨fun old => { row with reactionId := old.reactionId, createdAtMs := old.createdAtMs, deleted := false },
        fun _ => rfl⟩)
  | softDelete reactionId, w =>
    let selected (row : Reaction) : Bool := row.reactionId = reactionId
    (.ok (w.reactions.count selected),
      w.reactions.update selected ⟨fun row => { row with deleted := true }, fun _ => rfl⟩)
  | listReactions subjectPattern, w =>
    (.ok (orderBy Reaction.createdAtMs (w.reactions.rows.filter fun row =>
      !row.deleted && (subjectPattern.isEmpty || row.subjectPattern = subjectPattern))), w.reactions)

end ReactionStmt

/-! ## `tape_reaction_cursors` -/

inductive CursorStmt where
  | getCursor (reactionId : String) (shard : Int)
  /-- `INSERT … ON CONFLICT(reaction_id, shard) DO UPDATE`. -/
  | setCursor (reactionId : String) (shard globalSeq nowMs : Int)
  /-- `INSERT … ON CONFLICT(reaction_id, shard) DO NOTHING`. -/
  | seedCursor (reactionId : String) (shard globalSeq nowMs : Int)
  /-- `SELECT COALESCE(MAX(global_seq), 0) FROM tape_journal`. -/
  | journalHead

namespace CursorStmt

def Res : CursorStmt → Type
  | getCursor .. => Option Int
  | setCursor .. | seedCursor .. => Nat
  | journalHead => Int

/-- `SET last_global_seq=excluded.last_global_seq, last_processed_at_ms=excluded.…`. -/
def move (globalSeq nowMs : Int) : Update ReactionCursor.pk where
  apply row := { row with lastGlobalSeq := globalSeq, lastProcessedAtMs := nowMs }
  key_apply _ := rfl

def exec : (s : CursorStmt) → World → Except StoreError s.Res × Table ReactionCursor.pk
  | getCursor reactionId shard, w =>
    (.ok ((w.reactionCursors.find? (reactionId, shard)).map ReactionCursor.lastGlobalSeq), w.reactionCursors)
  | setCursor reactionId shard globalSeq nowMs, w =>
    (.ok (1 : Nat), w.reactionCursors.upsert
      { reactionId, shard, lastGlobalSeq := globalSeq, lastProcessedAtMs := nowMs } (move globalSeq nowMs))
  | seedCursor reactionId shard globalSeq nowMs, w =>
    match w.reactionCursors.insert (fun _ => false)
      { reactionId, shard, lastGlobalSeq := globalSeq, lastProcessedAtMs := nowMs } with
    | some inserted => (.ok (1 : Nat), inserted)
    | none => (.ok (0 : Nat), w.reactionCursors)
  | journalHead, w =>
    (.ok ((w.journal.rows.map EventEntry.globalSeq).max?.getD 0 : Int), w.reactionCursors)

end CursorStmt

/-! ## `tape_tasks` -/

inductive TaskStmt where
  /-- `INSERT … ON CONFLICT (reaction_id, shard, source_global_seq) DO NOTHING`. -/
  | insertTask (row : Task)
  | getBySlot (reactionId : String) (shard sourceGlobalSeq : Int)
  | candidates (reactionId : String) (shard now limit : Int)
  | claimTask (taskId owner : String) (leaseExp now : Int)
  | getTask (taskId : String)
  | completeTask (taskId owner : String) (now : Int)
  /-- The attempts of a task the caller holds, and its reaction's backoff and bound. -/
  | readNack (taskId owner : String)
  | dlqTask (taskId owner error : String)
  | retryTask (taskId owner error : String) (nextAt : Int)
  | findPending (reactionId subject : String)
  | coalesceTask (taskId : String) (sourceGlobalSeq : Int) (payload : Json) (traceId parentSpanId : String)

namespace TaskStmt

def Res : TaskStmt → Type
  | insertTask _ => Nat
  | getBySlot .. | getTask _ | findPending .. => Option Task
  | candidates .. => List String
  | readNack .. => Option (Int × Int × Int)
  | claimTask .. | completeTask .. | dlqTask .. | retryTask .. | coalesceTask .. => Nat

/-- `PENDING` and due, or `CLAIMED` under a lease that ran out. -/
def claimable (now : Int) (row : Task) : Bool :=
  (row.status = TaskStatus.pending.code && row.nextAttemptAtMs ≤ now) ||
    (row.status = TaskStatus.claimed.code && row.leaseExpiresAtMs < now)

/-- `lease_owner=owner AND status=CLAIMED`. -/
def heldBy (owner : String) (row : Task) : Bool :=
  row.leaseOwner = owner && row.status = TaskStatus.claimed.code

def selects : TaskStmt → Task → Bool
  | claimTask taskId _ _ now, row => row.taskId = taskId && claimable now row
  | completeTask taskId owner _, row => row.taskId = taskId && heldBy owner row
  | dlqTask taskId owner _, row => row.taskId = taskId && heldBy owner row
  | retryTask taskId owner _ _, row => row.taskId = taskId && heldBy owner row
  | coalesceTask taskId .., row => row.taskId = taskId && row.status = TaskStatus.pending.code
  | _, _ => false

def assign : TaskStmt → Task → Task
  | claimTask _ owner leaseExp _, row =>
    { row with
      status := TaskStatus.claimed.code, leaseOwner := owner, leaseExpiresAtMs := leaseExp
      attempts := row.attempts + 1 }
  | completeTask _ _ now, row =>
    { row with status := TaskStatus.done.code, completedAtMs := now, leaseOwner := "", leaseExpiresAtMs := 0 }
  | dlqTask _ _ error, row =>
    { row with status := TaskStatus.dlq.code, lastError := error, leaseOwner := "", leaseExpiresAtMs := 0 }
  | retryTask _ _ error nextAt, row =>
    { row with
      status := TaskStatus.pending.code, nextAttemptAtMs := nextAt, lastError := error
      leaseOwner := "", leaseExpiresAtMs := 0 }
  | coalesceTask _ sourceGlobalSeq payload traceId parentSpanId, row =>
    { row with sourceGlobalSeq, payload, traceId, parentSpanId }
  | _, row => row

def set (s : TaskStmt) : Update Task.pk where
  apply := s.assign
  key_apply row := by cases s <;> rfl

def exec : (s : TaskStmt) → World → Except StoreError s.Res × UniqueTable Task.pk Task.slot
  | insertTask row, w =>
    if w.tasks.rows.any fun old => old.slot = row.slot then (.ok (0 : Nat), w.tasks)
    else match w.tasks.insert? row with
      | some inserted => (.ok (1 : Nat), inserted)
      | none => (.error (constraintFailed "tape_tasks"), w.tasks)
  | getBySlot reactionId shard sourceGlobalSeq, w =>
    (.ok (w.tasks.rows.find? fun row => row.slot = (reactionId, shard, sourceGlobalSeq)), w.tasks)
  | candidates reactionId shard now limit, w =>
    -- a negative shard stands for all of them
    (.ok ((limitRows limit (orderBy₂ Task.nextAttemptAtMs Task.createdAtMs (w.tasks.rows.filter fun row =>
      row.reactionId = reactionId && claimable now row && (shard < 0 || row.shard = shard)))).map Task.taskId),
      w.tasks)
  | getTask taskId, w => (.ok (w.tasks.find? taskId), w.tasks)
  | readNack taskId owner, w =>
    let reaction (row : Task) := w.reactions.find? row.reactionId
    (.ok (((w.tasks.find? taskId).filter (heldBy owner)).map fun row =>
      (row.attempts, ((reaction row).map Reaction.retryBackoffMs).getD 1000,
        ((reaction row).map Reaction.dlqAfterN).getD 5)), w.tasks)
  | findPending reactionId subject, w =>
    -- `ORDER BY created_at_ms DESC LIMIT 1`
    (.ok (orderBy (fun row => -row.createdAtMs) (w.tasks.rows.filter fun row =>
      row.reactionId = reactionId && row.subject = subject && row.status = TaskStatus.pending.code)).head?, w.tasks)
  | claimTask taskId owner leaseExp now, w => update (claimTask taskId owner leaseExp now) w
  | completeTask taskId owner now, w => update (completeTask taskId owner now) w
  | dlqTask taskId owner error, w => update (dlqTask taskId owner error) w
  | retryTask taskId owner error nextAt, w => update (retryTask taskId owner error nextAt) w
  | coalesceTask taskId sourceGlobalSeq payload traceId parentSpanId, w =>
    update (coalesceTask taskId sourceGlobalSeq payload traceId parentSpanId) w
where
  update (s : TaskStmt) (w : World) : Except StoreError Nat × UniqueTable Task.pk Task.slot :=
    match w.tasks.update? s.selects s.set with
    | some updated => (.ok (w.tasks.count s.selects), updated)
    | none => (.error (constraintFailed "tape_tasks"), w.tasks)

/-- The statement coalesces an entry into a task. -/
def isCoalesce : TaskStmt → Bool
  | coalesceTask .. => true
  | _ => false

/-- The statement puts a task back, to be attempted again. -/
def isRetry : TaskStmt → Bool
  | retryTask .. => true
  | _ => false

/-- Only coalescing moves a task to another slot. -/
theorem slot_assign {s : TaskStmt} (other : s.isCoalesce = false) (row : Task) : (s.assign row).slot = row.slot := by
  cases s with
  | coalesceTask => cases other
  | _ => rfl

section Rows

variable {s : TaskStmt} {w : World} {taskId : String} {row : Task}

/-- An update was executed, or it was refused and left the table. -/
theorem update_cases (s : TaskStmt) (w : World) :
    (∃ updated, exec.update s w = (.ok (w.tasks.count s.selects), updated) ∧
        updated.toTable = w.tasks.toTable.update s.selects s.set) ∨
      exec.update s w = (.error (constraintFailed "tape_tasks"), w.tasks) := by
  unfold exec.update
  split
  next updated accepted => exact .inl ⟨updated, rfl, UniqueTable.toTable_of_check accepted⟩
  next => exact .inr rfl

/-- Only coalescing can be refused. -/
theorem update_of_not_coalesce (other : s.isCoalesce = false) :
    ∃ updated, exec.update s w = (.ok (w.tasks.count s.selects), updated) := by
  obtain ⟨updated, accepted, -⟩ :=
    UniqueTable.update?_of_index (t := w.tasks) (u := s.set) s.selects (slot_assign other)
  exact ⟨updated, by rw [exec.update, accepted]⟩

/-- An update that reports a changed row found one to select. -/
theorem selected_of_update {n : Nat} {updated : UniqueTable Task.pk Task.slot}
    (executed : exec.update s w = (.ok n, updated)) (changed : 0 < n) :
    ∃ row, w.tasks.find? row.taskId = some row ∧ s.selects row ∧
      updated.find? row.taskId = some (s.assign row) := by
  rcases update_cases s w with ⟨updated', executed', table⟩ | refused
  · rw [executed, Prod.mk.injEq, Except.ok.injEq] at executed'
    obtain ⟨rfl, rfl⟩ := executed'
    obtain ⟨row, found, selected⟩ := (Table.count_pos_iff _ _).mp changed
    refine ⟨row, found, selected, ?_⟩
    rw [table, Table.find?_update, found, Option.map_some, if_pos selected]
    rfl
  · rw [executed] at refused
    cases refused

/-- A task that is there stays, and changes by the `SET` clause of a statement that selects it. -/
theorem find?_exec_of_some (found : w.tasks.find? taskId = some row) :
    (s.exec w).2.find? taskId = some row ∨
      s.selects row ∧ (s.exec w).2.find? taskId = some (s.assign row) := by
  have viaUpdate : ∀ s : TaskStmt, (exec.update s w).2.find? taskId = some row ∨
      s.selects row ∧ (exec.update s w).2.find? taskId = some (s.assign row) := by
    intro s
    rcases update_cases s w with ⟨updated, executed, table⟩ | refused
    · rw [executed]
      simp only [table, Table.find?_update, found, Option.map_some]
      split
      next selected => exact .inr ⟨selected, rfl⟩
      next => exact .inl rfl
    · rw [refused]
      exact .inl found
  cases s with
  | insertTask new =>
    refine .inl ?_
    simp only [exec]
    split
    next => exact found
    next =>
      split
      next inserted accepted =>
        obtain ⟨table, isInsert, checked⟩ := Option.bind_eq_some_iff.mp accepted
        have free := Table.find?_none_of_insert isInsert
        rw [UniqueTable.toTable_of_check checked, Table.find?_insert isInsert, if_neg, found]
        rintro rfl
        exact absurd (found.symm.trans free) (by simp)
      next => exact found
  | claimTask | completeTask | dlqTask | retryTask | coalesceTask => exact viaUpdate _
  | _ => exact .inl found

/-- A task that appears was inserted, into a free slot. -/
theorem insert_of_find?_exec (absent : w.tasks.find? taskId = none) (found : (s.exec w).2.find? taskId = some row) :
    s = insertTask row ∧ row.taskId = taskId ∧ ∀ old ∈ w.tasks.rows, old.slot ≠ row.slot := by
  have viaUpdate : ∀ s : TaskStmt, (exec.update s w).2.find? taskId = none := by
    intro s
    rcases update_cases s w with ⟨updated, executed, table⟩ | refused
    · rw [executed]
      simp only [table, Table.find?_update, absent, Option.map_none]
    · rw [refused]
      exact absent
  cases s with
  | insertTask new =>
    simp only [exec] at found
    split at found
    next => simp [absent] at found
    next free =>
      split at found
      next inserted accepted =>
        obtain ⟨table, isInsert, checked⟩ := Option.bind_eq_some_iff.mp accepted
        rw [UniqueTable.toTable_of_check checked, Table.find?_insert isInsert, absent] at found
        split at found
        next same =>
          obtain rfl := Option.some.inj found
          exact ⟨rfl, same, by simpa using free⟩
        next => cases found
      next => simp [absent] at found
  | claimTask | completeTask | dlqTask | retryTask | coalesceTask =>
    exact absurd ((viaUpdate _).symm.trans found) (by simp)
  | _ => exact absurd (absent.symm.trans found) (by simp)

/-- What `find_pending` returns is a task of the reaction and subject it was asked for. -/
theorem mem_of_findPending {reactionId subject : String}
    (found : ((findPending reactionId subject).exec w).1 = .ok (some row)) :
    row ∈ w.tasks.rows ∧ row.reactionId = reactionId ∧ row.subject = subject := by
  have first : row ∈ (orderBy (fun row => -row.createdAtMs) (w.tasks.rows.filter fun row =>
      row.reactionId = reactionId && row.subject = subject && row.status = TaskStatus.pending.code)).head? :=
    Except.ok.inj found
  have listed := List.mem_filter.mp (mem_of_mem_orderBy (List.mem_of_mem_head? first))
  simp only [Bool.and_eq_true, decide_eq_true_eq] at listed
  exact ⟨listed.1, listed.2.1.1, listed.2.1.2⟩

end Rows

end TaskStmt

end Tape
