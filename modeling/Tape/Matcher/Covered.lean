import Tape.Journal.Cursor
import Tape.Matcher.Cursors

/-! # What a cursor stands for

Any number of matchers over one database, with whatever else is running.  Nothing but a
matcher writes a cursor, and a matcher writes one only where every matching entry of the
shard at or below it has been attempted: `create_task`, `coalesce_task` or `begin_run`
was executed for it, with success or without.  The cursors may go backwards when
matchers race, and any of them may stop at any point.

This holds as long as entries become visible ahead of what has been read: the journal
is read by number, and a number is taken before its entry is inserted.
-/

namespace Tape.Matcher

open Interleave

/-! ## Attempts -/

/-- The reaction queues tasks. -/
def isQueued (r : Reaction) : Bool :=
  HandlerKind.ofCode r.handlerKind = .task || HandlerKind.ofCode r.handlerKind = .publish

def isAgent (r : Reaction) : Bool := HandlerKind.ofCode r.handlerKind = .agent

/-- The dedup key of an entry's task. -/
def slotOf (r : Reaction) (e : EventEntry) : String × Int × Int :=
  (r.reactionId, shardOf r e.runId, e.globalSeq)

/-- The run is the one the matcher begins for the entry. -/
def invokedBy (r : Reaction) (e : EventEntry) (row : RunRow) : Bool :=
  row.appName = r.agentApp && row.userId = "" && row.sessionId = "" && row.invocationId = invocation r e

/-- The log shows the entry's work: a task was created for it, or it was coalesced into a pending
    one, or its run was begun or found. -/
inductive Worked (log : List TapeEvent) (r : Reaction) (e : EventEntry) : Prop
  | created {tid n : Nat} {row : Task} (isQueued : isQueued r) (slot : row.slot = slotOf r e)
      (executed : ⟨tid, .task (.insertTask row), .ok n⟩ ∈ log)
  | coalesced {tid n : Nat} {task : Task} (isQueued : isQueued r) (debounced : 0 < r.debounceMs)
      (found : ⟨tid, .task (.findPending r.reactionId e.subject), .ok (some task)⟩ ∈ log)
      (executed : ⟨tid, .task (.coalesceTask task.taskId e.globalSeq e.payload e.traceId e.spanId), .ok n⟩ ∈ log)
      (changed : 0 < n)
  | begun {tid : Nat} {row : RunRow} (isAgent : isAgent r) (invoked : invokedBy r e row)
      (executed : ⟨tid, .run (.insertRun row), .ok ()⟩ ∈ log)
  | found {tid : Nat} {known : String × Int} (isAgent : isAgent r)
      (executed : ⟨tid, .run (.findInvocation r.agentApp "" "" (invocation r e)), .ok (some known)⟩ ∈ log)

/-- The statement failed. -/
def failed : TapeEvent → Bool
  | ⟨_, .sql _, .error _⟩ => true
  | _ => false

/-- The statement is one the entry's work hangs on. -/
def attempts (r : Reaction) (e : EventEntry) : TapeEvent → Bool
  | ⟨_, .sql (.task (.insertTask row)), _⟩ => isQueued r && row.slot = slotOf r e
  | ⟨_, .sql (.run (.insertRun row)), _⟩ => isAgent r && invokedBy r e row
  | ⟨_, .sql (.run (.findInvocation app user session inv)), _⟩ =>
    isAgent r && app = r.agentApp && user = "" && session = "" && inv = invocation r e
  | _ => false

section Attempts

variable {r : Reaction} {e : EventEntry} {tid : Nat}

theorem attempts_insertTask {row : Task} {res : (Act.task (.insertTask row)).Res} :
    attempts r e ⟨tid, .task (.insertTask row), res⟩ ↔ isQueued r ∧ row.slot = slotOf r e := by
  simp [attempts]

theorem attempts_insertRun {row : RunRow} {res : (Act.run (.insertRun row)).Res} :
    attempts r e ⟨tid, .run (.insertRun row), res⟩ ↔ isAgent r ∧ invokedBy r e row := by
  simp [attempts]

theorem attempts_findInvocation {res : (Act.run (.findInvocation r.agentApp "" "" (invocation r e))).Res} :
    attempts r e ⟨tid, .run (.findInvocation r.agentApp "" "" (invocation r e)), res⟩ ↔ isAgent r := by
  simp [attempts]

end Attempts

/-- The entry was dispatched: its work is there, or an attempt at it failed, or the reaction has no
    handler. -/
def Attempted (log : List TapeEvent) (r : Reaction) (e : EventEntry) : Prop :=
  Worked log r e ∨ (∃ event ∈ log, failed event ∧ attempts r e event) ∨
    HandlerKind.ofCode r.handlerKind = .unspecified

section Log

variable {log log' : List TapeEvent} {r : Reaction} {e : EventEntry}

theorem Worked.mono (grown : log ⊆ log') (worked : Worked log r e) : Worked log' r e := by
  cases worked with
  | created isQueued slot executed => exact .created isQueued slot (grown executed)
  | coalesced isQueued debounced found executed changed =>
    exact .coalesced isQueued debounced (grown found) (grown executed) changed
  | begun isAgent invoked executed => exact .begun isAgent invoked (grown executed)
  | found isAgent executed => exact .found isAgent (grown executed)

theorem Attempted.mono (grown : log ⊆ log') (attempted : Attempted log r e) : Attempted log' r e := by
  rcases attempted with worked | ⟨event, member, isFailed, isAttempt⟩ | idle
  · exact .inl (worked.mono grown)
  · exact .inr (.inl ⟨event, grown member, isFailed, isAttempt⟩)
  · exact .inr (.inr idle)

/-- An attempted entry has its work when none of its statements failed. -/
theorem Attempted.worked (attempted : Attempted log r e) (handled : HandlerKind.ofCode r.handlerKind ≠ .unspecified)
    (unfailed : ∀ event ∈ log, failed event → attempts r e event = false) : Worked log r e := by
  rcases attempted with worked | ⟨event, member, isFailed, isAttempt⟩ | idle
  · exact worked
  · rw [unfailed event member isFailed] at isAttempt
    cases isAttempt
  · exact absurd idle handled

end Log

theorem handled_of_isQueued {r : Reaction} (queues : isQueued r) : HandlerKind.ofCode r.handlerKind ≠ .unspecified := by
  intro idle
  simp [isQueued, idle] at queues

theorem handled_of_isAgent {r : Reaction} (agent : isAgent r) : HandlerKind.ofCode r.handlerKind ≠ .unspecified := by
  intro idle
  simp [isAgent, idle] at agent

/-! ## Reads -/

/-- The entries `read_journal_after` returned. -/
def readBy : TapeEvent → List EventEntry
  | ⟨_, .sql (.journal (.readAfter ..)), .ok entries⟩ => entries
  | _ => []

theorem mem_readBy {event : TapeEvent} {e : EventEntry} (read : e ∈ readBy event) :
    ∃ (tid : Nat) (start limit : Int) (entries : List EventEntry),
      event = ⟨tid, .journal (.readAfter start limit), .ok entries⟩ ∧ e ∈ entries := by
  obtain ⟨tid, act, res⟩ := event
  rcases act with (s | s | s | s | s | s | s | s | s | s | s) | _ | _
  case sql.journal =>
    cases s
    case readAfter start limit =>
      match res with
      | .ok entries => exact ⟨tid, start, limit, entries, rfl, read⟩
      | .error _ => cases read
    all_goals cases read
  all_goals cases read

section Covered

variable (execute : Cel.Engine) (w₀ : World)

/-- A matching entry is inserted above every entry of its shard that was read. -/
def insertsAboveReads (h : TapeHist) : Act → Bool
  | .sql (.journal (.insertEntry row)) =>
    0 < row.globalSeq && h.log.all fun event => (readBy event).all fun e => (active w₀).all fun r =>
      !selects execute r row || shardOf r e.runId ≠ shardOf r row.runId || e.globalSeq < row.globalSeq
  | _ => true

/-- No unattempted entry of the shard is at or below the cursor, now or later. -/
structure Covered (h : TapeHist) (r : Reaction) (shard : Nat) (cursor : Int) : Prop where
  reached : cursor ≤ 0 ∨ ∃ event ∈ h.log, ∃ e ∈ readBy event, shardOf r e.runId = shard ∧ cursor ≤ e.globalSeq
  attempted : ∀ e ∈ h.state.journal.rows, selects execute r e → shardOf r e.runId = shard →
    e.globalSeq ≤ cursor → Attempted h.log r e

/-- A batch read from `start` on has every matching entry up to those of its shard that it has. -/
structure Complete (h : TapeHist) (start : Int) (entries : List EventEntry) : Prop where
  sorted : entries.Pairwise fun a b => a.globalSeq ≤ b.globalSeq
  listed : ∀ e ∈ entries, e ∈ h.state.journal.rows
  complete : ∀ last ∈ entries, ∀ r ∈ active w₀, ∀ e ∈ h.state.journal.rows, selects execute r e →
    shardOf r last.runId = shardOf r e.runId → start < e.globalSeq → e.globalSeq ≤ last.globalSeq → e ∈ entries

/-- The reactions are those of `w₀`, and every cursor covers its shard. -/
structure Consistent (h : TapeHist) : Prop where
  reactions : h.state.reactions = w₀.reactions
  unique : ∀ a ∈ h.state.journal.rows, ∀ b ∈ h.state.journal.rows, a.globalSeq = b.globalSeq → a = b
  cursors : ∀ r ∈ active w₀, ∀ shard < shardCount r, Covered execute h r shard (cursorOf h.state r.reactionId shard)
  reads : ∀ tid start limit entries, ⟨tid, .journal (.readAfter start limit), .ok entries⟩ ∈ h.log →
    Complete execute w₀ h start entries

/-- What a statement of the deployment does to reactions, cursors and the identity of tasks: it
    leaves them, or it is a matcher's write with what the matcher knows at that point. -/
def Proper (h : TapeHist) : Act → Prop
  | .sql (.task (.insertTask row)) =>
    ∃ r ∈ active w₀, ∃ e ∈ h.state.journal.rows, isQueued r ∧ selects execute r e ∧
      row.slot = slotOf r e ∧ row.subject = e.subject ∧ row.payload = e.payload
  | .sql (.task (.coalesceTask taskId globalSeq payload _ _)) =>
    ∃ r ∈ active w₀, ∃ e ∈ h.state.journal.rows, isQueued r ∧ selects execute r e ∧ 0 < r.debounceMs ∧
      globalSeq = e.globalSeq ∧ payload = e.payload ∧
      ∃ tid task, ⟨tid, .task (.findPending r.reactionId e.subject), .ok (some task)⟩ ∈ h.log ∧ task.taskId = taskId
  | .sql (.cursor (.setCursor reactionId shard globalSeq _)) =>
    ∃ r ∈ active w₀, ∃ s < shardCount r, reactionId = r.reactionId ∧ shard = (s : Int) ∧ Covered execute h r s globalSeq
  | .sql (.cursor (.seedCursor ..)) | .sql (.reaction (.upsertReaction _)) | .sql (.reaction (.softDelete _)) => False
  | _ => True

/-- What a thread can rely on between two of its statements. -/
structure Evolves (h h' : TapeHist) : Prop where
  log : h.log ⊆ h'.log
  consistent : Consistent execute w₀ h → Consistent execute w₀ h'
  covered : ∀ r ∈ active w₀, ∀ shard cursor, Covered execute h r shard cursor → Covered execute h' r shard cursor

end Covered

/-! ## One statement -/

section Push

variable {execute : Cel.Engine} {w₀ : World} {h : TapeHist} {tid : Nat} {act : Act} {res : act.Res} {state : World}

/-- A new matching entry is above every entry of its shard that was read. -/
theorem above_reads {row : EventEntry}
    (above : insertsAboveReads execute w₀ h (.journal (.insertEntry row))) :
    0 < row.globalSeq ∧ ∀ r ∈ active w₀, selects execute r row → ∀ event ∈ h.log, ∀ e ∈ readBy event,
      shardOf r e.runId = shardOf r row.runId → e.globalSeq < row.globalSeq := by
  simp only [insertsAboveReads, Bool.and_eq_true, decide_eq_true_eq, List.all_eq_true, Bool.or_eq_true,
    Bool.not_eq_true', or_assoc] at above
  refine ⟨above.1, fun r isActive selected event member e read same => ?_⟩
  rcases above.2 event member e read r isActive with unselected | differs | less
  · rw [selected] at unselected
    cases unselected
  · exact absurd same differs
  · exact less

theorem Covered.push {r : Reaction} {shard : Nat} {cursor : Int} (isActive : r ∈ active w₀)
    (answers : tape.Answers act h.state res state) (above : insertsAboveReads execute w₀ h act)
    (covered : Covered execute h r shard cursor) : Covered execute (h.push tid act res state) r shard cursor := by
  have grown : h.log ⊆ (h.push tid act res state).log := List.subset_cons_self _ _
  constructor
  · rcases covered.reached with start | ⟨event, member, e, read, own, bound⟩
    · exact .inl start
    · exact .inr ⟨event, grown member, e, read, own, bound⟩
  · intro e member selected own below
    obtain same | ⟨row, rfl, rows, -⟩ := Journal.journal_of_answers answers
    · rw [Hist.push_state, same] at member
      exact (covered.attempted e member selected own below).mono grown
    · rw [Hist.push_state, rows] at member
      rcases List.mem_append.mp member with old | new
      · exact (covered.attempted e old selected own below).mono grown
      · -- the new entry is above the cursor
        obtain rfl := List.mem_singleton.mp new
        obtain ⟨positive, ahead⟩ := above_reads above
        rcases covered.reached with start | ⟨event, inLog, last, read, ownLast, bound⟩
        · omega
        · have less := ahead r isActive selected event inLog last read (ownLast.trans own.symm)
          omega

theorem Complete.push {tid' : Nat} {start limit : Int} {entries : List EventEntry}
    (read : ⟨tid', .journal (.readAfter start limit), .ok entries⟩ ∈ h.log)
    (answers : tape.Answers act h.state res state) (above : insertsAboveReads execute w₀ h act)
    (complete : Complete execute w₀ h start entries) :
    Complete execute w₀ (h.push tid act res state) start entries := by
  refine ⟨complete.sorted, fun e member => ?_, fun last lastMember r isActive e member selected own after bound => ?_⟩
  · have listed := complete.listed e member
    obtain same | ⟨row, rfl, rows, -⟩ := Journal.journal_of_answers answers
    · rw [Hist.push_state, same]
      exact listed
    · rw [Hist.push_state, rows]
      exact List.mem_append_left _ listed
  · obtain same | ⟨row, rfl, rows, -⟩ := Journal.journal_of_answers answers
    · rw [Hist.push_state, same] at member
      exact complete.complete last lastMember r isActive e member selected own after bound
    · rw [Hist.push_state, rows] at member
      rcases List.mem_append.mp member with old | new
      · exact complete.complete last lastMember r isActive e old selected own after bound
      · obtain rfl := List.mem_singleton.mp new
        have less := (above_reads above).2 r isActive selected _ read last lastMember own
        omega

/-- What `read_journal_after` returns is complete when it is returned. -/
theorem complete_tail (unique : ∀ a ∈ h.state.journal.rows, ∀ b ∈ h.state.journal.rows,
      a.globalSeq = b.globalSeq → a = b) (start limit : Int) :
    Complete execute w₀ h start (JournalStmt.tail h.state start limit fun _ => true) := by
  refine ⟨?_, fun e member => JournalStmt.mem_of_mem_tail member, fun last lastMember r _ e member _ _ after bound => ?_⟩
  · have sorted : (orderBy EventEntry.globalSeq (h.state.journal.rows.filter fun row =>
        decide (start < row.globalSeq) && true)).Pairwise fun a b => a.globalSeq ≤ b.globalSeq := by
      apply List.pairwise_insertionSort
    unfold JournalStmt.tail limitRows
    split
    · exact sorted
    · exact sorted.sublist (List.take_sublist _ _)
  · refine mem_limitRows_orderBy ?_ lastMember ?_ bound
    · intro a memberA b memberB
      exact unique a (List.mem_of_mem_filter memberA) b (List.mem_of_mem_filter memberB)
    · simpa using ⟨member, after⟩

/-- A proper statement leaves the reactions. -/
theorem reactions_of_answers (answers : tape.Answers act h.state res state) (proper : Proper execute w₀ h act) :
    state.reactions = h.state.reactions := by
  cases answers with
  | fault _ => rfl
  | exec =>
    rcases act with (s | s | s | s | s | s | s | s | s | s | s) | _ | _
    case sql.reaction =>
      cases s with
      | upsertReaction | softDelete => exact proper.elim
      | existsReaction | listReactions => rfl
    all_goals rfl

/-- A proper statement moves a cursor, if any, to where it covers its shard. -/
theorem cursorOf_of_answers (answers : tape.Answers act h.state res state) (proper : Proper execute w₀ h act)
    {r : Reaction} (isActive : r ∈ active w₀) (shard : Nat) :
    cursorOf state r.reactionId shard = cursorOf h.state r.reactionId shard ∨
      Covered execute h r shard (cursorOf state r.reactionId shard) := by
  cases answers with
  | fault _ => exact .inl rfl
  | exec =>
    rcases act with (s | s | s | s | s | s | s | s | s | s | s) | _ | _
    case sql.cursor =>
      cases s with
      | seedCursor => exact proper.elim
      | getCursor | journalHead => exact .inl rfl
      | setCursor reactionId shard' globalSeq nowMs =>
        obtain ⟨r', isActive', s, -, rfl, rfl, covered⟩ := proper
        have moved := cursorOf_setCursor h.state r'.reactionId r.reactionId s shard globalSeq nowMs
        split at moved
        next same =>
          -- two active reactions with one id are the same reaction
          obtain rfl : r' = r := List.inj_on_of_nodup_map (nodup_active w₀) isActive' isActive same.1
          obtain rfl : s = shard := by omega
          have moved : cursorOf (tape.exec (.cursor (.setCursor r'.reactionId s globalSeq nowMs)) h.state).2
            r'.reactionId s = globalSeq := moved
          rw [moved]
          exact .inr covered
        next => exact .inl moved
    all_goals exact .inl rfl

theorem Consistent.active_eq (consistent : Consistent execute w₀ h) : active h.state = active w₀ := by
  rw [active, consistent.reactions, active]

theorem Consistent.push (consistent : Consistent execute w₀ h) (answers : tape.Answers act h.state res state)
    (above : insertsAboveReads execute w₀ h act) (proper : Proper execute w₀ h act) :
    Consistent execute w₀ (h.push tid act res state) where
  reactions := (reactions_of_answers answers proper).trans consistent.reactions
  unique := Journal.unique_of_answers answers consistent.unique
  cursors r isActive shard bound := by
    rcases cursorOf_of_answers answers proper isActive shard with same | covered
    · rw [Hist.push_state, same]
      exact (consistent.cursors r isActive shard bound).push isActive answers above
    · exact covered.push isActive answers above
  reads tid' start limit entries member := by
    rcases List.mem_cons.mp member with new | old
    · cases new
      obtain ⟨read, rfl⟩ := exec_of_ok answers
      obtain rfl := Except.ok.inj read
      exact complete_tail (h := h.push tid _ _ _) consistent.unique start limit
    · exact (consistent.reads tid' start limit entries old).push old answers above

theorem evolves_push (answers : tape.Answers act h.state res state) (above : insertsAboveReads execute w₀ h act)
    (proper : Proper execute w₀ h act) : Evolves execute w₀ h (h.push tid act res state) where
  log := List.subset_cons_self _ _
  consistent consistent := consistent.push answers above proper
  covered _ isActive _ _ covered := covered.push isActive answers above

end Push

end Tape.Matcher
