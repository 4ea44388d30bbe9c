import Tape.Matcher.Progress
import Tape.Matcher.Replica

/-! # Matching into the task queue

The cursors only promise that a matching entry is attempted at least once, and they may
go backwards.  A task's slot is what makes it once: the slot is a function of reaction
and entry, it is unique in the table, and without debouncing nothing moves a task to
another slot.
-/

namespace Tape.Matcher

open Interleave

/-- The task is that of an entry which one of the reactions selects. -/
def Matched (execute : Cel.Engine) (reactions : List Reaction) (w : World) (task : Task) : Prop :=
  ∃ r ∈ reactions, ∃ e ∈ w.journal.rows, selects execute r e ∧ task.slot = slotOf r e

/-- An entry becomes visible above all that are visible; the numbers come from a counter that starts
    at zero. -/
def becomesVisibleLast (h : TapeHist) : Act → Bool
  | .sql (.journal (.insertEntry row)) =>
    0 < row.globalSeq && h.state.journal.rows.all fun e => e.globalSeq < row.globalSeq
  | _ => true

/-- The reactions are fixed, only matchers write tasks and cursors as matchers do, and entries become visible in
    ascending order. -/
def ascending (_ : Nat) (call : Call) (h : TapeHist) (act : Act) : Bool :=
  (isMatcher call || !changesMatching act) && becomesVisibleLast h act

/-- An `INSERT` of `create_task` failed. -/
def createFailed : TapeEvent → Bool
  | ⟨_, .sql (.task (.insertTask _)), .error _⟩ => true
  | _ => false

/-! ## What was read is visible -/

/-- What was read is in the journal. -/
def ReadVisible (h : TapeHist) : Prop := ∀ event ∈ h.log, ∀ e ∈ readBy event, e ∈ h.state.journal.rows

/-- The journal keeps its entries. -/
theorem entry_kept {w w' : World} {act : Act} {res : act.Res} (answers : tape.Answers act w res w') {e : EventEntry}
    (member : e ∈ w.journal.rows) : e ∈ w'.journal.rows := by
  obtain same | ⟨row, -, grown, -⟩ := Journal.journal_of_answers answers
  · rw [same]
    exact member
  · rw [grown]
    exact List.mem_append_left _ member

theorem ReadVisible.push {tid : Nat} {h : TapeHist} {act : Act} {res : act.Res} {state : World}
    (answers : tape.Answers act h.state res state) (visible : ReadVisible h) :
    ReadVisible (h.push tid act res state) := by
  intro event member e read
  rcases List.mem_cons.mp member with rfl | old
  · obtain ⟨tid', start, limit, entries, same, read⟩ := mem_readBy read
    cases same
    obtain ⟨executed, rfl⟩ := exec_of_ok answers
    obtain rfl := Except.ok.inj executed
    exact JournalStmt.mem_of_mem_tail read
  · exact entry_kept answers (visible event old e read)

/-- Entries that become visible last are above what was read. -/
theorem along_permitted (execute : Cel.Engine) {w : World} {choices : List (Choice Call)}
    (along : tape.Along (System.Permits (fun _ => True) fun tid call h act => ascending tid call h act) (quiet w) choices) :
    tape.Along (System.Permits (fun _ => True) fun tid call h act => permitted execute w tid call h act) (quiet w)
      choices := by
  have visible : ReadVisible (quiet w).toHist := fun event member => by cases member
  have permits : ∀ tid call (h : TapeHist) act, ReadVisible h → ascending tid call h act →
      permitted execute w tid call h act := by
    intro tid call h act visible isAscending
    simp only [ascending, Bool.and_eq_true] at isAscending
    simp only [permitted, Bool.and_eq_true]
    refine ⟨isAscending.1, ?_⟩
    have last := isAscending.2
    unfold insertsAboveReads
    split
    next row =>
      simp only [becomesVisibleLast, Bool.and_eq_true, List.all_eq_true, decide_eq_true_eq] at last
      simp only [Bool.and_eq_true, List.all_eq_true, Bool.or_eq_true, decide_eq_true_eq]
      exact ⟨last.1, fun event member e read r _ => .inr (last.2 e (visible event member e read))⟩
    next => rfl
  refine (System.Along.and_hist (I := ReadVisible) (fun tid h op res state answers holds => holds.push answers) visible
    along).mono ?_
  rintro c choice ⟨visible, allowed⟩
  exact allowed.mono fun tid call act isAscending => permits tid call c.toHist act visible isAscending

/-! ## The queue -/

section Attempted

variable {r : Reaction} {e : EventEntry}

theorem not_isAgent (queues : isQueued r) : isAgent r = false := by
  simp only [isQueued, Bool.or_eq_true, decide_eq_true_eq] at queues
  rcases queues with kind | kind <;> simp [isAgent, kind]

/-- For a queueing reaction the only attempt that can fail is the `INSERT`. -/
theorem createFailed_of_attempts (notAgent : isAgent r = false) {event : TapeEvent}
    (isFailed : failed event) (isAttempt : attempts r e event) : createFailed event := by
  obtain ⟨tid, act, res⟩ := event
  rcases act with (s | s | s | s | s | s | s | s | s | s | s) | _ | _
  case sql.task =>
    cases s
    case insertTask row =>
      match res with
      | .ok _ => cases isFailed
      | .error _ => rfl
    all_goals cases isAttempt
  case sql.run =>
    cases s
    case insertRun | findInvocation => simp [attempts, notAgent] at isAttempt
    all_goals cases isAttempt
  all_goals cases isAttempt

/-- Where no `INSERT` fails, the work of a queueing reaction is there once it was attempted. -/
theorem worked_of_attempted {log : List TapeEvent} (queues : isQueued r)
    (created : ∀ event ∈ log, createFailed event = false) (attempted : Attempted log r e) : Worked log r e := by
  refine attempted.worked (handled_of_isQueued queues) fun event member isFailed => ?_
  cases isAttempt : attempts r e event with
  | false => rfl
  | true =>
    have isCreate := createFailed_of_attempts (not_isAgent queues) isFailed isAttempt
    rw [created event member] at isCreate
    cases isCreate

end Attempted

/-- Every task is that of a matching entry, and a slot that was asked for is filled. -/
structure Queued (execute : Cel.Engine) (w₀ : World) (h : TapeHist) : Prop where
  matched : ∀ task ∈ h.state.tasks.rows, Matched execute (active w₀) h.state task
  filled : ∀ (tid : Nat) (row : Task) (n : Nat), ⟨tid, .task (.insertTask row), .ok n⟩ ∈ h.log →
    ∃ task ∈ h.state.tasks.rows, task.slot = row.slot

section Queued

variable {execute : Cel.Engine} {w₀ : World} {tid : Nat} {h : TapeHist} {act : Act} {res : act.Res} {state : World}

/-- Without debouncing nothing is coalesced. -/
theorem not_coalesce (undebounced : ∀ r ∈ active w₀, r.debounceMs = 0) {s : TaskStmt}
    (proper : Proper execute w₀ h (.task s)) : s.isCoalesce = false := by
  cases s with
  | coalesceTask =>
    obtain ⟨r, isActive, _, -, -, -, debounced, -⟩ := proper
    have none := undebounced r isActive
    omega
  | _ => rfl

theorem Queued.push (undebounced : ∀ r ∈ active w₀, r.debounceMs = 0) (answers : tape.Answers act h.state res state)
    (proper : Proper execute w₀ h act) (queued : Queued execute w₀ h) :
    Queued execute w₀ (h.push tid act res state) := by
  constructor
  · intro task' member
    rcases task_origin answers member with ⟨task, old, kept⟩ | rfl
    · obtain ⟨r, isActive, e, listed, selected, slot⟩ := queued.matched task old
      refine ⟨r, isActive, e, entry_kept answers listed, selected, ?_⟩
      rcases kept with rfl | ⟨s, rfl, -, rfl⟩
      · exact slot
      · rw [TaskStmt.slot_assign (not_coalesce undebounced proper), slot]
    · obtain ⟨r, isActive, e, listed, -, selected, slot, -⟩ := proper
      exact ⟨r, isActive, e, entry_kept answers listed, selected, slot⟩
  · intro tid' row n executed
    rcases List.mem_cons.mp executed with new | old
    · cases new
      exact slot_filled_of_insertTask answers
    · obtain ⟨task, member, slot⟩ := queued.filled tid' row n old
      obtain ⟨task', member', kept⟩ := task_kept answers member
      refine ⟨task', member', ?_⟩
      rcases kept with rfl | ⟨s, rfl, -, rfl⟩
      · exact slot
      · rw [TaskStmt.slot_assign (not_coalesce undebounced proper), slot]

/-- The work of a queueing reaction without debouncing is a task in the entry's slot. -/
theorem slot_filled_of_attempted (undebounced : ∀ r ∈ active w₀, r.debounceMs = 0) (queued : Queued execute w₀ h)
    {r : Reaction} (isActive : r ∈ active w₀) (queues : isQueued r) {e : EventEntry}
    (created : ∀ event ∈ h.log, createFailed event = false) (attempted : Attempted h.log r e) :
    ∃ task ∈ h.state.tasks.rows, task.slot = slotOf r e := by
  cases worked_of_attempted queues created attempted with
  | created _ slot executed =>
    obtain ⟨task, member, filled⟩ := queued.filled _ _ _ executed
    exact ⟨task, member, filled.trans slot⟩
  | coalesced _ debounced =>
    have none := undebounced r isActive
    omega
  | begun isAgent => rw [not_isAgent queues] at isAgent; cases isAgent
  | found isAgent => rw [not_isAgent queues] at isAgent; cases isAgent

end Queued

/-! ## Exactly once -/

/-- **Matching is exactly once.**  Take fixed reactions that queue tasks without debouncing, a database
    without cursors, where nothing was processed yet, any number of matchers and any other calls,
    stopped anywhere, where only the matchers write tasks and cursors as matchers do, the entries become
    visible in ascending order, and no `INSERT` of a task fails.  Whenever an active reaction selects an entry that is at
    or below the cursor of its shard, the queue has exactly one task of that reaction and entry; and
    it has only tasks of entries that their reactions select, and no two of one reaction and entry. -/
theorem matching_exactly_once (execute : Cel.Engine) (w : World) (choices : List (Choice Call)) (initial : Initial w)
    (queueing : ∀ r ∈ active w, isQueued r ∧ r.debounceMs = 0)
    (matched : ∀ task ∈ w.tasks.rows, Matched execute (active w) w task)
    (sameEngine : ∀ tick, Choice.spawn (.matcherStep tick) ∈ choices → tick.execute = execute)
    (along : tape.Along (System.Permits (fun _ => True) fun tid call h act => ascending tid call h act) (quiet w) choices)
    (created : ∀ event ∈ (tape.run (quiet w) choices).log, createFailed event = false) :
    let w' := (tape.run (quiet w) choices).state
    (∀ r ∈ active w', ∀ e ∈ w'.journal.rows, selects execute r e →
      e.globalSeq ≤ cursorOf w' r.reactionId (shardOf r e.runId) →
        ∃! task, task ∈ w'.tasks.rows ∧ task.reactionId = r.reactionId ∧ task.sourceGlobalSeq = e.globalSeq) ∧
      (∀ task ∈ w'.tasks.rows, Matched execute (active w') w' task) ∧
      ∀ a ∈ w'.tasks.rows, ∀ b ∈ w'.tasks.rows,
        a.reactionId = b.reactionId → a.sourceGlobalSeq = b.sourceGlobalSeq → a = b := by
  intro w'
  have undebounced : ∀ r ∈ active w, r.debounceMs = 0 := fun r isActive => (queueing r isActive).2
  have permits := along_permitted execute along
  obtain ⟨consistent, queued⟩ := run_replicas (J := Queued execute w) initial sameEngine
    (fun _ _ _ _ permitted => permitted) permits
    (fun tid call h act res state answers _ proper _ queued => queued.push undebounced answers proper)
    ⟨matched, fun _ _ _ member => by cases member⟩
  have fixed : active w' = active w := consistent.active_eq
  -- reaction and number of an entry determine the slot
  have atMostOne : ∀ a ∈ w'.tasks.rows, ∀ b ∈ w'.tasks.rows,
      a.reactionId = b.reactionId → a.sourceGlobalSeq = b.sourceGlobalSeq → a = b := by
    intro a memberA b memberB sameReaction sameNumber
    obtain ⟨r, isActive, e, listed, -, slot⟩ := queued.matched a memberA
    obtain ⟨r', isActive', e', listed', -, slot'⟩ := queued.matched b memberB
    refine Sql.UniqueTable.eq_of_index memberA memberB ?_
    simp only [Task.slot, slotOf, Prod.mk.injEq] at slot slot'
    obtain rfl : r = r' := List.inj_on_of_nodup_map (nodup_active w) isActive isActive'
      (slot.1.symm.trans (sameReaction.trans slot'.1))
    obtain rfl : e = e' := consistent.unique e listed e' listed'
      (slot.2.2.symm.trans (sameNumber.trans slot'.2.2))
    simp only [Task.slot, slot, slot']
  refine ⟨fun r isActive e listed selected below => ?_, fun task member => fixed ▸ queued.matched task member, atMostOne⟩
  rw [fixed] at isActive
  have attempted := attempted_of_cursor initial sameEngine permits isActive listed selected below
  obtain ⟨task, member, slot⟩ :=
    slot_filled_of_attempted undebounced queued isActive (queueing r isActive).1 created attempted
  simp only [Task.slot, slotOf, Prod.mk.injEq] at slot
  refine ⟨task, ⟨member, slot.1, slot.2.2⟩, ?_⟩
  rintro other ⟨memberOther, reaction, number⟩
  exact atMostOne other memberOther task member (reaction.trans slot.1.symm) (number.trans slot.2.2.symm)

/-- Two entries, and the counter at the second. -/
def twoEntries : World := { busyRun 2 with globalSeq := 2 }

theorem initial_twoEntries : Initial twoEntries where
  cursors := rfl
  positive e member := by
    obtain ⟨n, -, rfl⟩ := List.mem_map.mp member
    simp only [effectEntry]
    omega
  unique a memberA b memberB same := by
    obtain ⟨n, -, rfl⟩ := List.mem_map.mp memberA
    obtain ⟨m, -, rfl⟩ := List.mem_map.mp memberB
    simp only [effectEntry] at same
    have equal : n = m := by omega
    rw [equal]

/-- A matcher stops in the middle of its batch, a second one takes the whole batch, another run
    begins, and the first matcher goes on. -/
def overtaken : List (Choice Call) :=
  .spawn (.matcherStep numbered) :: List.replicate 7 (.exec 0) ++ serve 1 (.matcherStep numbered) ++
    serve 2 (.beginRun 0 "app" "u" "s" "i" {} "driver" 0 1000 "q") ++ List.replicate 8 (.exec 0)

/-- The overtaken matcher finds the tasks there. -/
theorem overtaken_matches_once :
    (tape.run (quiet twoEntries) overtaken).state.tasks.rows.map Task.taskId = ["1", "2"] ∧
      (tape.run (quiet twoEntries) overtaken).state.journal.rows.map EventEntry.globalSeq = [1, 2, 3] ∧
      ∃! task, task ∈ (tape.run (quiet twoEntries) overtaken).state.tasks.rows ∧
        task.reactionId = audit.reactionId ∧ task.sourceGlobalSeq = (effectEntry 1).globalSeq := by
  have sameEngine : ∀ tick, Choice.spawn (.matcherStep tick) ∈ overtaken → tick.execute = numbered.execute := by
    intro tick member
    simp [overtaken, serve] at member
    rw [member]
  have once := matching_exactly_once numbered.execute twoEntries overtaken initial_twoEntries
    (by decide +kernel) (fun task member => by cases member) sameEngine (by decide +kernel) (by decide +kernel)
  refine ⟨by decide +kernel, by decide +kernel, once.1 audit (by decide +kernel) (effectEntry 1) ?_ ?_ ?_⟩
  · have start : effectEntry 1 ∈ (quiet twoEntries).state.journal.rows :=
      List.mem_map_of_mem (List.mem_range.mpr (Nat.lt_succ_self 1))
    exact System.run_state (I := fun w => effectEntry 1 ∈ w.journal.rows) (fun _ _ _ _ answers => entry_kept answers)
      start overtaken
  · decide +kernel
  · decide +kernel

end Tape.Matcher
