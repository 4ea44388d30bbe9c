import Tape.Matcher.Lost

/-! # Another number of shards

`register_reaction` overwrites `num_shards` and leaves the cursors and the tasks, and both
go by shard.  An entry that was processed may have a cursor behind it in its new shard; then
it gets a second task there, as the slot of the first one is in the old shard.  An entry
that was not processed may have its new shard's cursor ahead of it; then it never gets one.

The passes of the matcher are taken whole, with any statements of anybody else between two
of them.
-/

namespace Tape.Matcher

open Interleave

/-! ## What becomes of the tasks -/

/-- Id and reaction of a task, and its slot if it is one of `r`'s. -/
structure SameTask (r : Reaction) (a b : Task) : Prop where
  taskId : b.taskId = a.taskId
  reactionId : b.reactionId = a.reactionId
  slot : a.reactionId = r.reactionId → b.slot = a.slot

theorem SameTask.refl (r : Reaction) (a : Task) : SameTask r a a := ⟨rfl, rfl, fun _ => rfl⟩

theorem SameTask.trans {r : Reaction} {a b c : Task} (first : SameTask r a b) (second : SameTask r b c) :
    SameTask r a c where
  taskId := second.taskId.trans first.taskId
  reactionId := second.reactionId.trans first.reactionId
  slot own := (second.slot (first.reactionId.trans own)).trans (first.slot own)

/-- Reactions, entries and tasks stay, the tasks of `r` in their slots, and every other task comes from
    one that was asked for. -/
structure Grows (r : Reaction) (Asked : Task → Prop) (u v : World) : Prop where
  reactions : v.reactions = u.reactions
  entries : ∀ e ∈ u.journal.rows, e ∈ v.journal.rows
  kept : ∀ a ∈ u.tasks.rows, ∃ b ∈ v.tasks.rows, SameTask r a b
  origin : ∀ b ∈ v.tasks.rows, ∃ a, (a ∈ u.tasks.rows ∨ Asked a) ∧ SameTask r a b

/-- Some task has the slot. -/
def Filled (w : World) (slot : String × Int × Int) : Prop := ∃ task ∈ w.tasks.rows, task.slot = slot

section Grows

variable {r : Reaction} {Asked Asked' : Task → Prop} {u v w : World}

theorem Grows.refl (r : Reaction) (Asked : Task → Prop) (w : World) : Grows r Asked w w where
  reactions := rfl
  entries _ := id
  kept a member := ⟨a, member, SameTask.refl r a⟩
  origin b member := ⟨b, .inl member, SameTask.refl r b⟩

theorem Grows.trans (first : Grows r Asked u v) (second : Grows r Asked v w) : Grows r Asked u w where
  reactions := second.reactions.trans first.reactions
  entries e := second.entries e ∘ first.entries e
  kept a member := by
    obtain ⟨b, memberB, same⟩ := first.kept a member
    obtain ⟨c, memberC, same'⟩ := second.kept b memberB
    exact ⟨c, memberC, same.trans same'⟩
  origin c member := by
    obtain ⟨b, source | asked, same'⟩ := second.origin c member
    · obtain ⟨a, source, same⟩ := first.origin b source
      exact ⟨a, source, same.trans same'⟩
    · exact ⟨b, .inr asked, same'⟩

theorem Grows.mono (grows : Grows r Asked u v) (wider : ∀ row, Asked row → Asked' row) : Grows r Asked' u v where
  reactions := grows.reactions
  entries := grows.entries
  kept := grows.kept
  origin b member := by
    obtain ⟨a, source, same⟩ := grows.origin b member
    exact ⟨a, source.imp_right (wider a), same⟩

theorem Grows.active_eq (grows : Grows r Asked u v) : active v = active u := by
  rw [Matcher.active, grows.reactions, Matcher.active]

/-- A slot of `r` stays filled. -/
theorem Grows.filled (grows : Grows r Asked u v) {shard globalSeq : Int}
    (filled : Filled u (r.reactionId, shard, globalSeq)) : Filled v (r.reactionId, shard, globalSeq) := by
  obtain ⟨a, member, slot⟩ := filled
  obtain ⟨b, memberB, same⟩ := grows.kept a member
  exact ⟨b, memberB, (same.slot (Prod.mk.inj slot).1).trans slot⟩

/-- What a statement does to be counted as growth: it inserts a task that was asked for, or coalesces
    into a task of another reaction, or leaves reactions and the identity of tasks alone. -/
def Growing (r : Reaction) (Asked : Task → Prop) (u : World) : Act → Prop
  | .sql (.task (.insertTask row)) => Asked row
  | .sql (.task (.coalesceTask taskId ..)) => ∀ task ∈ u.tasks.rows, task.taskId = taskId → task.reactionId ≠ r.reactionId
  | .sql (.reaction (.upsertReaction _)) | .sql (.reaction (.softDelete _)) => False
  | _ => True

theorem growing_of_not_write {act : Act} (other : changesMatching act = false) : Growing r Asked u act := by
  unfold Growing
  split
  case h_1 | h_2 | h_3 | h_4 => cases other
  case h_5 => trivial

/-- A task that a statement selects stays the same task. -/
theorem same_assign {s : TaskStmt} {task : Task} (growing : Growing r Asked u (.task s)) (member : task ∈ u.tasks.rows)
    (selected : s.selects task) : SameTask r task (s.assign task) := by
  obtain ⟨taskId, reactionId, -⟩ := identity_assign s task
  refine ⟨taskId, reactionId, fun own => ?_⟩
  cases s with
  | coalesceTask =>
    simp only [TaskStmt.selects, Bool.and_eq_true, decide_eq_true_eq] at selected
    exact absurd own (growing task member selected.1)
  | _ => rfl

theorem grows_of_answers {act : Act} {res : act.Res} (answers : tape.Answers act u res v)
    (growing : Growing r Asked u act) : Grows r Asked u v where
  reactions := by
    cases answers with
    | fault _ => rfl
    | exec =>
      rcases act with (s | s | s | s | s | s | s | s | s | s | s) | _ | _
      case sql.reaction =>
        cases s with
        | upsertReaction | softDelete => exact growing.elim
        | existsReaction | listReactions => rfl
      all_goals rfl
  entries _ member := entry_kept answers member
  kept a member := by
    obtain ⟨b, memberB, rfl | ⟨s, rfl, selected, rfl⟩⟩ := task_kept answers member
    · exact ⟨b, memberB, SameTask.refl r b⟩
    · exact ⟨_, memberB, same_assign growing member selected⟩
  origin b member := by
    rcases task_origin answers member with ⟨a, memberA, rfl | ⟨s, rfl, selected, rfl⟩⟩ | rfl
    · exact ⟨b, .inl memberA, SameTask.refl r b⟩
    · exact ⟨a, .inl memberA, same_assign growing memberA selected⟩
    · exact ⟨b, .inr growing, SameTask.refl r b⟩

/-- A program whose statements all make for growth, wherever they are executed. -/
theorem Grows.alone {α : Type} {program : Prog Act Act.Res α} (grows : Grows r Asked u v)
    (all : program.All fun act => ∀ w, Growing r Asked w act) : Grows r Asked u (tape.alone program v).2 :=
  System.alone_of_all (fun _ w growing grows => grows.trans (grows_of_answers .exec (growing w))) all grows

/-- A statement that makes for growth where it is executed, and such a program after it. -/
theorem Grows.query {α : Type} {s : Stmt} {f : s.Res → StoreM α} (grows : Grows r Asked u v)
    (growing : Growing r Asked v (.sql s)) (all : ∀ value, (f value).run.All fun act => ∀ w, Growing r Asked w act) :
    Grows r Asked u (tape.alone (s.query >>= f).run v).2 := by
  have answers : tape.Answers (.sql s) v (s.exec v).1 (s.exec v).2 := .exec
  have executed := grows.trans (grows_of_answers answers growing)
  cases answer : (s.exec v).1 with
  | error e =>
    have failed : tape.alone s.query.run v = (.error e, (s.exec v).2) := Prod.ext answer rfl
    rw [alone_seq_error failed]
    exact executed
  | ok value =>
    have returned : tape.alone s.query.run v = (.ok value, (s.exec v).2) := Prod.ext answer rfl
    rw [alone_seq returned]
    exact executed.alone (all value)

end Grows

/-! ## One entry -/

/-- The id `create_task` draws for an entry's task. -/
def newTaskId (tick : Tick) (r : Reaction) (e : EventEntry) : String :=
  (tick.around r.reactionId e.globalSeq).newTaskId

/-- The row `create_task` is asked to insert for an entry. -/
def rowFor (tick : Tick) (r : Reaction) (e : EventEntry) : Task :=
  let around := tick.around r.reactionId e.globalSeq
  RunStore.freshTask (taskFor r e around.createdMs) around.taskMs around.newTaskId

section Dispatch

variable {tick : Tick} {r r' : Reaction} {e : EventEntry} {Asked : Task → Prop} {u v : World}

theorem taskId_rowFor (tick : Tick) (r : Reaction) (e : EventEntry) :
    (rowFor tick r e).taskId = newTaskId tick r e := rfl

/-- Coalescing reaches tasks of its own reaction only. -/
theorem Grows.coalesce (undebounced : r'.reactionId = r.reactionId → r'.debounceMs ≤ 0) (windowMs : Int)
    (grows : Grows r Asked u v) : Grows r Asked u (tape.alone (Matcher.coalesce r' e windowMs).run v).2 := by
  unfold Matcher.coalesce
  split
  next debounced =>
    have other : r'.reactionId ≠ r.reactionId := fun same => absurd (undebounced same) (not_le.mpr debounced)
    rw [alone_seq (alone_orElse ..)]
    -- the lookup leaves the database
    split
    next prev found =>
      split
      · rw [alone_seq (alone_orElse ..)]
        have looked : ((TaskStmt.findPending r'.reactionId e.subject).exec v).1 = .ok (some prev) := congrArg Except.ok found
        obtain ⟨listed, reaction, -⟩ := TaskStmt.mem_of_findPending looked
        have own : ∀ task ∈ v.tasks.rows, task.taskId = prev.taskId → task.reactionId ≠ r.reactionId := by
          intro task member same
          obtain rfl : task = prev := List.inj_on_of_nodup_map v.tasks.nodup member listed same
          rw [reaction]
          exact other
        have updated : Grows r Asked u (tape.alone
            (RunStore.coalesceTask prev.taskId e.globalSeq e.payload e.traceId e.spanId).run v).2 := by
          refine grows.query (s := .task (.coalesceTask prev.taskId ..)) own fun (updated : Nat) => ?_
          exact all_ite trivial (all_query fun _ => trivial)
        exact updated
      · exact grows
    next => exact grows
  next => exact grows

/-- What an action leaves does not depend on what becomes of its value. -/
theorem alone_ignore {α β : Type} (action : StoreM α) (value : β) (w : World) :
    (tape.alone (action >>= fun _ => return value).run w).2 = (tape.alone action.run w).2 := by
  cases done : tape.alone action.run w with
  | mk result between =>
    cases result with
    | error e => rw [alone_seq_error done]
    | ok first =>
      rw [alone_seq done]
      rfl

/-- `create_task` for an entry. -/
abbrev create (tick : Tick) (r : Reaction) (e : EventEntry) : StoreM Task :=
  let around := tick.around r.reactionId e.globalSeq
  RunStore.createTask (taskFor r e around.createdMs) around.taskMs around.newTaskId

theorem Grows.create (asked : Asked (rowFor tick r' e)) (grows : Grows r Asked u v) :
    Grows r Asked u (tape.alone (Matcher.create tick r' e).run v).2 := by
  refine grows.query (s := .task (.insertTask (rowFor tick r' e))) asked fun _ => ?_
  refine .exceptBind (all_query fun _ => trivial) fun found => ?_
  cases found <;> exact trivial

/-- Dispatching an entry makes for growth, if the task it may create was asked for. -/
theorem Grows.dispatch (undebounced : r'.reactionId = r.reactionId → r'.debounceMs ≤ 0)
    (asked : isQueued r' → Asked (rowFor tick r' e)) (grows : Grows r Asked u v) :
    Grows r Asked u (tape.alone (Matcher.dispatch tick r' e).run v).2 := by
  have task : isQueued r' →
      Grows r Asked u (tape.alone (dispatchTask r' e (tick.around r'.reactionId e.globalSeq)).run v).2 := by
    intro queues
    have coalesced := grows.coalesce (e := e) undebounced (tick.around r'.reactionId e.globalSeq).windowMs
    obtain ⟨isCoalesced, w, ends⟩ := alone_coalesce r' e (tick.around r'.reactionId e.globalSeq).windowMs v
    rw [ends] at coalesced
    rw [dispatchTask, alone_seq ends]
    cases isCoalesced with
    | true => exact coalesced
    | false =>
      rw [if_neg Bool.false_ne_true, alone_orElse, alone_ignore]
      exact coalesced.create (asked queues)
  simp only [Matcher.dispatch]
  split
  next => exact grows.alone (all_dispatchAgent (fun _ _ => trivial) (fun _ _ => trivial) (fun _ _ => trivial) _ _ _ _)
  next kind => exact task (by simp [isQueued, kind])
  next kind => exact task (by simp [isQueued, kind])
  next => exact grows

end Dispatch

/-! ## One pass -/

/-- No two entries share their number. -/
def UniqueNumbers (w : World) : Prop :=
  ∀ a ∈ w.journal.rows, ∀ b ∈ w.journal.rows, a.globalSeq = b.globalSeq → a = b

/-- The ids that `create_task` draws are new. -/
def Fresh (tick : Tick) (w : World) : Prop :=
  ∀ r ∈ active w, ∀ e ∈ w.journal.rows, w.tasks.find? (newTaskId tick r e) = none ∧
    ∀ r' ∈ active w, ∀ e' ∈ w.journal.rows, newTaskId tick r' e' = newTaskId tick r e →
      r'.reactionId = r.reactionId ∧ e'.globalSeq = e.globalSeq

instance (tick : Tick) (w : World) : Decidable (Fresh tick w) :=
  inferInstanceAs (Decidable (∀ r ∈ active w, ∀ e ∈ w.journal.rows, _ ∧ ∀ r' ∈ active w, ∀ e' ∈ w.journal.rows, _ → _))

/-- What a pass asks for: tasks of entries in its window, and for `r` only of selected ones that are
    ahead of the cursor. -/
def Asking (tick : Tick) (w : World) (r : Reaction) (row : Task) : Prop :=
  ∃ r' ∈ active w, ∃ e ∈ window w, row = rowFor tick r' e ∧
    (r' = r → isQueued r ∧ selects tick.execute r e ∧ Ahead w r e)

/-- After `INSERT … ON CONFLICT DO NOTHING` the slot is filled, unless the id was taken. -/
theorem filled_of_insertTask (row : Task) (w : World) :
    Filled (Stmt.exec (.task (.insertTask row)) w).2 row.slot ∨
      ∃ old ∈ w.tasks.rows, old.taskId = row.taskId ∧ old.slot ≠ row.slot := by
  cases answer : (Stmt.exec (.task (.insertTask row)) w).1 with
  | ok n =>
    have answers : tape.Answers (.sql (.task (.insertTask row))) w (.ok n) (Stmt.exec (.task (.insertTask row)) w).2 :=
      answer ▸ .exec
    exact .inl (slot_filled_of_insertTask answers)
  | error e =>
    simp only [Stmt.exec, TaskStmt.exec] at answer
    split at answer
    · cases answer
    next free =>
      split at answer
      · cases answer
      next refused =>
        simp only [List.any_eq_true, decide_eq_true_eq, not_exists, not_and] at free
        rcases Sql.UniqueTable.taken_of_insert?_none refused with ⟨old, member, same⟩ | ⟨old, member, same⟩
        · exact .inr ⟨old, member, same, free old member⟩
        · exact absurd same (free old member)

section Pass

variable {tick : Tick} {r r' : Reaction} {e : EventEntry} {entries : List EventEntry} {cursors : List Int}
  {w u v : World}

/-- What `create_task` leaves is what its `INSERT` leaves. -/
theorem alone_create (tick : Tick) (r : Reaction) (e : EventEntry) (w : World) :
    (tape.alone (create tick r e).run w).2 = (Stmt.exec (.task (.insertTask (rowFor tick r e))) w).2 := by
  let insert : Stmt := .task (.insertTask (rowFor tick r e))
  cases answer : (insert.exec w).1 with
  | error failure =>
    have failed : tape.alone insert.query.run w = (.error failure, (insert.exec w).2) := Prod.ext answer rfl
    exact congrArg Prod.snd (alone_seq_error failed)
  | ok n =>
    refine (congrArg Prod.snd (alone_query answer)).trans ?_
    let slot := (rowFor tick r e).slot
    refine (congrArg Prod.snd (alone_query (s := .task (.getBySlot slot.1 slot.2.1 slot.2.2)) rfl)).trans ?_
    split <;> rfl

/-- A queueing reaction without debouncing asks for the entry's task. -/
theorem alone_dispatch_of_queued (queues : isQueued r) (undebounced : r.debounceMs ≤ 0) :
    (tape.alone (dispatch tick r e).run w).2 = (Stmt.exec (.task (.insertTask (rowFor tick r e))) w).2 := by
  have task : (tape.alone (dispatchTask r e (tick.around r.reactionId e.globalSeq)).run w).2 =
      (Stmt.exec (.task (.insertTask (rowFor tick r e))) w).2 := by
    have passed : tape.alone (coalesce r e (tick.around r.reactionId e.globalSeq).windowMs).run w = (.ok false, w) := by
      rw [coalesce, if_neg (not_lt.mpr undebounced)]
      rfl
    rw [dispatchTask, alone_seq passed, if_neg Bool.false_ne_true, alone_orElse, alone_ignore]
    exact alone_create tick r e w
  simp only [isQueued, Bool.or_eq_true, decide_eq_true_eq] at queues
  rcases queues with kind | kind
  · simp only [dispatch, kind]
    exact task
  · simp only [dispatch, kind]
    exact task

/-- Its slot is filled then: the id is new, or else the task that has it is the entry's. -/
theorem filled_dispatch (isActive : r ∈ active w) (queues : isQueued r) (undebounced : r.debounceMs ≤ 0)
    (fresh : Fresh tick w) (unique : UniqueNumbers w)
    (inWindow : e ∈ window w) (grows : Grows r (Asking tick w r) w u) :
    Filled (tape.alone (dispatch tick r e).run u).2 (slotOf r e) := by
  have listed := JournalStmt.mem_of_mem_tail inWindow
  rw [alone_dispatch_of_queued queues undebounced]
  rcases filled_of_insertTask (rowFor tick r e) u with filled | ⟨old, member, taken, elsewhere⟩
  · exact filled
  obtain ⟨a, there | ⟨r', isActive', e', inWindow', rfl, -⟩, same⟩ := grows.origin old member
  · have free := (fresh r isActive e listed).1
    rw [← taskId_rowFor, ← taken, same.taskId, Sql.Table.find?_key_of_mem there] at free
    cases free
  · have drawn : newTaskId tick r' e' = newTaskId tick r e := same.taskId.symm.trans taken
    obtain ⟨reaction, number⟩ :=
      (fresh r isActive e listed).2 r' isActive' e' (JournalStmt.mem_of_mem_tail inWindow') drawn
    obtain rfl : r' = r := List.inj_on_of_nodup_map (nodup_active w) isActive' isActive reaction
    obtain rfl : e' = e := unique e' (JournalStmt.mem_of_mem_tail inWindow') e listed number
    exact absurd (same.slot rfl) elsewhere

theorem le_getD_advance {shard : Nat} (bound : shard < cursors.length) (moved : Nat) (globalSeq : Int) :
    cursors.getD shard 0 ≤ (advance cursors moved globalSeq).getD shard 0 := by
  rw [getD_advance bound]
  split <;> omega

variable (isActive : r ∈ active w) (undebounced : r.debounceMs ≤ 0)

include isActive undebounced

theorem Grows.dispatch_of_ahead (isActive' : r' ∈ active w) (inWindow : e ∈ window w)
    (selected : selects tick.execute r' e) (ahead : Ahead w r' e) (grows : Grows r (Asking tick w r) u v) :
    Grows r (Asking tick w r) u (tape.alone (Matcher.dispatch tick r' e).run v).2 := by
  refine grows.dispatch (fun same => ?_) fun queues => ⟨r', isActive', e, inWindow, rfl, ?_⟩
  · obtain rfl : r' = r := List.inj_on_of_nodup_map (nodup_active w) isActive' isActive same
    exact undebounced
  · rintro rfl
    exact ⟨queues, selected, ahead⟩

/-- A batch makes for growth, with cursors at or after those of the database. -/
theorem Grows.processEntries (isActive' : r' ∈ active w) (listed : ∀ e ∈ entries, e ∈ window w)
    (length : cursors.length = shardCount r')
    (held : ∀ shard < shardCount r', cursorOf w r'.reactionId shard ≤ cursors.getD shard 0)
    (grows : Grows r (Asking tick w r) u v) :
    Grows r (Asking tick w r) u (tape.alone (Matcher.processEntries tick r' entries cursors).run v).2 := by
  induction entries generalizing cursors v with
  | nil => exact grows
  | cons e entries inductionHypothesis =>
    have others : ∀ e ∈ entries, e ∈ window w := fun e member => listed e (List.mem_cons_of_mem _ member)
    have moved : ∀ shard < shardCount r', cursorOf w r'.reactionId shard ≤
        (advance cursors (shardOf r' e.runId) e.globalSeq).getD shard 0 :=
      fun shard bound => (held shard bound).trans (le_getD_advance (length.symm ▸ bound) _ _)
    unfold Matcher.processEntries
    simp only
    split
    next => exact inductionHypothesis others length held grows
    next notPast =>
      split
      next => exact inductionHypothesis others ((length_advance ..).trans length) moved grows
      next selected =>
        have ahead : Ahead w r' e := lt_of_le_of_lt (held _ (shardOf_lt r' e.runId)) (not_le.mp notPast)
        rw [alone_seq (Prod.ext (alone_dispatch tick r' e v) rfl)]
        refine inductionHypothesis others ((length_advance ..).trans length) moved ?_
        exact grows.dispatch_of_ahead isActive undebounced isActive' (listed e List.mem_cons_self) (by simpa using selected)
          ahead

/-- A batch fills the slots of the selected entries that are ahead of the cursors. -/
theorem filled_processEntries (queues : isQueued r) (fresh : Fresh tick w)
    (unique : UniqueNumbers w)
    (sorted : entries.Pairwise fun a b => a.globalSeq ≤ b.globalSeq) (listed : ∀ e ∈ entries, e ∈ window w)
    (length : cursors.length = shardCount r)
    (held : ∀ shard < shardCount r, cursorOf w r.reactionId shard ≤ cursors.getD shard 0)
    (grows : Grows r (Asking tick w r) w v) (member : e ∈ entries) (selected : selects tick.execute r e)
    (ahead : cursors.getD (shardOf r e.runId) 0 < e.globalSeq) :
    Filled (tape.alone (Matcher.processEntries tick r entries cursors).run v).2 (slotOf r e) := by
  induction entries generalizing cursors v with
  | nil => cases member
  | cons first entries inductionHypothesis =>
    obtain ⟨least, sortedRest⟩ := List.pairwise_cons.mp sorted
    have others : ∀ e ∈ entries, e ∈ window w := fun e member => listed e (List.mem_cons_of_mem _ member)
    have firstListed := listed first List.mem_cons_self
    have lengthMoved := (length_advance cursors (shardOf r first.runId) first.globalSeq).trans length
    have moved : ∀ shard < shardCount r, cursorOf w r.reactionId shard ≤
        (advance cursors (shardOf r first.runId) first.globalSeq).getD shard 0 :=
      fun shard bound => (held shard bound).trans (le_getD_advance (length.symm ▸ bound) _ _)
    have dispatched : selects tick.execute r first → cursors.getD (shardOf r first.runId) 0 < first.globalSeq →
        Grows r (Asking tick w r) w (tape.alone (dispatch tick r first).run v).2 := fun selected notPast =>
      grows.dispatch_of_ahead isActive undebounced isActive firstListed selected
        (lt_of_le_of_lt (held _ (shardOf_lt r first.runId)) notPast)
    unfold Matcher.processEntries
    simp only
    by_cases same : e = first
    · subst same
      rw [if_neg (not_le.mpr ahead), if_neg (by simp [selected]), alone_seq (Prod.ext (alone_dispatch tick r e v) rfl)]
      have filled := filled_dispatch isActive queues undebounced fresh unique firstListed grows
      have rest := (Grows.refl r (Asking tick w r) (tape.alone (dispatch tick r e).run v).2).processEntries isActive
        undebounced isActive others lengthMoved moved
      exact rest.filled filled
    · have inRest : e ∈ entries := (List.mem_cons.mp member).resolve_left same
      -- the first entry has another number, so it does not take the cursor past this one
      have differs : first.globalSeq ≠ e.globalSeq := fun equal => same
        (unique first (JournalStmt.mem_of_mem_tail firstListed) e (JournalStmt.mem_of_mem_tail (others e inRest)) equal).symm
      have earlier := least e inRest
      have aheadMoved : (advance cursors (shardOf r first.runId) first.globalSeq).getD (shardOf r e.runId) 0 <
          e.globalSeq := by
        rw [getD_advance (length.symm ▸ shardOf_lt r e.runId)]
        split <;> omega
      split
      next => exact inductionHypothesis sortedRest others length held grows inRest ahead
      next notPast =>
        split
        next => exact inductionHypothesis sortedRest others lengthMoved moved grows inRest aheadMoved
        next selectedFirst =>
          rw [alone_seq (Prod.ext (alone_dispatch tick r first v) rfl)]
          exact inductionHypothesis sortedRest others lengthMoved moved
            (dispatched (by simpa using selectedFirst) (not_le.mp notPast)) inRest aheadMoved

omit isActive undebounced in
theorem length_cursorsOf (w : World) (r : Reaction) : (cursorsOf w r).length = shardCount r := by
  simp [cursorsOf]

omit isActive undebounced in
theorem getD_cursorsOf {shard : Nat} (bound : shard < shardCount r) :
    (cursorsOf w r).getD shard 0 = cursorOf w r.reactionId shard := by
  rw [List.getD_eq_getElem?_getD, getElem?_cursorsOf bound, Option.getD_some]

omit isActive undebounced in
/-- Writing the cursors back makes for growth. -/
theorem Grows.persistCursors (tick : Tick) (reactionId : String) (pairs : List (Int × Int)) {Asked : Task → Prop}
    (grows : Grows r Asked u v) :
    Grows r Asked u (tape.alone (Matcher.persistCursors tick reactionId 0 pairs).run v).2 :=
  grows.alone (all_persistCursors (fun _ _ => trivial) reactionId 0 pairs)

omit isActive undebounced in
theorem held_cursorsOf (w : World) (r : Reaction) :
    ∀ shard < shardCount r, cursorOf w r.reactionId shard ≤ (cursorsOf w r).getD shard 0 :=
  fun _ bound => (getD_cursorsOf bound).ge

/-- A reaction's turn in a pass over the window of `w`. -/
theorem Grows.processReaction (isActive' : r' ∈ active w) (grows : Grows r (Asking tick w r) u v) :
    ∃ v', tape.alone (Matcher.processReaction tick (window w) r' (cursorsOf w r')).run v = (.ok (), v') ∧
      Grows r (Asking tick w r) u v' := by
  have batch := grows.processEntries isActive undebounced isActive' (fun _ => id) (length_cursorsOf w r')
    (held_cursorsOf w r')
  obtain ⟨v₁, processed, -⟩ := alone_processEntries tick r' (window w) (cursorsOf w r') v
  obtain ⟨v', persisted, -⟩ := alone_persistCursors tick r'.reactionId 0
    ((cursorsOf w r').zip (advanced r' (window w) (cursorsOf w r'))) v₁
  rw [processed] at batch
  have written := batch.persistCursors tick r'.reactionId ((cursorsOf w r').zip (advanced r' (window w) (cursorsOf w r')))
  rw [persisted] at written
  exact ⟨v', (alone_seq processed).trans persisted, written⟩

/-- The turn of `r` itself. -/
theorem filled_processReaction (queues : isQueued r) (fresh : Fresh tick w) (unique : UniqueNumbers w)
    (sorted : (window w).Pairwise fun a b => a.globalSeq ≤ b.globalSeq) (grows : Grows r (Asking tick w r) w v)
    (member : e ∈ window w) (selected : selects tick.execute r e) (ahead : Ahead w r e) :
    Filled (tape.alone (Matcher.processReaction tick (window w) r (cursorsOf w r)).run v).2 (slotOf r e) := by
  have notPast : (cursorsOf w r).getD (shardOf r e.runId) 0 < e.globalSeq := by
    rw [getD_cursorsOf (shardOf_lt r e.runId)]
    exact ahead
  have filled := filled_processEntries isActive undebounced queues fresh unique sorted (fun _ => id)
    (length_cursorsOf w r) (held_cursorsOf w r) grows member selected notPast
  obtain ⟨v₁, processed, -⟩ := alone_processEntries tick r (window w) (cursorsOf w r) v
  rw [processed] at filled
  rw [Matcher.processReaction, alone_seq processed]
  exact ((Grows.refl r (Asking tick w r) v₁).persistCursors ..).filled filled

theorem Grows.processReactions {reactions : List Reaction} (listed : ∀ r' ∈ reactions, r' ∈ active w)
    (grows : Grows r (Asking tick w r) u v) : Grows r (Asking tick w r) u (tape.alone
      (Matcher.processReactions tick (window w) (reactions.map fun r' => (r', cursorsOf w r'))).run v).2 := by
  induction reactions generalizing v with
  | nil => exact grows
  | cons first reactions inductionHypothesis =>
    obtain ⟨v', processed, grown⟩ := grows.processReaction isActive undebounced (listed first List.mem_cons_self)
    rw [List.map_cons, Matcher.processReactions, alone_seq processed]
    exact inductionHypothesis (fun r' member => listed r' (List.mem_cons_of_mem _ member)) grown

theorem filled_processReactions {reactions : List Reaction} (listed : ∀ r' ∈ reactions, r' ∈ active w)
    (isListed : r ∈ reactions) (queues : isQueued r) (fresh : Fresh tick w)
    (unique : UniqueNumbers w)
    (sorted : (window w).Pairwise fun a b => a.globalSeq ≤ b.globalSeq) (grows : Grows r (Asking tick w r) w v)
    (member : e ∈ window w) (selected : selects tick.execute r e) (ahead : Ahead w r e) :
    Filled (tape.alone (Matcher.processReactions tick (window w)
      (reactions.map fun r' => (r', cursorsOf w r'))).run v).2 (slotOf r e) := by
  induction reactions generalizing v with
  | nil => cases isListed
  | cons first reactions inductionHypothesis =>
    have others : ∀ r' ∈ reactions, r' ∈ active w := fun r' member => listed r' (List.mem_cons_of_mem _ member)
    obtain ⟨v', processed, grown⟩ := grows.processReaction isActive undebounced (listed first List.mem_cons_self)
    rw [List.map_cons, Matcher.processReactions, alone_seq processed]
    rcases List.mem_cons.mp isListed with rfl | inRest
    · have filled := filled_processReaction isActive undebounced queues fresh unique sorted grows member selected ahead
      rw [processed] at filled
      exact ((Grows.refl r (Asking tick w r) v').processReactions isActive undebounced others).filled filled
    · exact inductionHypothesis others inRest grown

theorem grows_pass (tick : Tick) : Grows r (Asking tick w r) w (pass tick w) := by
  rw [pass, alone_step]
  split
  · exact Grows.refl ..
  · exact (Grows.refl ..).processReactions isActive undebounced fun _ => id

/-- A pass fills the slot of every selected entry that it takes the cursor past. -/
theorem filled_pass (queues : isQueued r) (fresh : Fresh tick w)
    (unique : UniqueNumbers w)
    (listed : e ∈ w.journal.rows) (selected : selects tick.execute r e) (ahead : Ahead w r e)
    (passed : ¬Ahead (pass tick w) r e) : Filled (pass tick w) (slotOf r e) := by
  have batch : Complete tick.execute w (quiet w).toHist (minCursor ((active w).flatMap (cursorsOf w))) (window w) :=
    complete_tail (h := (quiet w).toHist) unique _ _
  have bound := shardOf_lt r e.runId
  -- the cursor moved to an entry of the shard that is not before this one, so this one is in the window
  have inWindow : e ∈ window w := by
    rw [Ahead, (cursorOf_pass tick w).2 r isActive _ bound, not_lt] at passed
    rcases furthest_cases r (shardOf r e.runId) (window w) (cursorOf w r.reactionId (shardOf r e.runId)) with
      stays | ⟨last, member, own, ends⟩
    · rw [stays] at passed
      exact absurd ahead (not_lt.mpr passed)
    · rw [ends] at passed
      refine batch.complete last member r isActive e listed selected own (lt_of_le_of_lt ?_ ahead) passed
      refine minCursor_le (List.mem_flatMap.mpr ⟨r, isActive, ?_⟩)
      rw [← getD_cursorsOf bound, List.getD_eq_getElem?_getD, List.getElem?_eq_getElem (length_cursorsOf w r ▸ bound)]
      exact List.getElem_mem _
  have busy : ((active w).isEmpty || (window w).isEmpty) = false := by
    cases reactions : active w with
    | nil => simp [reactions] at isActive
    | cons => cases entries : window w with
      | nil => simp [entries] at inWindow
      | cons => rfl
  rw [pass, alone_step, if_neg (by simp [busy])]
  exact filled_processReactions isActive undebounced (fun _ => id) isActive queues fresh unique batch.sorted
    (Grows.refl ..) inWindow selected ahead

end Pass

/-! ## Passes to come -/

/-- What can follow: whole passes of the matcher, and between two of them any statements that are no
    matcher's writes, executed or failed. -/
inductive Continued (execute : Cel.Engine) (w : World) : World → Prop
  | start : Continued execute w w
  | pass {v : World} {tick : Tick} (before : Continued execute w v) (sameEngine : tick.execute = execute)
      (fresh : Fresh tick v) : Continued execute w (pass tick v)
  | other {v v' : World} {act : Act} {res : act.Res} (before : Continued execute w v)
      (noMatcher : changesMatching act = false) (answers : tape.Answers act v res v') : Continued execute w v'

/-- What the passes from `w` to `v` did for `r`: new tasks are those of selected entries that were ahead of
    their cursor, and where the cursor has passed one of them its slot is filled. -/
structure Progressed (execute : Cel.Engine) (r : Reaction) (w v : World) : Prop where
  grows : Grows r (fun row => row.reactionId = r.reactionId → ∃ e ∈ v.journal.rows,
    isQueued r ∧ selects execute r e ∧ Ahead w r e ∧ row.slot = slotOf r e) w v
  unique : UniqueNumbers v
  cursors : ∀ shard < shardCount r, cursorOf w r.reactionId shard ≤ cursorOf v r.reactionId shard
  passed : isQueued r → ∀ e ∈ w.journal.rows, selects execute r e → Ahead w r e → ¬Ahead v r e →
    Filled v (slotOf r e)

section Continued

variable {execute : Cel.Engine} {r : Reaction} {w v v' : World}

theorem reactionCursors_of_answers {act : Act} {res : act.Res} (noMatcher : changesMatching act = false)
    (answers : tape.Answers act v res v') : v'.reactionCursors = v.reactionCursors := by
  cases answers with
  | fault _ => rfl
  | exec =>
    rcases act with (s | s | s | s | s | s | s | s | s | s | s) | _ | _
    case sql.cursor =>
      cases s with
      | setCursor | seedCursor => cases noMatcher
      | getCursor | journalHead => rfl
    all_goals rfl

theorem Progressed.refl (unique : UniqueNumbers w) :
    Progressed execute r w w where
  grows := Grows.refl ..
  unique := unique
  cursors _ _ := le_refl _
  passed _ _ _ _ ahead notAhead := absurd ahead notAhead

theorem Progressed.ahead (progressed : Progressed execute r w v) {e : EventEntry} (ahead : Ahead v r e) :
    Ahead w r e :=
  lt_of_le_of_lt (progressed.cursors _ (shardOf_lt r e.runId)) ahead

theorem Progressed.trans (first : Progressed execute r w v) (second : Progressed execute r v v') :
    Progressed execute r w v' where
  grows := by
    refine (first.grows.mono fun row asked own => ?_).trans (second.grows.mono fun row asked own => ?_)
    · obtain ⟨e, listed, matching⟩ := asked own
      exact ⟨e, second.grows.entries e listed, matching⟩
    · obtain ⟨e, listed, queues, selected, ahead, slot⟩ := asked own
      exact ⟨e, listed, queues, selected, first.ahead ahead, slot⟩
  unique := second.unique
  cursors shard bound := (first.cursors shard bound).trans (second.cursors shard bound)
  passed queues e listed selected ahead notAhead := by
    by_cases between : Ahead v r e
    · exact second.passed queues e (first.grows.entries e listed) selected between notAhead
    · exact second.grows.filled (first.passed queues e listed selected ahead between)

theorem progressed_pass {tick : Tick} (isActive : r ∈ active w) (undebounced : r.debounceMs ≤ 0) (fresh : Fresh tick w)
    (unique : UniqueNumbers w) :
    Progressed tick.execute r w (pass tick w) where
  grows := by
    have grows := grows_pass isActive undebounced tick
    refine grows.mono fun row asked own => ?_
    obtain ⟨r', isActive', e, inWindow, rfl, matching⟩ := asked
    obtain rfl : r' = r := List.inj_on_of_nodup_map (nodup_active w) isActive' isActive own
    obtain ⟨queues, selected, ahead⟩ := matching rfl
    exact ⟨e, grows.entries e (JournalStmt.mem_of_mem_tail inWindow), queues, selected, ahead, rfl⟩
  unique := System.alone_of_all (S := tape) (p := fun _ => True) (I := UniqueNumbers)
    (fun _ _ _ unique => Journal.unique_of_answers .exec unique) (Prog.all_true _) unique
  cursors shard bound := by
    rw [(cursorOf_pass tick w).2 r isActive shard bound]
    exact le_furthest ..
  passed queues e listed selected ahead notAhead :=
    filled_pass isActive undebounced queues fresh unique listed selected ahead notAhead

theorem progressed_of_answers {act : Act} {res : act.Res} (noMatcher : changesMatching act = false)
    (answers : tape.Answers act w res v)
    (unique : UniqueNumbers w) :
    Progressed execute r w v where
  grows := grows_of_answers answers (growing_of_not_write noMatcher)
  unique := Journal.unique_of_answers answers unique
  cursors shard _ := by rw [cursorOf, cursorOf, reactionCursors_of_answers noMatcher answers]
  passed _ e _ _ ahead notAhead := by
    refine absurd ?_ notAhead
    rw [Ahead, cursorOf, reactionCursors_of_answers noMatcher answers]
    exact ahead

theorem progressed_of_continued (isActive : r ∈ active w) (undebounced : r.debounceMs ≤ 0)
    (unique : UniqueNumbers w)
    (continued : Continued execute w v) : Progressed execute r w v := by
  induction continued with
  | start => exact Progressed.refl unique
  | pass _ sameEngine fresh progressed =>
    subst sameEngine
    exact progressed.trans
      (progressed_pass (progressed.grows.active_eq ▸ isActive) undebounced fresh progressed.unique)
  | other _ noMatcher answers progressed =>
    exact progressed.trans (progressed_of_answers noMatcher answers progressed.unique)

end Continued

/-! ## Registering with another number of shards -/

/-- `register_reaction` for a reaction that is there, alone. -/
def reregister (w : World) (r : Reaction) (numShards : Int) (bootstrapFromHead : Bool) (now : Int) (newId : String) :
    World :=
  (tape.alone (RunStore.registerReaction { r with numShards } bootstrapFromHead now newId).run w).2

/-- The row it leaves. -/
def resharded (r : Reaction) (numShards now : Int) : Reaction :=
  { RunStore.registeredReaction { r with numShards } r.reactionId now with
    createdAtMs := r.createdAtMs
    deleted := false }

/-- The tasks of an entry, whatever their shard. -/
def entryTasks (w : World) (r : Reaction) (e : EventEntry) : List Task :=
  w.tasks.rows.filter fun task => task.reactionId = r.reactionId && task.sourceGlobalSeq = e.globalSeq

/-- No work is lost or repeated from `w`, where `r` was registered, to `v`, where `r'` is: an entry that was
    not processed has a task once the cursor has passed it, and a new task is the only one of its entry. -/
structure KeepsWork (execute : Cel.Engine) (r r' : Reaction) (w v : World) : Prop where
  kept : ∀ e ∈ w.journal.rows, selects execute r e → Ahead w r e → ¬Ahead v r' e → entryTasks v r e ≠ []
  once : ∀ e ∈ w.journal.rows, ∀ task ∈ entryTasks v r e, w.tasks.find? task.taskId = none →
    ∀ other ∈ entryTasks v r e, other = task

/-- The cursors and tasks that `r` leaves suit the shards of `r'`. -/
structure Reshardable (execute : Cel.Engine) (r r' : Reaction) (w : World) : Prop where
  ahead : ∀ e ∈ w.journal.rows, selects execute r e → Ahead w r e → entryTasks w r e = [] → isQueued r ∧ Ahead w r' e
  placed : ∀ e ∈ w.journal.rows, selects execute r e → isQueued r → Ahead w r' e → entryTasks w r e ≠ [] →
    ∃ task ∈ entryTasks w r e, task.shard = shardOf r' e.runId

section Reshard

variable {execute : Cel.Engine} {r r' : Reaction} {e : EventEntry} {w v : World} {task : Task}

theorem mem_entryTasks : task ∈ entryTasks w r e ↔
    task ∈ w.tasks.rows ∧ task.reactionId = r.reactionId ∧ task.sourceGlobalSeq = e.globalSeq := by
  simp [entryTasks]

section Reregister

variable (registered : r ∈ w.reactions.rows) (named : r.reactionId ≠ "") (numShards now : Int) (bootstrapFromHead : Bool)
  (newId : String)

include registered named

/-- The upsert is all that a registration does to a reaction that is there. -/
theorem reregister_eq : reregister w r numShards bootstrapFromHead now newId =
    (Stmt.exec (.reaction (.upsertReaction (RunStore.registeredReaction { r with numShards } r.reactionId now))) w).2 := by
  let reactionId := if r.reactionId.isEmpty then newId else r.reactionId
  have given : reactionId = r.reactionId := by simp [reactionId, named]
  have preExists : (Stmt.exec (.reaction (.existsReaction reactionId)) w).1 = .ok true := by
    have there : (w.reactions.find? reactionId).isSome = true := by
      rw [given, Sql.Table.find?_key_of_mem registered]
      rfl
    exact congrArg Except.ok there
  let row := RunStore.registeredReaction { r with numShards } reactionId now
  have upserted : (Stmt.exec (.reaction (.upsertReaction row)) w).1 = .ok (1 : Nat) := rfl
  rw [← given]
  refine (congrArg Prod.snd (alone_query preExists)).trans ?_
  refine (congrArg Prod.snd (alone_query upserted)).trans ?_
  refine (congrArg Prod.snd (alone_query (s := .reaction (.listReactions "")) (listReactions_eq_active _))).trans ?_
  split <;> rfl

theorem mem_active_reregister :
    resharded r numShards now ∈ active (reregister w r numShards bootstrapFromHead now newId) := by
  rw [reregister_eq registered named]
  let row := RunStore.registeredReaction { r with numShards } r.reactionId now
  have found : (Stmt.exec (.reaction (.upsertReaction row)) w).2.reactions.find? r.reactionId =
      some (resharded r numShards now) := by
    refine (Sql.Table.find?_upsert ..).trans ((if_pos rfl).trans ?_)
    rw [Sql.Table.find?_key_of_mem registered]
    rfl
  exact (List.mem_insertionSort _).mpr (List.mem_filter.mpr ⟨Sql.Table.mem_of_find? found, rfl⟩)

end Reregister

section Progressed

variable (progressed : Progressed execute r w v)

include progressed

theorem entryTasks_kept (member : task ∈ entryTasks w r e) : ∃ task' ∈ entryTasks v r e, SameTask r task task' := by
  obtain ⟨there, reaction, number⟩ := mem_entryTasks.mp member
  obtain ⟨task', there', same⟩ := progressed.grows.kept task there
  have slot := same.slot reaction
  simp only [Task.slot, Prod.mk.injEq] at slot
  exact ⟨task', mem_entryTasks.mpr ⟨there', same.reactionId.trans reaction, slot.2.2.trans number⟩, same⟩

/-- A task of an entry was there, or it is new: in the entry's slot, and the entry was ahead. -/
theorem entryTasks_origin (listed : e ∈ w.journal.rows) (member : task ∈ entryTasks v r e) :
    (∃ old ∈ entryTasks w r e, SameTask r old task) ∨
      isQueued r ∧ selects execute r e ∧ Ahead w r e ∧ task.slot = slotOf r e := by
  obtain ⟨there, reaction, number⟩ := mem_entryTasks.mp member
  obtain ⟨old, source, same⟩ := progressed.grows.origin task there
  have own : old.reactionId = r.reactionId := same.reactionId.symm.trans reaction
  have slot := same.slot own
  rcases source with old' | asked
  · simp only [Task.slot, Prod.mk.injEq] at slot
    exact .inl ⟨old, mem_entryTasks.mpr ⟨old', own, slot.2.2.symm.trans number⟩, same⟩
  · obtain ⟨e', listed', queues, selected, ahead, place⟩ := asked own
    have place := slot.trans place
    have equal := congrArg (fun slot => slot.2.2) place
    obtain rfl : e' = e :=
      progressed.unique e' listed' e (progressed.grows.entries e listed) (equal.symm.trans number)
    exact .inr ⟨queues, selected, ahead, place⟩

omit progressed in
/-- A task that was there is not new. -/
theorem find?_ne_none {old : Task} (there : old ∈ w.tasks.rows) (same : SameTask r old task) :
    w.tasks.find? task.taskId ≠ none := by
  rw [same.taskId, Sql.Table.find?_key_of_mem there]
  exact Option.some_ne_none _

end Progressed

section Resharded

variable {numShards now : Int} (progressed : Progressed execute (resharded r numShards now) w v)

include progressed

theorem keepsWork_of_reshardable (reshardable : Reshardable execute r (resharded r numShards now) w) :
    KeepsWork execute r (resharded r numShards now) w v where
  kept e listed selected unprocessed passed := by
    by_cases idle : entryTasks w r e = []
    · obtain ⟨queues, ahead⟩ := reshardable.ahead e listed selected unprocessed idle
      obtain ⟨task, there, slot⟩ := progressed.passed queues e listed selected ahead passed
      simp only [Task.slot, slotOf, Prod.mk.injEq] at slot
      exact List.ne_nil_of_mem (mem_entryTasks.mpr ⟨there, slot.1, slot.2.2⟩)
    · obtain ⟨old, member⟩ := List.exists_mem_of_ne_nil _ idle
      obtain ⟨task, member', -⟩ := entryTasks_kept progressed member
      exact List.ne_nil_of_mem member'
  once e listed task member isNew other memberOther := by
    have there := (mem_entryTasks.mp member).1
    have thereOther := (mem_entryTasks.mp memberOther).1
    obtain ⟨old, memberOld, same⟩ | ⟨queues, selected, ahead, slot⟩ := entryTasks_origin progressed listed member
    · exact absurd isNew (find?_ne_none (mem_entryTasks.mp memberOld).1 same)
    obtain ⟨old, memberOld, -⟩ | ⟨-, -, -, slotOther⟩ := entryTasks_origin progressed listed memberOther
    · -- the entry had a task in its new shard, and the new task is in the same slot
      obtain ⟨placed, memberPlaced, shard⟩ :=
        reshardable.placed e listed selected queues ahead (List.ne_nil_of_mem memberOld)
      obtain ⟨therePlaced, reaction, number⟩ := mem_entryTasks.mp memberPlaced
      obtain ⟨task', memberTask', same⟩ := entryTasks_kept progressed memberPlaced
      have slot' : task'.slot = task.slot := by
        rw [same.slot reaction, slot, Task.slot, reaction, shard, number]
        rfl
      obtain rfl := Sql.UniqueTable.eq_of_index (mem_entryTasks.mp memberTask').1 there slot'
      exact absurd isNew (find?_ne_none therePlaced same)
    · exact Sql.UniqueTable.eq_of_index thereOther there (slotOther.trans slot.symm)

/-- When every cursor has passed its entries, work was lost or repeated unless the shards suit. -/
theorem reshardable_of_keepsWork (caughtUp : ∀ e ∈ w.journal.rows, ¬Ahead v (resharded r numShards now) e)
    (keepsWork : KeepsWork execute r (resharded r numShards now) w v) :
    Reshardable execute r (resharded r numShards now) w where
  ahead e listed selected unprocessed idle := by
    obtain ⟨task, member⟩ :=
      List.exists_mem_of_ne_nil _ (keepsWork.kept e listed selected unprocessed (caughtUp e listed))
    obtain ⟨old, memberOld, -⟩ | ⟨queues, -, ahead, -⟩ := entryTasks_origin progressed listed member
    · have none : old ∈ entryTasks w r e := memberOld
      rw [idle] at none
      cases none
    · exact ⟨queues, ahead⟩
  placed e listed selected queues ahead worked := by
    obtain ⟨task, there, slot⟩ := progressed.passed queues e listed selected ahead (caughtUp e listed)
    have place := slot
    simp only [Task.slot, slotOf, Prod.mk.injEq] at place
    have member : task ∈ entryTasks v r e := mem_entryTasks.mpr ⟨there, place.1, place.2.2⟩
    -- the task was there: a new one would be the only one
    obtain ⟨old, memberOld, same⟩ : ∃ old ∈ entryTasks w r e, SameTask (resharded r numShards now) old task := by
      cases found : w.tasks.find? task.taskId with
      | none =>
        obtain ⟨old, memberOld⟩ := List.exists_mem_of_ne_nil _ worked
        obtain ⟨task', member', same⟩ := entryTasks_kept progressed memberOld
        obtain rfl := keepsWork.once e listed task member found task' member'
        exact ⟨old, memberOld, same⟩
      | some old =>
        have thereOld := Sql.Table.mem_of_find? found
        obtain ⟨task', there', same⟩ := progressed.grows.kept old thereOld
        obtain rfl : task' = task := List.inj_on_of_nodup_map v.tasks.nodup there' there
          (same.taskId.trans (Sql.Table.key_of_find? found))
        have own : old.reactionId = r.reactionId := same.reactionId.symm.trans place.1
        have slotOld := same.slot own
        simp only [Task.slot, Prod.mk.injEq] at slotOld
        exact ⟨old, mem_entryTasks.mpr ⟨thereOld, own, slotOld.2.2.symm.trans place.2.2⟩, same⟩
    have slotOld := same.slot (mem_entryTasks.mp memberOld).2.1
    rw [slot] at slotOld
    exact ⟨old, memberOld, (congrArg (fun slot => slot.2.1) slotOld).symm⟩

end Resharded

/-- The numbers are unique in every database that calls can lead to. -/
theorem uniqueNumbers_of_run (dialect : Subjects.Dialect) (history : List (Choice Call)) :
    UniqueNumbers (tape.run (quiet (World.empty dialect)) history).state := by
  refine System.run_state (I := UniqueNumbers) (fun _ _ _ _ answers => Journal.unique_of_answers answers) ?_ history
  intro a member
  cases member

end Reshard

/-- **When another number of shards keeps the work.**  Take any history of calls from an empty database,
    and a reaction without debouncing that is registered again with any number of shards.  If every
    selected entry that was not processed, and has no task, is ahead of the cursor of its new shard, and
    every selected entry ahead of that cursor that has a task has one in its new shard, then no work is
    lost or repeated, however many passes follow.  And if that is not so, work is lost or repeated as
    soon as the cursors have passed the entries. -/
theorem reshard_keeps_work_iff (execute : Cel.Engine) (dialect : Subjects.Dialect) (history : List (Choice Call)) (w v : World)
    (reached : (tape.run (quiet (World.empty dialect)) history).state = w) (r : Reaction)
    (registered : r ∈ w.reactions.rows) (named : r.reactionId ≠ "") (undebounced : r.debounceMs ≤ 0)
    (numShards now : Int) (bootstrapFromHead : Bool) (newId : String)
    (continued : Continued execute (reregister w r numShards bootstrapFromHead now newId) v) :
    (Reshardable execute r (resharded r numShards now) w → KeepsWork execute r (resharded r numShards now) w v) ∧
      ((∀ e ∈ w.journal.rows, ¬Ahead v (resharded r numShards now) e) →
        (KeepsWork execute r (resharded r numShards now) w v ↔ Reshardable execute r (resharded r numShards now) w)) := by
  have isActive := mem_active_reregister registered named numShards now bootstrapFromHead newId
  rw [reregister_eq registered named] at continued isActive
  have unique : UniqueNumbers w := reached ▸ uniqueNumbers_of_run dialect history
  have progressed := progressed_of_continued isActive undebounced unique continued
  -- the registration left cursors, entries and tasks
  have keeps : Reshardable execute r (resharded r numShards now) w →
      KeepsWork execute r (resharded r numShards now) w v := by
    rintro ⟨ahead, placed⟩
    obtain ⟨kept, once⟩ := keepsWork_of_reshardable progressed ⟨ahead, placed⟩
    exact ⟨kept, once⟩
  refine ⟨keeps, fun caughtUp => ⟨?_, keeps⟩⟩
  rintro ⟨kept, once⟩
  obtain ⟨ahead, placed⟩ := reshardable_of_keepsWork progressed caughtUp ⟨kept, once⟩
  exact ⟨ahead, placed⟩

/-- A pass that draws other ids than the one before. -/
def again : Tick := { numbered with around _ globalSeq := { newTaskId := "again-" ++ toString globalSeq } }

def twoShardAudit : Reaction := { runAudit with numShards := 2 }

/-- Run `"s1"` was processed, and run `"s2"` has begun since. -/
def halfway : World :=
  (tape.run (quiet (World.empty .sqlite)) (serve 0 (.registerReaction twoShardAudit false 1 "") ++
    serve 1 (Journal.writer "s1") ++ serve 2 (.matcherStep numbered) ++ serve 3 (Journal.writer "s2"))).state

/-- Under four shards both runs have the number of the shard they had under two. -/
theorem four_shards_keep_work :
    KeepsWork numbered.execute twoShardAudit (resharded twoShardAudit 4 1) halfway
        (pass again (reregister halfway twoShardAudit 4 false 1 "")) ∧
      (pass again (reregister halfway twoShardAudit 4 false 1 "")).tasks.rows.map Task.taskId = ["1", "again-2"] := by
  have reshards := reshard_keeps_work_iff numbered.execute .sqlite _ halfway
    (pass again (reregister halfway twoShardAudit 4 false 1 "")) rfl twoShardAudit (by decide +kernel) (by decide)
    (by decide) 4 1 false "" (.pass .start rfl (by decide +kernel))
  exact ⟨reshards.1 ⟨by decide +kernel, by decide +kernel⟩, by decide +kernel⟩

/-- Run `"s1"` was processed under one shard. -/
def processed : World :=
  (tape.run (quiet (World.empty .sqlite)) (serve 0 (.registerReaction runAudit false 1 "") ++
    serve 1 (Journal.writer "s1") ++ serve 2 (.matcherStep numbered))).state

/-- Under two shards the first entry, of run `"s1"`, became visible after the second one was processed. -/
def stalled : World :=
  (tape.run (quiet (World.empty .sqlite)) (serve 0 (.registerReaction twoShardAudit false 1 "") ++
    [.spawn (Journal.writer "s1"), .spawn (Journal.writer "s2")] ++ List.replicate 6 (.exec 1) ++
    List.replicate 7 (.exec 2) ++ serve 3 (.matcherStep numbered) ++ [.exec 1])).state

/-- With a second shard the entry gets a second task, and with one shard less the late entry never gets one. -/
theorem resharding_repeats_and_loses :
    (Continued numbered.execute (reregister processed runAudit 2 false 1 "")
        (pass again (reregister processed runAudit 2 false 1 "")) ∧
      ¬KeepsWork numbered.execute runAudit (resharded runAudit 2 1) processed
        (pass again (reregister processed runAudit 2 false 1 ""))) ∧
    (Continued numbered.execute (reregister stalled twoShardAudit 1 false 1 "")
        (pass again (reregister stalled twoShardAudit 1 false 1 "")) ∧
      ¬KeepsWork numbered.execute twoShardAudit (resharded twoShardAudit 1 1) stalled
        (pass again (reregister stalled twoShardAudit 1 false 1 ""))) := by
  refine ⟨⟨.pass .start rfl (by decide +kernel), fun keeps => ?_⟩, ⟨.pass .start rfl (by decide +kernel), fun keeps => ?_⟩⟩
  · let v := pass again (reregister processed runAudit 2 false 1 "")
    have ids : ∀ e ∈ processed.journal.rows, ∀ task ∈ entryTasks v runAudit e, processed.tasks.find? task.taskId = none →
        ∀ other ∈ entryTasks v runAudit e, other.taskId = task.taskId := fun e listed task member isNew other isOther =>
      congrArg Task.taskId (keeps.once e listed task member isNew other isOther)
    exact absurd ids (by decide +kernel)
  · exact absurd keeps.kept (by decide +kernel)

end Tape.Matcher
