import Tape.Matcher.ExactlyOnce

/-! # Debouncing

A debounced entry is coalesced into a pending task of its reaction and subject: the
task takes over the entry's number and payload.  `coalesce_task` does not compare
numbers, so a matcher that processes an entry again, after a crash or from a cursor it
read before another one moved it, gives the task an older entry.  Where no `UPDATE`
does that, the task of a reaction and subject is never behind the cursor.
-/

namespace Tape.Matcher

open Interleave

/-- The task was queued for the entry, or has taken it over. -/
structure Carries (task : Task) (e : EventEntry) : Prop where
  subject : task.subject = e.subject
  number : task.sourceGlobalSeq = e.globalSeq
  payload : task.payload = e.payload

/-- The task carries an entry that its reaction selects. -/
def Sourced (execute : Cel.Engine) (reactions : List Reaction) (w : World) (task : Task) : Prop :=
  ∃ r ∈ reactions, ∃ e ∈ w.journal.rows, selects execute r e ∧ task.reactionId = r.reactionId ∧ Carries task e

/-- `coalesce_task` finds no pending task that already carries a later entry. -/
def coalescesForward (h : TapeHist) : Act → Bool
  | .sql (.task (.coalesceTask taskId globalSeq payload traceId parentSpanId)) =>
    h.state.tasks.rows.all fun task =>
      !(TaskStmt.coalesceTask taskId globalSeq payload traceId parentSpanId).selects task ||
        task.sourceGlobalSeq ≤ globalSeq
  | _ => true

def debouncing (execute : Cel.Engine) (w : World) (tid : Nat) (call : Call) (h : TapeHist) (act : Act) : Bool :=
  permitted execute w tid call h act && coalescesForward h act

/-! ## Tasks and their entries -/

section Assign

variable (s : TaskStmt) (task : Task)

/-- Id, reaction and subject of a task never change. -/
theorem identity_assign : (s.assign task).taskId = task.taskId ∧ (s.assign task).reactionId = task.reactionId ∧
    (s.assign task).subject = task.subject := by
  cases s <;> exact ⟨rfl, rfl, rfl⟩

variable {s task}

theorem carries_assign (other : s.isCoalesce = false) {e : EventEntry} (carries : Carries task e) :
    Carries (s.assign task) e := by
  obtain ⟨subject, number, payload⟩ := carries
  cases s with
  | coalesceTask => cases other
  | _ => exact ⟨subject, number, payload⟩

end Assign

/-- What the statements on tasks leave behind: `Kept e task` holds of a task that carries `e`, and
    lasts. -/
structure TasksOf (execute : Cel.Engine) (w₀ : World) (Kept : EventEntry → Task → Prop) (h : TapeHist) : Prop where
  sourced : ∀ task ∈ h.state.tasks.rows, Sourced execute (active w₀) h.state task
  found : ∀ (tid : Nat) (reactionId subject : String) (task : Task),
    ⟨tid, .task (.findPending reactionId subject), .ok (some task)⟩ ∈ h.log →
      ∃ task' ∈ h.state.tasks.rows, task'.taskId = task.taskId ∧ task'.reactionId = reactionId ∧ task'.subject = subject
  created : ∀ (tid : Nat) (row : Task) (n : Nat), ⟨tid, .task (.insertTask row), .ok n⟩ ∈ h.log →
    ∃ r ∈ active w₀, ∃ e ∈ h.state.journal.rows, row.slot = slotOf r e ∧
      ∃ task ∈ h.state.tasks.rows, task.reactionId = r.reactionId ∧ task.subject = e.subject ∧ Kept e task
  coalesced : ∀ (tid : Nat) (taskId : String) (e : EventEntry) (n : Nat), 0 < n →
    ⟨tid, .task (.coalesceTask taskId e.globalSeq e.payload e.traceId e.spanId), .ok n⟩ ∈ h.log →
      ∃ task ∈ h.state.tasks.rows, task.taskId = taskId ∧ Kept e task

section Push

variable {execute : Cel.Engine} {w₀ : World} {Kept : EventEntry → Task → Prop} {tid : Nat} {h : TapeHist} {act : Act}
  {res : act.Res} {state : World}

theorem sourced_push (tasksOf : TasksOf execute w₀ Kept h) (answers : tape.Answers act h.state res state)
    (proper : Proper execute w₀ h act) :
    ∀ task ∈ state.tasks.rows, Sourced execute (active w₀) state task := by
  intro task' member
  rcases task_origin answers member with ⟨task, old, kept⟩ | rfl
  · obtain ⟨r, isActive, e, listed, selected, reaction, carries⟩ := tasksOf.sourced task old
    rcases kept with rfl | ⟨s, rfl, chosen, rfl⟩
    · exact ⟨r, isActive, e, entry_kept answers listed, selected, reaction, carries⟩
    · cases coalesces : s.isCoalesce with
      | false =>
        exact ⟨r, isActive, e, entry_kept answers listed, selected, (identity_assign s task).2.1.trans reaction,
          carries_assign coalesces carries⟩
      | true =>
        cases s with
        | coalesceTask taskId globalSeq payload traceId parentSpanId =>
          obtain ⟨r, isActive, e, listed, -, selected, -, rfl, rfl, tid', prev, event, rfl⟩ := proper
          -- the task it changes is the one that was found for the entry's subject
          obtain ⟨found, memberFound, sameId, reaction, subject⟩ := tasksOf.found tid' _ _ prev event
          simp only [TaskStmt.selects, Bool.and_eq_true, decide_eq_true_eq] at chosen
          obtain rfl : task = found := List.inj_on_of_nodup_map h.state.tasks.nodup old memberFound
            (chosen.1.trans sameId.symm)
          exact ⟨r, isActive, e, entry_kept answers listed, selected, reaction, subject, rfl, rfl⟩
        | _ => cases coalesces
  · obtain ⟨r, isActive, e, listed, -, selected, slot, subject, payload⟩ := proper
    simp only [Task.slot, slotOf, Prod.mk.injEq] at slot
    exact ⟨r, isActive, e, entry_kept answers listed, selected, slot.1, subject, slot.2.2, payload⟩

variable (lasting : ∀ e task s, act = .task s → task ∈ h.state.tasks.rows → s.selects task → Kept e task →
    Kept e (s.assign task))

include lasting

/-- A task stays, under its id, with its reaction and subject and with what is kept of it. -/
theorem task_followed (answers : tape.Answers act h.state res state) {task : Task} (member : task ∈ h.state.tasks.rows) :
    ∃ task' ∈ state.tasks.rows, task'.taskId = task.taskId ∧ task'.reactionId = task.reactionId ∧
      task'.subject = task.subject ∧ ∀ e, Kept e task → Kept e task' := by
  obtain ⟨task', member', kept⟩ := task_kept answers member
  refine ⟨task', member', ?_⟩
  rcases kept with rfl | ⟨s, isTask, chosen, rfl⟩
  · exact ⟨rfl, rfl, rfl, fun _ => id⟩
  · obtain ⟨ids, reactions, subjects⟩ := identity_assign s task
    exact ⟨ids, reactions, subjects, fun e => lasting e task s isTask member chosen⟩

theorem found_push (tasksOf : TasksOf execute w₀ Kept h) (answers : tape.Answers act h.state res state) (tid' : Nat)
    (reactionId subject : String) (task : Task)
    (event : ⟨tid', .task (.findPending reactionId subject), .ok (some task)⟩ ∈ (h.push tid act res state).log) :
    ∃ task' ∈ state.tasks.rows,
      task'.taskId = task.taskId ∧ task'.reactionId = reactionId ∧ task'.subject = subject := by
  rcases List.mem_cons.mp event with new | old
  · cases new
    obtain ⟨executed, rfl⟩ := exec_of_ok answers
    obtain ⟨listed, reaction, same⟩ := TaskStmt.mem_of_findPending executed.symm
    exact ⟨task, listed, rfl, reaction, same⟩
  · obtain ⟨task', member, sameId, reaction, same⟩ := tasksOf.found tid' reactionId subject task old
    obtain ⟨task'', member', ids, reactions, subjects, -⟩ := task_followed lasting answers member
    exact ⟨task'', member', ids.trans sameId, reactions.trans reaction, subjects.trans same⟩

variable (fresh : ∀ e task, task.sourceGlobalSeq = e.globalSeq → Kept e task)

include fresh

theorem created_push (tasksOf : TasksOf execute w₀ Kept h) (consistent : Consistent execute w₀ h)
    (answers : tape.Answers act h.state res state) (proper : Proper execute w₀ h act) (tid' : Nat) (row : Task) (n : Nat)
    (event : ⟨tid', .task (.insertTask row), .ok n⟩ ∈ (h.push tid act res state).log) :
    ∃ r ∈ active w₀, ∃ e ∈ state.journal.rows, row.slot = slotOf r e ∧
      ∃ task ∈ state.tasks.rows, task.reactionId = r.reactionId ∧ task.subject = e.subject ∧ Kept e task := by
  rcases List.mem_cons.mp event with new | old
  · cases new
    obtain ⟨task, member, filled⟩ := slot_filled_of_insertTask answers
    -- the task in the slot carries an entry of the same number, and that is the entry
    obtain ⟨r', -, e', listed', -, -, carries⟩ := sourced_push tasksOf answers proper task member
    obtain ⟨r, isActive, e, listed, -, -, slot, -⟩ := proper
    have place := filled.trans slot
    simp only [Task.slot, slotOf, Prod.mk.injEq] at place
    obtain rfl : e' = e := Journal.unique_of_answers answers consistent.unique e' listed' e (entry_kept answers listed)
      (carries.number.symm.trans place.2.2)
    exact ⟨r, isActive, e', listed', slot, task, member, place.1, carries.subject, fresh e' task carries.number⟩
  · obtain ⟨r, isActive, e, listed, slot, task, member, reaction, subject, keeps⟩ := tasksOf.created tid' row n old
    obtain ⟨task', member', -, reactions, subjects, keep⟩ := task_followed lasting answers member
    exact ⟨r, isActive, e, entry_kept answers listed, slot, task', member', reactions.trans reaction,
      subjects.trans subject, keep e keeps⟩

theorem coalesced_push (tasksOf : TasksOf execute w₀ Kept h) (answers : tape.Answers act h.state res state) (tid' : Nat)
    (taskId : String) (e : EventEntry) (n : Nat) (changed : 0 < n)
    (event : ⟨tid', .task (.coalesceTask taskId e.globalSeq e.payload e.traceId e.spanId), .ok n⟩ ∈
      (h.push tid act res state).log) :
    ∃ task ∈ state.tasks.rows, task.taskId = taskId ∧ Kept e task := by
  rcases List.mem_cons.mp event with new | old
  · cases new
    obtain ⟨executed, rfl⟩ := exec_of_ok answers
    obtain ⟨row, -, chosen, found⟩ := TaskStmt.selected_of_update (Prod.ext executed.symm rfl) changed
    simp only [TaskStmt.selects, Bool.and_eq_true, decide_eq_true_eq] at chosen
    exact ⟨_, Sql.Table.mem_of_find? found, chosen.1, fresh e _ rfl⟩
  · obtain ⟨task, member, sameId, keeps⟩ := tasksOf.coalesced tid' taskId e n changed old
    obtain ⟨task', member', ids, -, -, keep⟩ := task_followed lasting answers member
    exact ⟨task', member', ids.trans sameId, keep e keeps⟩

theorem TasksOf.push (tasksOf : TasksOf execute w₀ Kept h) (consistent : Consistent execute w₀ h)
    (answers : tape.Answers act h.state res state) (proper : Proper execute w₀ h act) :
    TasksOf execute w₀ Kept (h.push tid act res state) where
  sourced := sourced_push tasksOf answers proper
  found := found_push lasting tasksOf answers
  created := created_push lasting fresh tasksOf consistent answers proper
  coalesced := coalesced_push lasting fresh tasksOf answers

end Push

/-- The task the entry's work went into is there. -/
theorem task_of_worked {execute : Cel.Engine} {w₀ : World} {Kept : EventEntry → Task → Prop} {h : TapeHist}
    (tasksOf : TasksOf execute w₀ Kept h) (consistent : Consistent execute w₀ h) {r : Reaction}
    (queues : isQueued r) {e : EventEntry} (listed : e ∈ h.state.journal.rows)
    (worked : Worked h.log r e) :
    ∃ task ∈ h.state.tasks.rows, task.reactionId = r.reactionId ∧ task.subject = e.subject ∧ Kept e task := by
  cases worked with
  | created _ slot executed =>
    obtain ⟨r', isActive', e', listed', slot', task, member, reaction, subject, keeps⟩ := tasksOf.created _ _ _ executed
    have same := slot'.symm.trans slot
    simp only [slotOf, Prod.mk.injEq] at same
    obtain rfl : e' = e := consistent.unique e' listed' e listed same.2.2
    exact ⟨task, member, reaction.trans same.1, subject, keeps⟩
  | coalesced _ _ found executed changed =>
    obtain ⟨task, member, sameId, reaction, subject⟩ := tasksOf.found _ _ _ _ found
    obtain ⟨task', member', sameId', keeps⟩ := tasksOf.coalesced _ _ e _ changed executed
    obtain rfl : task = task' := List.inj_on_of_nodup_map h.state.tasks.nodup member member' (sameId.trans sameId'.symm)
    exact ⟨task, member, reaction, subject, keeps⟩
  | begun isAgent => rw [not_isAgent queues] at isAgent; cases isAgent
  | found isAgent => rw [not_isAgent queues] at isAgent; cases isAgent

/-- What holds of the tasks along a run, for whatever its statements keep of a task. -/
theorem run_tasksOf {execute : Cel.Engine} {w : World} {ok : Nat → Call → TapeHist → Act → Prop}
    {choices : List (Choice Call)} (Kept : EventEntry → Task → Prop)
    (fresh : ∀ e task, task.sourceGlobalSeq = e.globalSeq → Kept e task) (initial : Initial w)
    (sourced : ∀ task ∈ w.tasks.rows, Sourced execute (active w) w task)
    (sameEngine : ∀ tick, Choice.spawn (.matcherStep tick) ∈ choices → tick.execute = execute)
    (permits : ∀ tid call h act, ok tid call h act → permitted execute w tid call h act)
    (lasting : ∀ tid call (h : TapeHist) e task s, ok tid call h (.task s) → task ∈ h.state.tasks.rows →
      s.selects task → Kept e task → Kept e (s.assign task))
    (along : tape.Along (System.Permits (fun _ => True) ok) (quiet w) choices) :
    Consistent execute w (tape.run (quiet w) choices).toHist ∧
      TasksOf execute w Kept (tape.run (quiet w) choices).toHist := by
  have start : TasksOf execute w Kept (quiet w).toHist := {
    sourced := sourced
    found := fun _ _ _ _ event => (List.not_mem_nil event).elim
    created := fun _ _ _ event => (List.not_mem_nil event).elim
    coalesced := fun _ _ _ _ _ event => (List.not_mem_nil event).elim
  }
  refine run_replicas initial sameEngine permits along ?_ start
  intro tid call h act res state answers meets proper consistent tasksOf
  refine tasksOf.push ?_ fresh consistent answers proper
  rintro e task s rfl member chosen kept
  exact lasting tid call h e task s meets member chosen kept

/-! ## The latest entry -/

/-- The task is at the entry or a later one. -/
def NotBehind (e : EventEntry) (task : Task) : Prop := e.globalSeq ≤ task.sourceGlobalSeq

theorem le_assign {h : TapeHist} {s : TaskStmt} (forward : coalescesForward h (.task s)) {task : Task}
    (member : task ∈ h.state.tasks.rows) (chosen : s.selects task) :
    task.sourceGlobalSeq ≤ (s.assign task).sourceGlobalSeq := by
  cases s with
  | coalesceTask taskId globalSeq payload traceId parentSpanId =>
    have each := List.all_eq_true.mp forward task member
    simpa [chosen, TaskStmt.assign] using each
  | _ => exact le_refl _

theorem permitted_of_debouncing {execute : Cel.Engine} {w : World} {tid : Nat} {call : Call} {h : TapeHist} {act : Act}
    (debounced : debouncing execute w tid call h act) : permitted execute w tid call h act := by
  simp only [debouncing, Bool.and_eq_true] at debounced
  exact debounced.1

theorem forward_of_debouncing {execute : Cel.Engine} {w : World} {tid : Nat} {call : Call} {h : TapeHist} {act : Act}
    (debounced : debouncing execute w tid call h act) : coalescesForward h act := by
  simp only [debouncing, Bool.and_eq_true] at debounced
  exact debounced.2

/-- What holds of the tasks along a debounced run. -/
theorem run_debounced {execute : Cel.Engine} {w : World} {choices : List (Choice Call)} (initial : Initial w)
    (sourced : ∀ task ∈ w.tasks.rows, Sourced execute (active w) w task)
    (sameEngine : ∀ tick, Choice.spawn (.matcherStep tick) ∈ choices → tick.execute = execute)
    (along : tape.Along (System.Permits (fun _ => True) fun tid call h act => debouncing execute w tid call h act)
      (quiet w) choices) :
    Consistent execute w (tape.run (quiet w) choices).toHist ∧
      TasksOf execute w NotBehind (tape.run (quiet w) choices).toHist := by
  refine run_tasksOf NotBehind (fun e task number => number.ge) initial sourced sameEngine
    (fun tid call h act debounced => permitted_of_debouncing debounced) ?_ along
  intro tid call h e task s debounced member chosen notBehind
  exact le_trans notBehind (le_assign (forward_of_debouncing debounced) member chosen)

/-- From any point of a debounced run on, a task stays and moves forward. -/
theorem task_forward {execute : Cel.Engine} {w : World} {c : TapeConfig} {choices : List (Choice Call)}
    (along : tape.Along (System.Permits (fun _ => True) fun tid call h act => debouncing execute w tid call h act) c
      choices) {task : Task} (member : task ∈ c.state.tasks.rows) :
    ∃ task' ∈ (tape.run c choices).state.tasks.rows, task'.taskId = task.taskId ∧
      task.sourceGlobalSeq ≤ task'.sourceGlobalSeq := by
  refine System.run_hist_of_steps (I := fun h => ∃ task' ∈ h.state.tasks.rows, task'.taskId = task.taskId ∧
    task.sourceGlobalSeq ≤ task'.sourceGlobalSeq) ?_ ⟨task, member, rfl, le_refl _⟩ along
  rintro tid call h act res state - debounced answers ⟨prev, listed, sameId, forward⟩
  obtain ⟨next, listed', kept⟩ := task_kept answers listed
  refine ⟨next, listed', ?_⟩
  rcases kept with rfl | ⟨s, rfl, chosen, rfl⟩
  · exact ⟨sameId, forward⟩
  · have moved := le_assign (forward_of_debouncing debounced) listed chosen
    exact ⟨(identity_assign s prev).1.trans sameId, forward.trans moved⟩

/-- **Debouncing keeps the latest entry, where it coalesces forward.**  Take fixed reactions, a database
    without cursors, where nothing was processed yet, any number of matchers and any other calls, stopped
    anywhere, where only the matchers write tasks and cursors as matchers do, entries become visible above
    what was read of their shard, and no `INSERT` of a task fails.  In every run that coalesces no entry into a task with a later
    one, each entry that a queueing reaction selects and that is at or below the cursor of its shard has
    a task of the reaction and its subject that carries the entry or a later one; and from any
    point of the run to any later one no task goes to an older entry. -/
theorem debounce_keeps_latest (execute : Cel.Engine) (w : World) (before after : List (Choice Call))
    (initial : Initial w) (sourced : ∀ task ∈ w.tasks.rows, Sourced execute (active w) w task)
    (sameEngine : ∀ tick, Choice.spawn (.matcherStep tick) ∈ before ++ after → tick.execute = execute)
    (along : tape.Along (System.Permits (fun _ => True) fun tid call h act => debouncing execute w tid call h act)
      (quiet w) (before ++ after))
    (created : ∀ event ∈ (tape.run (quiet w) (before ++ after)).log, createFailed event = false) :
    let w₁ := (tape.run (quiet w) before).state
    let w₂ := (tape.run (quiet w) (before ++ after)).state
    (∀ r ∈ active w₂, isQueued r → ∀ e ∈ w₂.journal.rows, selects execute r e →
      e.globalSeq ≤ cursorOf w₂ r.reactionId (shardOf r e.runId) →
        ∃ task ∈ w₂.tasks.rows, task.reactionId = r.reactionId ∧ task.subject = e.subject ∧
          e.globalSeq ≤ task.sourceGlobalSeq) ∧
      ∀ task₁ ∈ w₁.tasks.rows, ∃ task₂ ∈ w₂.tasks.rows, task₂.taskId = task₁.taskId ∧
        ∃ e₁ ∈ w₁.journal.rows, ∃ e₂ ∈ w₂.journal.rows, Carries task₁ e₁ ∧ Carries task₂ e₂ ∧
          e₁.globalSeq ≤ e₂.globalSeq := by
  intro w₁ w₂
  obtain ⟨consistent, tasksOf⟩ := run_debounced initial sourced sameEngine along
  have permits : tape.Along (System.Permits (fun _ => True) fun tid call h act => permitted execute w tid call h act)
      (quiet w) (before ++ after) :=
    along.mono fun c choice allowed => allowed.mono fun tid call act debounced => permitted_of_debouncing debounced
  have fixed : active w₂ = active w := consistent.active_eq
  constructor
  · intro r isActive queues e listed selected below
    rw [fixed] at isActive
    -- the cursor is past the entry, so a matcher has tried to work it
    have attempted := attempted_of_cursor initial sameEngine permits isActive listed selected below
    exact task_of_worked tasksOf consistent queues listed (worked_of_attempted queues created attempted)
  · intro task₁ member₁
    obtain ⟨_, tasksOf₁⟩ := run_debounced initial sourced
      (fun tick member => sameEngine tick (List.mem_append_left _ member)) (System.Along.append.mp along).1
    obtain ⟨_, _, e₁, listed₁, _, _, carries₁⟩ := tasksOf₁.sourced task₁ member₁
    -- a task only ever goes to a later entry
    obtain ⟨task₂, member₂, sameId, forward⟩ := task_forward (System.Along.append.mp along).2 member₁
    rw [← System.run_append] at member₂
    obtain ⟨_, _, e₂, listed₂, _, _, carries₂⟩ := tasksOf.sourced task₂ member₂
    refine ⟨task₂, member₂, sameId, e₁, listed₁, e₂, listed₂, carries₁, carries₂, ?_⟩
    rw [← carries₁.number, ← carries₂.number]
    exact forward

/-! ## A matcher that was overtaken -/

/-- Audits the effects, and waits a second for more of them. -/
def debouncedAudit : Reaction := { audit with debounceMs := 1000 }

def twoEffects : World := { twoEntries with reactions := ⟨[debouncedAudit], List.nodup_singleton _⟩ }

/-- A matcher reads its batch and stops, and a second one makes a whole pass. -/
def overtaking : List (Choice Call) :=
  .spawn (.matcherStep numbered) :: List.replicate 5 (.exec 0) ++ serve 1 (.matcherStep numbered)

/-- The matcher that was overtaken looks for the pending task and coalesces its first entry into it. -/
def resumed : List (Choice Call) := List.replicate 2 (.exec 0)

/-- The only task had taken over the second entry and goes back to the first, below the cursor. -/
theorem overtaken_task_goes_back :
    (tape.run (quiet twoEffects) overtaking).state.tasks.rows.map (fun task => (task.taskId, task.sourceGlobalSeq)) =
        [("1", 2)] ∧
      (tape.run (quiet twoEffects) (overtaking ++ resumed)).state.tasks.rows.map
        (fun task => (task.taskId, task.sourceGlobalSeq)) = [("1", 1)] ∧
      (∃ r ∈ active (tape.run (quiet twoEffects) (overtaking ++ resumed)).state,
        ∃ e ∈ (tape.run (quiet twoEffects) (overtaking ++ resumed)).state.journal.rows,
          selects numbered.execute r e ∧
          e.globalSeq ≤ cursorOf (tape.run (quiet twoEffects) (overtaking ++ resumed)).state r.reactionId
            (shardOf r e.runId) ∧
          ∀ task ∈ (tape.run (quiet twoEffects) (overtaking ++ resumed)).state.tasks.rows,
            task.sourceGlobalSeq < e.globalSeq) ∧
      (∀ event ∈ (tape.run (quiet twoEffects) (overtaking ++ resumed)).log, failed event = false) := by
  decide +kernel

def claimed : List (Choice Call) := serve 2 (.claimTasks debouncedAudit.reactionId (-1) "worker" 60000 10 5000 5000)

theorem initial_twoEffects : Initial twoEffects where
  cursors := rfl
  positive := initial_twoEntries.positive
  unique := initial_twoEntries.unique

/-- The entries stay in the journal. -/
theorem entry_twoEffects {n : Nat} (bound : n < 2) (choices : List (Choice Call)) :
    effectEntry n ∈ (tape.run (quiet twoEffects) choices).state.journal.rows := by
  have start : effectEntry n ∈ twoEffects.journal.rows := List.mem_map_of_mem (List.mem_range.mpr bound)
  exact System.run_state (I := fun w => effectEntry n ∈ w.journal.rows) (fun _ _ _ _ answers => entry_kept answers)
    (c := quiet twoEffects) start choices

/-- Without the late coalescing the task is at the second entry, and a worker that claims it leaves it there. -/
theorem claimed_task_keeps_latest :
    (∃ task ∈ (tape.run (quiet twoEffects) (overtaking ++ claimed)).state.tasks.rows,
      task.reactionId = debouncedAudit.reactionId ∧ task.subject = (effectEntry 1).subject ∧
        (effectEntry 1).globalSeq ≤ task.sourceGlobalSeq) ∧
      (tape.run (quiet twoEffects) (overtaking ++ claimed)).state.tasks.rows.map
        (fun task => (task.leaseOwner, task.sourceGlobalSeq)) = [("worker", 2)] := by
  have sameEngine : ∀ tick, Choice.spawn (.matcherStep tick) ∈ overtaking ++ claimed →
      tick.execute = numbered.execute := by
    intro tick member
    simp [overtaking, claimed, serve] at member
    rw [member]
  have kept := debounce_keeps_latest numbered.execute twoEffects overtaking claimed
    initial_twoEffects (fun task member => by cases member) sameEngine (by decide +kernel) (by decide +kernel)
  refine ⟨kept.1 debouncedAudit ?_ ?_ (effectEntry 1) (entry_twoEffects (by decide) _) ?_ ?_, ?_⟩
  all_goals decide +kernel

end Tape.Matcher
