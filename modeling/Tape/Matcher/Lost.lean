import Tape.Matcher.AgentRun
import Tape.Matcher.Debounce

/-! # Entries the cursor has passed

A failed `find_pending_task_for_subject` or `coalesce_task` falls through to a fresh
`create_task`, a failed `set_reaction_cursor` lets the batch come again, and a crash
leaves the cursor behind the work.  Only the statements that the work of an entry hangs
on can lose it: when `begin_run` fails the matcher goes on to the next entry, which it
calls best-effort, and so it does when `create_task` fails.
-/

namespace Tape.Matcher

open Interleave

/-! ## Agent runs -/

/-- A run that was inserted or found for an entry is there. -/
structure RunsOf (h : TapeHist) : Prop where
  begun : ∀ (tid : Nat) (row : RunRow), ⟨tid, .run (.insertRun row), .ok ()⟩ ∈ h.log →
    ∀ r e, invokedBy r e row → (agentRun h.state r e).isSome
  found : ∀ (tid : Nat) (r : Reaction) (e : EventEntry) (known : String × Int),
    ⟨tid, .run (.findInvocation r.agentApp "" "" (invocation r e)), .ok (some known)⟩ ∈ h.log →
      (agentRun h.state r e).isSome

section Runs

variable {tid : Nat} {h : TapeHist} {act : Act} {res : act.Res} {state : World} {r : Reaction} {e : EventEntry}

theorem agentRun_kept (answers : tape.Answers act h.state res state) (there : (agentRun h.state r e).isSome) :
    (agentRun state r e).isSome := by
  obtain ⟨row, found⟩ := Option.isSome_iff_exists.mp there
  obtain ⟨row', found', -⟩ := agentRun_of_answers answers found
  exact Option.isSome_iff_exists.mpr ⟨row', found'⟩

theorem agentRun_of_insertRun {w w' : World} {row : RunRow}
    (answers : tape.Answers (.run (.insertRun row)) w (.ok ()) w') (invoked : invokedBy r e row) :
    (agentRun w' r e).isSome := by
  obtain ⟨executed, rfl⟩ := exec_of_ok answers
  have inserted : row ∈ ((Act.run (.insertRun row)).exec w).2.runs.rows :=
    Sql.Table.mem_of_find? (find?_insertRow_of_ok executed.symm).2
  exact List.find?_isSome.mpr ⟨row, inserted, invoked⟩

theorem RunsOf.push (answers : tape.Answers act h.state res state) (runsOf : RunsOf h) :
    RunsOf (h.push tid act res state) := by
  constructor
  · intro tid' row executed r e invoked
    rcases List.mem_cons.mp executed with new | old
    · cases new
      exact agentRun_of_insertRun answers invoked
    · exact agentRun_kept answers (runsOf.begun tid' row old r e invoked)
  · intro tid' r e known executed
    rcases List.mem_cons.mp executed with new | old
    · cases new
      obtain ⟨read, rfl⟩ := exec_of_ok answers
      have looked : (agentRun h.state r e).map (fun row => (row.runId, row.seqCursor)) = some known :=
        (Except.ok.inj read).symm
      obtain ⟨row, found, -⟩ := Option.map_eq_some_iff.mp looked
      exact Option.isSome_iff_exists.mpr ⟨row, found⟩
    · exact agentRun_kept answers (runsOf.found tid' r e known old)

/-- The run of a worked entry is there. -/
theorem run_of_worked (runsOf : RunsOf h) (agent : isAgent r) (worked : Worked h.log r e) :
    (agentRun h.state r e).isSome := by
  cases worked with
  | created queues => rw [not_isAgent queues] at agent; cases agent
  | coalesced queues => rw [not_isAgent queues] at agent; cases agent
  | begun _ invoked executed => exact runsOf.begun _ _ executed r e invoked
  | found _ executed => exact runsOf.found _ r e _ executed

end Runs

/-! ## What the cursor has passed -/

/-- **A passed entry has its work, or its own statement failed.**  Take fixed reactions, a database
    without cursors, where nothing was processed yet, any number of matchers and any other calls, where
    only the matchers write tasks and cursors as matchers do and entries become visible above what was
    read of their shard; any statement may fail and any process may stop anywhere.  When an active reaction selects an entry that is at or
    below the cursor of its shard, and no `INSERT` of the entry's task and no `SELECT` or `INSERT` of
    its run failed, its work is there: the task was created or coalesced and the queue has a task of
    the reaction and its subject, or the entry's run was begun and exists. -/
theorem passed_entry_worked (execute : Cel.Engine) (w : World) (choices : List (Choice Call)) (initial : Initial w)
    (sourced : ∀ task ∈ w.tasks.rows, Sourced execute (active w) w task)
    (sameEngine : ∀ tick, Choice.spawn (.matcherStep tick) ∈ choices → tick.execute = execute)
    (along : tape.Along (System.Permits (fun _ => True) fun tid call h act => permitted execute w tid call h act)
      (quiet w) choices) :
    let c := tape.run (quiet w) choices
    ∀ r ∈ active c.state, ∀ e ∈ c.state.journal.rows, selects execute r e →
      e.globalSeq ≤ cursorOf c.state r.reactionId (shardOf r e.runId) →
      (∀ event ∈ c.log, failed event → attempts r e event = false) →
        (isQueued r → Worked c.log r e ∧
          ∃ task ∈ c.state.tasks.rows, task.reactionId = r.reactionId ∧ task.subject = e.subject) ∧
        (isAgent r → Worked c.log r e ∧ (agentRun c.state r e).isSome) := by
  intro c r isActive e listed selected below unfailed
  obtain ⟨consistent, tasksOf⟩ := run_tasksOf (fun _ _ => True) (fun _ _ _ => trivial) initial sourced sameEngine
    (fun _ _ _ _ permits => permits) (fun _ _ _ _ _ _ _ _ _ _ => trivial) along
  have runsOf : RunsOf c.toHist := by
    refine System.run_hist_of_steps (fun tid call h act res state _ _ answers runsOf => runsOf.push answers) ?_ along
    exact ⟨fun _ _ event => (List.not_mem_nil event).elim, fun _ _ _ _ event => (List.not_mem_nil event).elim⟩
  have fixed : active c.state = active w := consistent.active_eq
  rw [fixed] at isActive
  have attempted : Attempted c.log r e := attempted_of_cursor initial sameEngine along isActive listed selected below
  constructor
  · intro queues
    have done := attempted.worked (handled_of_isQueued queues) unfailed
    obtain ⟨task, member, reaction, subject, -⟩ := task_of_worked tasksOf consistent queues listed done
    exact ⟨done, task, member, reaction, subject⟩
  · intro agent
    have done := attempted.worked (handled_of_isAgent agent) unfailed
    exact ⟨done, run_of_worked runsOf agent done⟩

/-! ## Failures that lose an entry, and one that does not -/

/-- The cursor has passed an entry that a reaction selects, and there is neither a task of the reaction
    and the entry's subject nor the entry's run. -/
def losesEntry (execute : Cel.Engine) (w : World) : Bool :=
  (active w).any fun r => w.journal.rows.any fun e =>
    selects execute r e && e.globalSeq ≤ cursorOf w r.reactionId (shardOf r e.runId) &&
      (agentRun w r e).isNone && w.tasks.rows.all fun task =>
        task.reactionId ≠ r.reactionId || task.subject ≠ e.subject

def failedWireWorld : World :=
  { World.empty .sqlite with
    reactions := ⟨[followup], List.nodup_singleton _⟩
    journal := ⟨[failedWire], List.nodup_singleton _⟩
    globalSeq := 7 }

/-- The first statement of `begin_run` fails. -/
def beginRunFails : List (Choice Call) :=
  .spawn (.matcherStep (passAt 1000)) :: List.replicate 4 (.exec 0) ++ [.fault 0, .exec 0]

/-- The `INSERT` of `create_task` fails. -/
def createTaskFails : List (Choice Call) :=
  .spawn (.matcherStep numbered) :: List.replicate 5 (.exec 0) ++ [.fault 0, .exec 0]

def runAudit : Reaction := { audit with subjectPattern := "/tape/run/**", numShards := 1 }

/-- An entry is inserted after a matcher has passed the one with the number after it. -/
def lateEntry : List (Choice Call) :=
  [.spawn (.matcherStep numbered), .spawn (Journal.writer "s1"), .spawn (Journal.writer "s2")] ++
    List.replicate 6 (.exec 1) ++ List.replicate 7 (.exec 2) ++ List.replicate 12 (.exec 0) ++ [.exec 1]

/-- The matcher goes on after a failed `begin_run` and a failed `create_task`, and an entry that becomes
    visible late is lost without any failure. -/
theorem failures_lose_entries :
    losesEntry (passAt 1000).execute (tape.run (quiet failedWireWorld) beginRunFails).state ∧
      losesEntry numbered.execute (tape.run (quiet (busyRun 1)) createTaskFails).state ∧
      losesEntry numbered.execute
        (tape.run (quiet { World.empty .sqlite with reactions := ⟨[runAudit], List.nodup_singleton _⟩ }) lateEntry).state ∧
      ∀ event ∈ (tape.run (quiet { World.empty .sqlite with reactions := ⟨[runAudit], List.nodup_singleton _⟩ })
        lateEntry).log, failed event = false := by
  decide +kernel

/-- The lookup of a pending task fails for the first of two entries. -/
def findPendingFails : List (Choice Call) :=
  .spawn (.matcherStep numbered) :: List.replicate 5 (.exec 0) ++ [.fault 0] ++ List.replicate 12 (.exec 0)

/-- It is queued all the same. -/
theorem failed_lookup_keeps_entry :
    (tape.run (quiet twoEffects) findPendingFails).log.any failed ∧
      ∃ task ∈ (tape.run (quiet twoEffects) findPendingFails).state.tasks.rows,
        task.reactionId = debouncedAudit.reactionId ∧ task.subject = (effectEntry 0).subject := by
  have sameEngine : ∀ tick, Choice.spawn (.matcherStep tick) ∈ findPendingFails → tick.execute = numbered.execute := by
    intro tick member
    simp [findPendingFails] at member
    rw [member]
  have worked := passed_entry_worked numbered.execute twoEffects findPendingFails initial_twoEffects
    (fun task member => by cases member) sameEngine (by decide +kernel) debouncedAudit (by decide +kernel)
    (effectEntry 0) (entry_twoEffects (by decide) _) (by decide +kernel) (by decide +kernel) (by decide +kernel)
  exact ⟨by decide +kernel, (worked.1 (by decide +kernel)).2⟩

end Tape.Matcher
