import Tape.Rules

/-! # Who owns a task

A dispatcher takes a task by the guarded `UPDATE` of `claim_tasks` and gives it back by
`complete_task` or `nack_task`, whose `UPDATE`s name the owner and ask for `CLAIMED`.  So
a dispatcher whose lease was taken over finds nothing to update any more, and a task
that is `DONE` or in the dead-letter queue is out of reach of all five methods.
-/

namespace Tape.Queue

open Interleave

/-! ## Events -/

/-- The task a claim `UPDATE` won, and for whom. -/
def claims : TapeEvent → Option (String × String)
  | ⟨_, .sql (.task (.claimTask taskId owner _ _)), .ok updated⟩ => changed updated (taskId, owner)
  | _ => none
where
  changed (updated : Nat) (who : String × String) : Option (String × String) :=
    if 0 < updated then some who else none

/-- The task that an `UPDATE` of `complete_task` or `nack_task` changed, and in whose name. -/
def settles : TapeEvent → Option (String × String)
  | ⟨_, .sql (.task (.completeTask taskId owner _)), .ok updated⟩ => claims.changed updated (taskId, owner)
  | ⟨_, .sql (.task (.dlqTask taskId owner _)), .ok updated⟩ => claims.changed updated (taskId, owner)
  | ⟨_, .sql (.task (.retryTask taskId owner _ _)), .ok updated⟩ => claims.changed updated (taskId, owner)
  | _ => none

/-- Who won the newest claim on the task. -/
def lastClaim (taskId : String) : List TapeEvent → Option String
  | [] => none
  | event :: older =>
    match claims event with
    | some (claimed, owner) => if claimed = taskId then some owner else lastClaim taskId older
    | none => lastClaim taskId older

theorem changed_eq_some {updated : Nat} {who who' : String × String} :
    claims.changed updated who = some who' ↔ 0 < updated ∧ who = who' := by
  unfold claims.changed
  split
  next positive => simp [positive]
  next none => simp [none]

theorem lastClaim_cons_of_other {taskId : String} {event : TapeEvent} {older : List TapeEvent}
    (other : ¬∃ owner, claims event = some (taskId, owner)) :
    lastClaim taskId (event :: older) = lastClaim taskId older := by
  rw [lastClaim]
  split
  next claimed owner isClaim =>
    split
    next same => exact absurd ⟨owner, same ▸ isClaim⟩ other
    next => rfl
  next => rfl

/-- After a claim was won, the newest claim is that one or came after it. -/
theorem lastClaim_append {taskId other : String} {claim : TapeEvent} (between older : List TapeEvent)
    (isClaim : claims claim = some (taskId, other)) :
    ∃ owner, lastClaim taskId (between ++ claim :: older) = some owner ∧
      (owner = other ∨ ∃ event ∈ between, claims event = some (taskId, owner)) := by
  induction between with
  | nil => exact ⟨other, by simp [lastClaim, isClaim], .inl rfl⟩
  | cons event between inductionHypothesis =>
    by_cases isNew : ∃ owner, claims event = some (taskId, owner)
    · obtain ⟨owner, isClaim⟩ := isNew
      exact ⟨owner, by simp [lastClaim, isClaim], .inr ⟨event, List.mem_cons_self, isClaim⟩⟩
    · obtain ⟨owner, newest, whose⟩ := inductionHypothesis
      refine ⟨owner, by rw [List.cons_append, lastClaim_cons_of_other isNew, newest], whose.imp_right ?_⟩
      rintro ⟨e, member, isClaim⟩
      exact ⟨e, List.mem_cons_of_mem _ member, isClaim⟩

/-! ## Rows -/

/-- A task has an owner exactly while it is `CLAIMED`. -/
def Leased (row : Task) : Prop := row.leaseOwner ≠ "" ↔ row.status = TaskStatus.claimed.code

/-- `DONE`, or in the dead-letter queue. -/
def isFinal (status : Int) : Bool := status = TaskStatus.done.code || status = TaskStatus.dlq.code

/-- What the five methods ask of their statements. -/
def Proper (_ : Nat) (call : Call) (_ : TapeHist) : Act → Prop
  | .sql (.task (.insertTask row)) => row.status = TaskStatus.pending.code ∧ row.leaseOwner = ""
  | .sql (.task (.claimTask _ owner _ _)) => owner ≠ ""
  | .sql (.task (.completeTask taskId owner ts)) => call = .completeTask taskId owner ts
  | .sql (.task (.dlqTask taskId owner error)) =>
    ∃ permanent nowMs clock, call = .nackTask taskId owner error permanent nowMs clock
  | .sql (.task (.retryTask taskId owner error _)) =>
    ∃ permanent nowMs clock, call = .nackTask taskId owner error permanent nowMs clock
  | _ => True

theorem leased_assign {tid : Nat} {call : Call} {h : TapeHist} {s : TaskStmt} {row : Task}
    (proper : Proper tid call h (.task s)) (leased : Leased row) (selected : s.selects row) :
    Leased (s.assign row) := by
  cases s with
  | claimTask taskId owner =>
    have named : owner ≠ "" := proper
    simp [Leased, TaskStmt.assign, named]
  | completeTask | dlqTask | retryTask => simp [Leased, TaskStmt.assign, TaskStatus.code]
  | coalesceTask => exact leased
  | _ => cases selected

theorem not_selected_of_final {s : TaskStmt} {row : Task} (final : isFinal row.status) : s.selects row = false := by
  simp only [isFinal, Bool.or_eq_true, decide_eq_true_eq] at final
  cases s with
  | claimTask | coalesceTask | completeTask | dlqTask | retryTask =>
    rcases final with final | final <;>
      simp [TaskStmt.selects, TaskStmt.claimable, TaskStmt.heldBy, final, TaskStatus.code]
  | _ => rfl

section Steps

variable {tid : Nat} {call : Call} {h : TapeHist} {act : Act} {res : act.Res} {w w' : World} {taskId owner : String}

/-- The claim `UPDATE` that was won, carried out. -/
theorem claimed_of_claims (answers : tape.Answers act w res w') (isClaim : claims ⟨tid, act, res⟩ = some (taskId, owner)) :
    ∃ leaseExp now row, act = .task (.claimTask taskId owner leaseExp now) ∧ w.tasks.find? taskId = some row ∧
      (TaskStmt.claimTask taskId owner leaseExp now).selects row ∧
      w'.tasks.find? taskId = some ((TaskStmt.claimTask taskId owner leaseExp now).assign row) := by
  unfold claims at isClaim
  split at isClaim
  next _ taskId' owner' leaseExp now updated same =>
    cases same
    obtain ⟨positive, who⟩ := changed_eq_some.mp isClaim
    cases who
    obtain ⟨answer, rfl⟩ := exec_of_ok answers
    obtain ⟨row, found, selected, changed⟩ := TaskStmt.selected_of_update (s := .claimTask taskId owner leaseExp now)
      (Prod.ext answer.symm rfl) positive
    have own : row.taskId = taskId := by
      simp only [TaskStmt.selects, Bool.and_eq_true, decide_eq_true_eq] at selected
      exact selected.1
    rw [own] at found changed
    exact ⟨leaseExp, now, row, rfl, found, selected, changed⟩
  next => cases isClaim

/-- A claim that was won leaves the task with its owner. -/
theorem claim_of_claims (answers : tape.Answers act w res w') (isClaim : claims ⟨tid, act, res⟩ = some (taskId, owner)) :
    ∃ row, w'.tasks.find? taskId = some row ∧ row.leaseOwner = owner := by
  obtain ⟨leaseExp, now, row, -, -, -, changed⟩ := claimed_of_claims answers isClaim
  exact ⟨_, changed, rfl⟩

/-- The three `UPDATE`s that settle a task, each with a row changed. -/
inductive Settling (taskId owner : String) : TapeEvent → Prop
  | completed {tid : Nat} {now : Int} {updated : Nat} (changed : 0 < updated) :
    Settling taskId owner ⟨tid, .task (.completeTask taskId owner now), .ok updated⟩
  | buried {tid : Nat} {error : String} {updated : Nat} (changed : 0 < updated) :
    Settling taskId owner ⟨tid, .task (.dlqTask taskId owner error), .ok updated⟩
  | retried {tid : Nat} {error : String} {nextAt : Int} {updated : Nat} (changed : 0 < updated) :
    Settling taskId owner ⟨tid, .task (.retryTask taskId owner error nextAt), .ok updated⟩

theorem settles_cases {event : TapeEvent} (isSettled : settles event = some (taskId, owner)) :
    Settling taskId owner event := by
  unfold settles at isSettled
  split at isSettled
  next =>
    obtain ⟨changed, who⟩ := changed_eq_some.mp isSettled
    cases who
    exact .completed changed
  next =>
    obtain ⟨changed, who⟩ := changed_eq_some.mp isSettled
    cases who
    exact .buried changed
  next =>
    obtain ⟨changed, who⟩ := changed_eq_some.mp isSettled
    cases who
    exact .retried changed
  next => cases isSettled

/-- Whoever settles a task holds it. -/
theorem held_of_settles (answers : tape.Answers act w res w')
    (isSettled : settles ⟨tid, act, res⟩ = some (taskId, owner)) :
    ∃ row, w.tasks.find? taskId = some row ∧ TaskStmt.heldBy owner row := by
  have held : ∀ s : TaskStmt, ∀ n : Nat, ∀ updated, TaskStmt.exec.update s w = (.ok n, updated) → 0 < n →
      (∀ row, s.selects row = (decide (row.taskId = taskId) && TaskStmt.heldBy owner row)) →
      ∃ row, w.tasks.find? taskId = some row ∧ TaskStmt.heldBy owner row := by
    intro s n updated executed positive selects
    obtain ⟨row, found, selected, -⟩ := TaskStmt.selected_of_update executed positive
    rw [selects, Bool.and_eq_true, decide_eq_true_eq] at selected
    exact ⟨row, selected.1 ▸ found, selected.2⟩
  cases settles_cases isSettled with
  | @completed _ now updated changed =>
    exact held (.completeTask taskId owner now) updated _ (Prod.ext (exec_of_ok answers).1.symm rfl) changed fun _ => rfl
  | @buried _ error updated changed =>
    exact held (.dlqTask taskId owner error) updated _ (Prod.ext (exec_of_ok answers).1.symm rfl) changed fun _ => rfl
  | @retried _ error nextAt updated changed =>
    exact held (.retryTask taskId owner error nextAt) updated _ (Prod.ext (exec_of_ok answers).1.symm rfl) changed
      fun _ => rfl

/-- A claim `UPDATE` that found the task claimable has won it. -/
theorem claims_of_selected {leaseExp now : Int} {row : Task} (found : w.tasks.find? taskId = some row)
    (selected : (TaskStmt.claimTask taskId owner leaseExp now).selects row) :
    claims ⟨tid, .task (.claimTask taskId owner leaseExp now),
      ((Act.task (.claimTask taskId owner leaseExp now)).exec w).1⟩ = some (taskId, owner) := by
  obtain ⟨updated, executed⟩ := TaskStmt.update_of_not_coalesce (w := w)
    (s := .claimTask taskId owner leaseExp now) rfl
  have answer : ((Act.task (.claimTask taskId owner leaseExp now)).exec w).1 =
      .ok (w.tasks.count (TaskStmt.claimTask taskId owner leaseExp now).selects) := congrArg Prod.fst executed
  rw [answer]
  exact changed_eq_some.mpr ⟨Sql.Table.count_pos_of_find? found selected, rfl⟩

end Steps

/-! ## The invariant -/

/-- What holds of the tasks and of the log in every state. -/
structure Ownership (h : TapeHist) : Prop where
  leased : ∀ taskId row, h.state.tasks.find? taskId = some row → Leased row
  /-- A claimed task is with whoever won the newest claim on it. -/
  newest : ∀ taskId owner row, lastClaim taskId h.log = some owner → h.state.tasks.find? taskId = some row →
    row.status = TaskStatus.claimed.code → row.leaseOwner = owner
  /-- A task is settled by whoever won the newest claim on it. -/
  settled : Logged (fun event older => ∀ taskId owner newest, settles event = some (taskId, owner) →
    lastClaim taskId older = some newest → newest = owner) h.log

section Invariant

variable {tid : Nat} {call : Call} {h : TapeHist} {act : Act} {res : act.Res} {state : World}

theorem leased_push (ownership : Ownership h) (answers : tape.Answers act h.state res state)
    (proper : Proper tid call h act) {taskId : String} {row' : Task} (found' : state.tasks.find? taskId = some row') :
    Leased row' := by
  cases found : h.state.tasks.find? taskId with
  | none =>
    obtain ⟨rfl, -⟩ := task_inserted_of_answers answers found found'
    obtain ⟨pending, unowned⟩ := proper
    simp [Leased, pending, unowned, TaskStatus.code]
  | some row =>
    rcases task_of_answers answers found with kept | ⟨s, rfl, selected, -, -, changed⟩
    · rw [kept, Option.some.injEq] at found'
      exact found' ▸ ownership.leased taskId row found
    · rw [changed, Option.some.injEq] at found'
      exact found' ▸ leased_assign proper (ownership.leased taskId row found) selected

theorem newest_push (ownership : Ownership h) (answers : tape.Answers act h.state res state)
    (proper : Proper tid call h act) {taskId owner : String} {row' : Task}
    (newest : lastClaim taskId (h.push tid act res state).log = some owner)
    (found' : state.tasks.find? taskId = some row') (claimed : row'.status = TaskStatus.claimed.code) :
    row'.leaseOwner = owner := by
  by_cases isNew : ∃ owner', claims ⟨tid, act, res⟩ = some (taskId, owner')
  · -- the claim is the newest, and its owner is in the row
    obtain ⟨owner', isClaim⟩ := isNew
    simp only [Hist.push_log, lastClaim, isClaim, if_pos, Option.some.injEq] at newest
    obtain ⟨row, found, owned⟩ := claim_of_claims answers isClaim
    rw [found, Option.some.injEq] at found'
    rw [← found', owned, newest]
  · have before : lastClaim taskId h.log = some owner := by
      rwa [Hist.push_log, lastClaim_cons_of_other isNew] at newest
    cases found : h.state.tasks.find? taskId with
    | none =>
      obtain ⟨rfl, -⟩ := task_inserted_of_answers answers found found'
      rw [proper.1] at claimed
      cases claimed
    | some row =>
      rcases task_of_answers answers found with kept | ⟨s, rfl, selected, rfl, -, changed⟩
      · rw [kept, Option.some.injEq] at found'
        exact ownership.newest taskId owner row' before (found' ▸ found) claimed
      · rw [changed, Option.some.injEq] at found'
        subst found'
        cases s with
        | claimTask taskId' owner' leaseExp now =>
          have own : taskId' = taskId := by
            simp only [TaskStmt.selects, Bool.and_eq_true, decide_eq_true_eq] at selected
            exact selected.1.symm.trans (Sql.Table.key_of_find? found)
          subst own
          exact absurd ⟨owner', claims_of_selected found selected⟩ isNew
        | completeTask | dlqTask | retryTask => cases claimed
        | coalesceTask =>
          simp only [TaskStmt.selects, Bool.and_eq_true, decide_eq_true_eq] at selected
          rw [TaskStmt.assign, selected.2] at claimed
          cases claimed
        | _ => cases selected

theorem Ownership.push (ownership : Ownership h) (answers : tape.Answers act h.state res state)
    (proper : Proper tid call h act) : Ownership (h.push tid act res state) where
  leased _ _ found := leased_push ownership answers proper found
  newest _ _ _ newest found claimed := newest_push ownership answers proper newest found claimed
  settled := by
    refine ⟨fun taskId owner newest isSettled isNewest => ?_, ownership.settled⟩
    obtain ⟨row, found, held⟩ := held_of_settles answers isSettled
    simp only [TaskStmt.heldBy, Bool.and_eq_true, decide_eq_true_eq] at held
    rw [← ownership.newest taskId newest row isNewest found held.2, held.1]

end Invariant

/-! ## The five methods -/

def isTaskCall : Call → Bool
  | .createTask .. | .claimTasks .. | .completeTask .. | .nackTask .. | .coalesceTask .. => true
  | _ => false

/-- Every task a `claim_tasks` call returned was won for its owner. -/
def claimPost (tid : Nat) (call : Call) (out : call.Out) (h : TapeHist) : Prop :=
  match call, out with
  | .claimTasks _ _ owner _ _ _ _, .ok tasks =>
    ∀ task ∈ tasks, ∃ event ∈ h.log, event.tid = tid ∧ claims event = some (task.taskId, owner)
  | _, _ => True

section Safety

variable {tid : Nat} {call : Call} {ok : Nat → Call → TapeHist → Act → Prop}

theorem all_updatedTask {p : Act → Prop} {taskId : String} (get : p (.task (.getTask taskId))) (updated : Nat) :
    Prog.All p (RunStore.updatedTask taskId updated).run := by
  exact all_ite (c := updated = 0) trivial (all_query get)

theorem proper_createTask {request : Task} {ts : Int} {newId : String} :
    (RunStore.createTask request ts newId).run.All fun act => ∀ h, Proper tid call h act := by
  refine .exceptBind (all_query fun _ => ⟨rfl, rfl⟩) fun _ => .exceptBind (all_query fun _ => trivial) fun found => ?_
  cases found <;> exact trivial

theorem proper_coalesceTask {taskId : String} {sourceGlobalSeq : Int} {payload : Json} {traceId parentSpanId : String} :
    (RunStore.coalesceTask taskId sourceGlobalSeq payload traceId parentSpanId).run.All
      fun act => ∀ h, Proper tid call h act :=
  .exceptBind (all_query fun _ => trivial) fun _ => all_updatedTask (fun _ => trivial) _

theorem proper_completeTask {taskId owner : String} {ts : Int} :
    (RunStore.completeTask taskId owner ts).run.All
      fun act => ∀ h, Proper tid (.completeTask taskId owner ts) h act := by
  unfold RunStore.completeTask
  split
  · exact trivial
  · exact .exceptBind (all_query fun _ => rfl) fun _ => all_updatedTask (fun _ => trivial) _

theorem proper_nackTask {taskId owner error : String} {permanent : Bool} {nowMs clock : Int} :
    (RunStore.nackTask taskId owner error permanent nowMs clock).run.All
      fun act => ∀ h, Proper tid (.nackTask taskId owner error permanent nowMs clock) h act := by
  unfold RunStore.nackTask
  split
  · exact trivial
  · refine .exceptBind (all_query fun _ => trivial) fun found => ?_
    match found with
    | none => exact trivial
    | some (attempts, backoff, dlqAfter) =>
      refine all_ite ?_ ?_
      · exact .exceptBind (all_query fun _ => ⟨permanent, nowMs, clock, rfl⟩) fun _ =>
          all_updatedTask (fun _ => trivial) _
      · exact .exceptBind (all_query fun _ => ⟨permanent, nowMs, clock, rfl⟩) fun _ =>
          all_updatedTask (fun _ => trivial) _

/-- The claiming loop returns tasks it has won. -/
theorem safe_claimCandidates {owner : String} {leaseExp now : Int} (named : owner ≠ "") (candidates : List String)
    (h : TapeHist) :
    tape.Safe (tape.tracked ok Proper tid call) tid
      (fun result h => ∀ tasks, result = .ok tasks →
        ∀ task ∈ tasks, ∃ event ∈ h.log, event.tid = tid ∧ claims event = some (task.taskId, owner))
      (RunStore.claimCandidates owner leaseExp now candidates).run h := by
  induction candidates generalizing h with
  | nil =>
    rintro h' - tasks ⟨⟩ task member
    cases member
  | cons taskId rest inductionHypothesis =>
    refine safe_query (fun _ _ _ returned => by cases returned) fun h₁ res₁ state₁ _ permitted₁ answers₁ => ?_
    refine ⟨⟨_, res₁, state₁, rfl, answers₁, permitted₁, named⟩, fun (updated : Nat) isOk₁ => ?_⟩
    subst isOk₁
    split
    next => exact inductionHypothesis _
    next changed =>
      have won : claims ⟨tid, .task (.claimTask taskId owner leaseExp now), .ok updated⟩ = some (taskId, owner) :=
        changed_eq_some.mpr ⟨Nat.pos_of_ne_zero changed, rfl⟩
      refine safe_query (fun _ _ _ returned => by cases returned) fun h₂ res₂ state₂ foreign₂ permitted₂ answers₂ => ?_
      refine ⟨⟨_, res₂, state₂, rfl, answers₂, permitted₂, trivial⟩, fun (row : Option Task) isOk₂ => ?_⟩
      subst isOk₂
      have kept := List.mem_cons_of_mem ⟨tid, .task (.getTask taskId), .ok row⟩ (foreign₂.mem (List.mem_cons_self ..))
      have own : ∀ task ∈ row, task.taskId = taskId := by
        rintro task rfl
        exact Sql.Table.key_of_find? (Except.ok.inj (exec_of_ok answers₂).1).symm
      -- the event of the win stays in the log while the rest is claimed
      refine System.Safe.exceptBind (fun _ _ _ returned => by cases returned)
        (((inductionHypothesis _).and_mem kept).mono ?_)
      rintro result h₃ ⟨rest, stays⟩ claimed rfl h₄ foreign₄ tasks ⟨⟩ task member
      rcases List.mem_append.mp member with member | member
      · rw [own task (by simpa using member)]
        exact ⟨_, foreign₄.mem stays, rfl, won⟩
      · obtain ⟨event, inLog, byUs, isClaim⟩ := rest claimed rfl task member
        exact ⟨event, foreign₄.mem inLog, byUs, isClaim⟩

theorem safe_claimTasks {reactionId owner : String} {shard leaseMs max nowMs clock : Int} {h : TapeHist} :
    tape.Safe (tape.tracked ok Proper tid call) tid
      (fun result h => ∀ tasks, result = .ok tasks →
        ∀ task ∈ tasks, ∃ event ∈ h.log, event.tid = tid ∧ claims event = some (task.taskId, owner))
      (RunStore.claimTasks reactionId shard owner leaseMs max nowMs clock).run h := by
  unfold RunStore.claimTasks
  split
  next => exact fun _ _ _ returned => by cases returned
  next named =>
    refine safe_query (fun _ _ _ returned => by cases returned) fun h₁ res₁ state₁ _ permitted₁ answers₁ => ?_
    refine ⟨⟨_, res₁, state₁, rfl, answers₁, permitted₁, trivial⟩, fun candidates _ => ?_⟩
    exact safe_claimCandidates (by simpa using named) candidates _

theorem ownership_compose :
    System.Compose tape (fun call => isTaskCall call) (tape.tracked (fun _ _ _ _ => True) Proper) claimPost := by
  refine System.tracked_compose fun {tid call h} admitted _ => ?_
  cases call with
  | createTask => exact System.Safe.of_all_proper (fun _ _ => trivial) proper_createTask h
  | claimTasks reactionId shard owner leaseMs max nowMs clock =>
    refine System.Safe.mono (fun result h returned => ?_) safe_claimTasks
    match result with
    | .ok tasks => exact returned tasks rfl
    | .error _ => trivial
  | completeTask => exact System.Safe.of_all_proper (fun _ _ => trivial) proper_completeTask h
  | nackTask => exact System.Safe.of_all_proper (fun _ _ => trivial) proper_nackTask h
  | coalesceTask => exact System.Safe.of_all_proper (fun _ _ => trivial) proper_coalesceTask h
  | _ => cases admitted

end Safety

/-! ## Runs -/

/-- The thread of every settling event serves a `complete_task` or `nack_task` call for that task, by
    that owner. -/
def SettledByCall (calls : Nat → Option Call) (h : TapeHist) : Prop :=
  ∀ event ∈ h.log, ∀ taskId owner, settles event = some (taskId, owner) →
    (∃ ts, calls event.tid = some (.completeTask taskId owner ts)) ∨
      ∃ error permanent nowMs clock, calls event.tid = some (.nackTask taskId owner error permanent nowMs clock)

theorem SettledByCall.push {calls : Nat → Option Call} {tid : Nat} {call : Call} {h : TapeHist} {act : Act}
    {res : act.Res} {state : World} (settled : SettledByCall calls h) (serves : calls tid = some call)
    (proper : Proper tid call h act) : SettledByCall calls (h.push tid act res state) := by
  intro event member taskId owner isSettled
  rcases List.mem_cons.mp member with rfl | member
  · simp only [serves, Option.some.injEq]
    cases settles_cases isSettled with
    | @completed _ now => exact .inl ⟨now, proper⟩
    | @buried _ error | @retried _ error => exact .inr ⟨error, proper⟩
  · exact settled event member taskId owner isSettled

theorem final_of_answers {act : Act} {res : act.Res} {w w' : World} {taskId : String} {row : Task}
    (answers : tape.Answers act w res w') (final : isFinal row.status) (found : w.tasks.find? taskId = some row) :
    w'.tasks.find? taskId = some row := by
  rcases task_of_answers answers found with kept | ⟨s, -, selected, -⟩
  · exact kept
  · rw [not_selected_of_final final] at selected
    cases selected

/-- **A task has one owner at a time.**  Along every interleaving of the five methods, from any
    database in which exactly the `CLAIMED` tasks have an owner: that stays so; an `UPDATE` that
    `complete_task` or `nack_task` executes after a `claim_tasks` call of `B` returned the task
    does not change the task in the name of an `A` other than `B`, unless `A` won a claim on it after
    `B` did; and a task that is `DONE` or in the dead-letter queue never changes. -/
theorem task_owned_by_one_dispatcher (w : World) (before after : List (Choice Call))
    (leased : ∀ row ∈ w.tasks.rows, Leased row)
    (admitted : tape.Along (System.Permits (fun call => isTaskCall call) fun _ _ _ _ => True) (quiet w)
      (before ++ after)) :
    let c := tape.run (quiet w) before
    let c' := tape.run (quiet w) (before ++ after)
    (∀ row ∈ c'.state.tasks.rows, row.leaseOwner ≠ "" ↔ row.status = TaskStatus.claimed.code) ∧
    (∀ tid reactionId shard B leaseMs max nowMs clock tasks,
      c.pool[tid]? = some ⟨.claimTasks reactionId shard B leaseMs max nowMs clock, .ret (.ok tasks)⟩ →
      ∀ task ∈ tasks, ∃ later claim older, c.log = later ++ claim :: older ∧ claim.tid = tid ∧
        claims claim = some (task.taskId, B) ∧
        ∀ A newer settle between, A ≠ B → c'.log = newer ++ settle :: (between ++ c.log) →
          settles settle = some (task.taskId, A) → ∃ event ∈ between ++ later, claims event = some (task.taskId, A)) ∧
    SettledByCall c'.callOf c'.toHist ∧
    ∀ taskId row, c.state.tasks.find? taskId = some row → isFinal row.status →
      c'.state.tasks.find? taskId = some row := by
  intro c c'
  have owned := quiet_owned w
  obtain ⟨first, second⟩ := System.Along.append.mp admitted
  have safe : tape.PoolSafe _ claimPost c := System.run_safe ownership_compose owned (System.poolSafe_of_empty rfl) first
  have ownership : Ownership c'.toHist := by
    refine System.run_tracked ownership_compose ?_ owned (System.poolSafe_of_empty rfl) ⟨?_, ?_, trivial⟩ admitted
    · exact fun tid call h act res state _ answers _ proper ownership => ownership.push answers proper
    · exact fun taskId row found => leased row (Sql.Table.mem_of_find? found)
    · exact fun taskId owner row newest => by cases newest
  refine ⟨fun row member => ownership.leased _ row (Sql.Table.find?_key_of_mem member), ?_, ?_, ?_⟩
  · intro tid reactionId shard B leaseMs max nowMs clock tasks returned task member
    obtain ⟨claim, inLog, byUs, isClaim⟩ := safe.returned returned task member
    obtain ⟨later, older, split⟩ := List.append_of_mem inLog
    refine ⟨later, claim, older, split, byUs, isClaim, ?_⟩
    intro A newer settle between differ split' isSettled
    -- the newest claim before the settling is `A`'s, and `B`'s is before it
    have newest := ownership.settled.of_split newer split' task.taskId A
    rw [split, ← List.append_assoc] at newest
    obtain ⟨owner, isNewest, whose⟩ := lastClaim_append (between ++ later) older isClaim
    obtain rfl := newest owner isSettled isNewest
    exact whose.resolve_left differ
  · refine System.run_tracked ownership_compose ?_ owned (System.poolSafe_of_empty rfl) ?_ admitted
    · exact fun tid call h act res state serves _ _ proper settled => settled.push serves proper
    · exact fun event member => by cases member
  · intro taskId row found final
    have kept : (tape.run c after).state.tasks.find? taskId = some row := by
      refine System.run_tracked (I := fun h => h.state.tasks.find? taskId = some row) ownership_compose ?_
        (owned.run before) safe found second
      exact fun tid call h act res state _ answers _ _ found => final_of_answers answers final found
    rw [← System.run_append] at kept
    exact kept

/-! ## A task that changes hands -/

/-- One pending task of reaction `"alert"`. -/
def alertTask : Task where
  taskId := ""
  reactionId := "alert"
  shard := 0
  sourceRunId := "r"
  sourceGlobalSeq := 7
  subject := "/tape/effect/failed/wire/r"
  payload := .obj []
  status := TaskStatus.pending.code
  attempts := 0
  nextAttemptAtMs := 0
  leaseOwner := ""
  leaseExpiresAtMs := 0
  lastError := ""
  createdAtMs := 10
  traceId := ""
  parentSpanId := ""

/-- `A` claims the task at 1000 for a minute and stalls; `B` claims it at 62000. -/
def takenOver : List (Choice Call) :=
  serve 0 (.createTask alertTask 10 "t") ++ serve 1 (.claimTasks "alert" 0 "A" 60000 16 1000 1000) ++
    serve 2 (.claimTasks "alert" 0 "B" 60000 16 62000 62000)

/-- `A` reports at last, and then `B` does. -/
def bothReport : List (Choice Call) :=
  serve 3 (.completeTask "t" "A" 63000) ++ serve 4 (.nackTask "t" "B" "unreachable" true 64000 64000)

/-- The late report changes nothing: the task is `B`'s, and ends where `B` puts it. -/
theorem late_report_ignored :
    let c := tape.run (quiet (World.empty .sqlite)) takenOver
    let c' := tape.run (quiet (World.empty .sqlite)) (takenOver ++ bothReport)
    (∀ row ∈ c'.state.tasks.rows, row.leaseOwner ≠ "" ↔ row.status = TaskStatus.claimed.code) ∧
      (c.state.tasks.find? "t").map Task.leaseOwner = some "B" ∧
      c'.log.filterMap settles = [("t", "B")] ∧
      (c'.state.tasks.find? "t").map Task.status = some TaskStatus.dlq.code := by
  have owned := task_owned_by_one_dispatcher (World.empty .sqlite) takenOver bothReport
    (by simp [World.empty, Sql.UniqueTable.empty, Sql.Table.empty]) (by decide +kernel)
  exact ⟨owned.1, by decide +kernel, by decide +kernel, by decide +kernel⟩

end Tape.Queue
