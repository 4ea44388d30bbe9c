import Tape.Methods
import Tape.Queue.Ownership

/-! # Poison tasks

`claim_tasks` counts the attempts of a task and `nack_task` compares them with the
reaction's `dlq_after_n`, so a task whose handler reports every failure is in the
dead-letter queue after that many attempts.  A handler that dies does not report: its
lease runs out, and `claim_tasks` takes the task over without looking at the count.  And
`nack_task` decides on a count it read before, which a claim may have passed meanwhile.
Where neither happens the count stays below the bound.
-/

namespace Tape.Queue

open Interleave

/-! ## Counting -/

/-- How often the task was handed out. -/
def claimCount (taskId : String) (log : List TapeEvent) : Nat :=
  log.countP fun event => (claims event).any fun claim => claim.1 = taskId

/-- What `nack_task` read of the task: its attempts, and after how many it is given up. -/
def nackRead (taskId : String) : TapeEvent → Option (Int × Int)
  | ⟨_, .sql (.task (.readNack t _)), .ok (some (attempts, _, dlqAfter))⟩ =>
    if t = taskId then some (attempts, dlqAfter) else none
  | _ => none

/-- The task is not taken over from a dead handler once its attempts are used up, and not put back on
    the strength of a count that a claim has passed. -/
def keepsCount (taskId : String) (n : Int) (tid : Nat) (h : TapeHist) : Act → Bool
  | .sql (.task (.claimTask t owner leaseExp now)) => (h.state.tasks.find? taskId).all fun row =>
    !((TaskStmt.claimTask t owner leaseExp now).selects row && row.status = TaskStatus.claimed.code) || row.attempts < n
  | .sql (.task (.retryTask t owner error nextAt)) => (h.state.tasks.find? taskId).all fun row =>
    !(TaskStmt.retryTask t owner error nextAt).selects row ||
      ((lastOwn tid h.log).bind (nackRead taskId)).all fun read => read.1 = row.attempts
  | _ => true

/-- What the five methods ask of their statements: all are on the tasks, and a task is put back by a
    thread that has just read fewer attempts than the reaction allows. -/
def RetriesAllowed (tid : Nat) (h : TapeHist) : Act → Prop
  | .sql (.task (.retryTask taskId ..)) =>
    ∃ read, (lastOwn tid h.log).bind (nackRead taskId) = some read ∧ read.1 < read.2
  | .sql (.task _) => True
  | _ => False

/-! ## The invariant -/

/-- The attempts of the task are the claims on it, and less than `n` while it can be claimed. -/
structure Counted (taskId : String) (reaction : Reaction) (h : TapeHist) : Prop where
  registered : h.state.reactions.find? reaction.reactionId = some reaction
  row : ∃ row, h.state.tasks.find? taskId = some row ∧ row.reactionId = reaction.reactionId ∧
    row.attempts = claimCount taskId h.log ∧ row.attempts ≤ reaction.dlqAfterN ∧
    (row.status = TaskStatus.pending.code → row.attempts < reaction.dlqAfterN)
  read : ∀ event ∈ h.log, ∀ read, nackRead taskId event = some read → read.2 = reaction.dlqAfterN

section Step

variable {taskId : String} {reaction : Reaction} {tid : Nat} {h : TapeHist} {act : Act} {res : act.Res} {state : World}

theorem reactions_of_answers (answers : tape.Answers act h.state res state) (allowed : RetriesAllowed tid h act) :
    state.reactions = h.state.reactions := by
  cases answers with
  | fault _ => rfl
  | exec =>
    rcases act with (s | s | s | s | s | s | s | s | s | s | s) | _ | _
    case sql.task => rfl
    all_goals exact allowed.elim

/-- The row after an act that is no claim on the task: its attempts are what they were. -/
theorem unclaimed_of_answers {row : Task} (answers : tape.Answers act h.state res state)
    (found : h.state.tasks.find? taskId = some row) (unclaimed : ¬∃ owner, claims ⟨tid, act, res⟩ = some (taskId, owner)) :
    ∃ row', state.tasks.find? taskId = some row' ∧ row'.reactionId = row.reactionId ∧ row'.attempts = row.attempts ∧
      (row'.status = TaskStatus.pending.code → row.status = TaskStatus.pending.code ∨
        ∃ owner error nextAt, act = .task (.retryTask taskId owner error nextAt) ∧
          (TaskStmt.retryTask taskId owner error nextAt).selects row) := by
  have own : row.taskId = taskId := Sql.Table.key_of_find? found
  rcases task_of_answers answers found with kept | ⟨s, rfl, selected, rfl, -, changed⟩
  · exact ⟨row, kept, rfl, rfl, .inl⟩
  refine ⟨_, changed, ?_⟩
  cases s with
  | claimTask t owner leaseExp now =>
    obtain rfl : t = taskId := by
      simp only [TaskStmt.selects, Bool.and_eq_true, decide_eq_true_eq] at selected
      exact selected.1.symm.trans own
    exact absurd ⟨owner, claims_of_selected found selected⟩ unclaimed
  | completeTask | dlqTask => exact ⟨rfl, rfl, fun pending => by cases pending⟩
  | coalesceTask => exact ⟨rfl, rfl, .inl⟩
  | retryTask t owner error nextAt =>
    obtain rfl : t = taskId := by
      simp only [TaskStmt.selects, Bool.and_eq_true, decide_eq_true_eq] at selected
      exact selected.1.symm.trans own
    exact ⟨rfl, rfl, fun _ => .inr ⟨owner, error, nextAt, rfl, selected⟩⟩
  | _ => cases selected

theorem Counted.row_push (counted : Counted taskId reaction h) (answers : tape.Answers act h.state res state)
    (allowed : RetriesAllowed tid h act) (keeps : keepsCount taskId reaction.dlqAfterN tid h act) :
    ∃ row, state.tasks.find? taskId = some row ∧ row.reactionId = reaction.reactionId ∧
      row.attempts = claimCount taskId (h.push tid act res state).log ∧ row.attempts ≤ reaction.dlqAfterN ∧
      (row.status = TaskStatus.pending.code → row.attempts < reaction.dlqAfterN) := by
  obtain ⟨row, found, reactionId, attempts, bounded, open'⟩ := counted.row
  by_cases isClaim : ∃ owner, claims ⟨tid, act, res⟩ = some (taskId, owner)
  · obtain ⟨owner, isClaim⟩ := isClaim
    obtain ⟨leaseExp, now, row', rfl, found', selected, changed⟩ := claimed_of_claims answers isClaim
    obtain rfl : row = row' := Option.some.inj (found.symm.trans found')
    -- a pending task has attempts left, and a claimed one by the condition
    have left : row.attempts < reaction.dlqAfterN := by
      by_cases claimed : row.status = TaskStatus.claimed.code
      · simpa [keepsCount, found, selected, claimed] using keeps
      · refine open' ?_
        simp only [TaskStmt.selects, TaskStmt.claimable, claimed, Bool.and_eq_true, Bool.or_eq_true, decide_eq_true_eq,
          false_and, or_false] at selected
        exact selected.2.1
    have counts : (claimCount taskId (⟨tid, .task (.claimTask taskId owner leaseExp now), res⟩ :: h.log) : Int) =
        claimCount taskId h.log + 1 := by
      simp [claimCount, isClaim]
    refine ⟨_, changed, reactionId, ?_, ?_, fun pending => by cases pending⟩
    · rw [Hist.push_log, counts, ← attempts]
      rfl
    · simp only [TaskStmt.assign]
      omega
  · obtain ⟨row', found', reactionId', attempts', pending'⟩ := unclaimed_of_answers answers found isClaim
    have counts : claimCount taskId (⟨tid, act, res⟩ :: h.log) = claimCount taskId h.log := by
      have other : (claims ⟨tid, act, res⟩).any (fun claim => claim.1 = taskId) = false := by
        rw [Bool.eq_false_iff]
        intro isOwn
        obtain ⟨⟨claimed, owner⟩, isSome, same⟩ := (Option.any_eq_true _ _).mp isOwn
        obtain rfl : claimed = taskId := of_decide_eq_true same
        exact isClaim ⟨owner, isSome⟩
      simp [claimCount, other]
    refine ⟨row', found', reactionId'.trans reactionId, ?_, attempts' ▸ bounded, fun pending => ?_⟩
    · rw [Hist.push_log, counts, attempts', attempts]
    rw [attempts']
    rcases pending' pending with before | ⟨owner, error, nextAt, rfl, selected⟩
    · exact open' before
    · -- what `nack_task` has read is still so
      obtain ⟨read, isRead, below⟩ := allowed
      have upToDate : read.1 = row.attempts := by
        simpa [keepsCount, found, selected, isRead] using keeps
      obtain ⟨event, isLast, isRead⟩ := Option.bind_eq_some_iff.mp isRead
      have bound := counted.read event (List.mem_of_find?_eq_some isLast) read isRead
      omega

theorem Counted.push (counted : Counted taskId reaction h) (answers : tape.Answers act h.state res state)
    (allowed : RetriesAllowed tid h act) (keeps : keepsCount taskId reaction.dlqAfterN tid h act) :
    Counted taskId reaction (h.push tid act res state) where
  registered := by
    rw [Hist.push_state, reactions_of_answers answers allowed]
    exact counted.registered
  row := counted.row_push answers allowed keeps
  read event member read isRead := by
    rcases List.mem_cons.mp member with rfl | older
    · unfold nackRead at isRead
      split at isRead
      next _ t owner attempts backoff dlqAfter same =>
        cases same
        split at isRead
        next own =>
          subst own
          cases isRead
          obtain ⟨row, found, reactionId, -⟩ := counted.row
          obtain ⟨answer, -⟩ := exec_of_ok answers
          have read := (Except.ok.inj answer).symm
          simp only [found] at read
          obtain ⟨row', isRow, same⟩ := Option.map_eq_some_iff.mp read
          obtain rfl : row = row' := Option.some.inj ((Option.filter_eq_some_iff.mp isRow).1)
          rw [reactionId, counted.registered] at same
          exact (congrArg (fun read => read.2.2) same).symm
        next => cases isRead
      next => cases isRead
    · exact counted.read event older read isRead

end Step

/-! ## The five methods -/

section Safety

variable {tid : Nat} {call : Call} {ok : Nat → Call → TapeHist → Act → Prop}

theorem allowed_of_task (s : TaskStmt) (other : s.isRetry = false) (h : TapeHist) : RetriesAllowed tid h (.task s) := by
  cases s with
  | retryTask => cases other
  | _ => trivial

theorem all_allowed_task (s : TaskStmt) (other : s.isRetry = false) :
    (Prog.perform (Act.task s) : Prog Act Act.Res _).All fun act => ∀ h, RetriesAllowed tid h act :=
  ⟨allowed_of_task s other, fun _ => trivial⟩

/-- `nack_task` puts a task back only after it has read that attempts are left. -/
theorem safe_nackTask (taskId owner error : String) (permanent : Bool) (nowMs clock : Int) (h : TapeHist) :
    tape.Safe (tape.tracked ok (fun tid _ h act => RetriesAllowed tid h act) tid call) tid (fun _ _ => True)
      (RunStore.nackTask taskId owner error permanent nowMs clock).run h := by
  have updated : ∀ n h, tape.Safe (tape.tracked ok (fun tid _ h act => RetriesAllowed tid h act) tid call) tid
      (fun _ _ => True) (RunStore.updatedTask taskId n).run h := fun n h =>
    System.Safe.of_all_proper (fun _ _ => trivial) (updatedTask_of (all_composable _) all_allowed_task) h
  refine safe_ite (fun _ => fun _ _ => trivial) fun _ => ?_
  refine safe_query (fun _ _ => trivial) fun h₁ res₁ state₁ _ permitted₁ answers₁ => ?_
  refine ⟨⟨_, res₁, state₁, rfl, answers₁, permitted₁, trivial⟩, fun found isOk => ?_⟩
  subst isOk
  cases found with
  | none => exact fun _ _ => trivial
  | some row =>
    obtain ⟨attempts, backoff, dlqAfter⟩ := row
    refine safe_ite (fun _ => ?_) fun left => ?_
    · refine safe_query (fun _ _ => trivial) fun h₂ res₂ state₂ _ permitted₂ answers₂ => ?_
      exact ⟨⟨_, res₂, state₂, rfl, answers₂, permitted₂, trivial⟩, fun _ _ => updated _ _⟩
    · refine safe_query (fun _ _ => trivial) fun h₂ res₂ state₂ foreign₂ permitted₂ answers₂ => ?_
      refine ⟨⟨_, res₂, state₂, rfl, answers₂, permitted₂, (attempts, dlqAfter), ?_, ?_⟩, fun _ _ => updated _ _⟩
      · have last : lastOwn tid h₂.log = _ := foreign₂.lastOwn_eq.trans (lastOwn_push_self ..)
        rw [last]
        exact if_pos rfl
      · simp only [Bool.or_eq_true, decide_eq_true_eq, not_or] at left
        omega

theorem poison_compose (ok : Nat → Call → TapeHist → Act → Prop) :
    System.Compose tape (fun call => isTaskCall call) (tape.tracked ok fun tid _ h act => RetriesAllowed tid h act)
      fun _ _ _ _ => True := by
  refine System.tracked_compose fun {tid call h} admitted _ => ?_
  cases call with
  | createTask =>
    exact System.Safe.of_all_proper (fun _ _ => trivial) (createTask_of (all_composable _) all_allowed_task) h
  | claimTasks =>
    exact System.Safe.of_all_proper (fun _ _ => trivial) (claimTasks_of (all_composable _) all_allowed_task) h
  | completeTask =>
    exact System.Safe.of_all_proper (fun _ _ => trivial) (completeTask_of (all_composable _) all_allowed_task) h
  | coalesceTask =>
    exact System.Safe.of_all_proper (fun _ _ => trivial) (coalesceTask_of (all_composable _) all_allowed_task) h
  | nackTask => exact safe_nackTask ..
  | _ => cases admitted

end Safety

/-- **Poison tasks are given up.**  For a pending task that was never handed out, of a reaction that gives
    up after `n` attempts: along every interleaving of the five methods that takes the task over from a
    dead handler only while attempts are left, and passes no claim between the two statements of a
    `nack_task` that puts it back, the task is handed out at most `n` times. -/
theorem poison_task_given_up (taskId : String) (reaction : Reaction) (w : World)
    (registered : w.reactions.find? reaction.reactionId = some reaction) (positive : 1 ≤ reaction.dlqAfterN)
    {task : Task} (found : w.tasks.find? taskId = some task) (ofReaction : task.reactionId = reaction.reactionId)
    (fresh : task.attempts = 0)
    (choices : List (Choice Call))
    (keeps : tape.Along (System.Permits (fun call => isTaskCall call)
      fun tid _ h act => keepsCount taskId reaction.dlqAfterN tid h act) (quiet w) choices) :
    (claimCount taskId (tape.run (quiet w) choices).log : Int) ≤ reaction.dlqAfterN := by
  have counted : Counted taskId reaction (tape.run (quiet w) choices).toHist := by
    refine System.run_tracked (poison_compose _) ?_ (quiet_owned w) (System.poolSafe_of_empty rfl) ?_ keeps
    · exact fun tid call h act res state _ answers keeps allowed counted => counted.push answers allowed keeps
    · refine ⟨registered, ⟨task, found, ofReaction, ?_, ?_, fun _ => ?_⟩, fun event member => by cases member⟩
      · simpa [claimCount] using fresh
      · omega
      · omega
  obtain ⟨row, -, -, attempts, bounded, -⟩ := counted.row
  omega

/-! ## A handler that dies -/

/-- The reaction `"alert"` gives up after two attempts. -/
def alertReaction : Reaction where
  reactionId := "alert"
  name := ""
  subjectPattern := "/tape/effect/failed/**"
  predicateCel := ""
  handlerKind := HandlerKind.task.code
  agentApp := ""
  publishTarget := ""
  maxConcurrency := 1
  rateLimitPerS := 0
  debounceMs := 0
  retryMax := 5
  retryBackoffMs := 1000
  dlqAfterN := 2
  numShards := 1
  createdAtMs := 1

def alertWorld : World :=
  (tape.run (quiet (World.empty .sqlite)) (serve 0 (.registerReaction alertReaction false 1 "") ++
    serve 1 (.createTask alertTask 10 "t"))).state

/-- A dispatcher claims the task for a minute. -/
def claimedBy (tid : Nat) (owner : String) (nowMs : Int) : List (Choice Call) :=
  serve tid (.claimTasks "alert" 0 owner 60000 16 nowMs nowMs)

/-- Three handlers die of the task, one after the other. -/
def dyingHandlers : List (Choice Call) :=
  claimedBy 0 "A" 1000 ++ claimedBy 1 "B" 62000 ++ claimedBy 2 "C" 123000

theorem dying_handlers_claim_on :
    (alertWorld.reactions.find? "alert").map Reaction.dlqAfterN = some 2 ∧
      claimCount "t" (tape.run (quiet alertWorld) dyingHandlers).log = 3 := by
  refine ⟨?_, ?_⟩ <;> decide +kernel

/-- Two handlers report that they failed, and a third dispatcher looks for work. -/
def reportingHandlers : List (Choice Call) :=
  claimedBy 0 "A" 1000 ++ serve 1 (.nackTask "t" "A" "unreachable" false 2000 2000) ++ claimedBy 2 "B" 62000 ++
    serve 3 (.nackTask "t" "B" "unreachable" false 63000 63000) ++ claimedBy 4 "C" 123000

theorem reporting_handlers_given_up :
    (claimCount "t" (tape.run (quiet alertWorld) reportingHandlers).log : Int) ≤ 2 ∧
      ((tape.run (quiet alertWorld) reportingHandlers).state.tasks.find? "t").map Task.status =
        some TaskStatus.dlq.code := by
  have present : (alertWorld.tasks.find? "t").any (fun task => task.reactionId = "alert" && task.attempts = 0) := by
    decide +kernel
  obtain ⟨task, found, isFresh⟩ := (Option.any_eq_true _ _).mp present
  simp only [Bool.and_eq_true, decide_eq_true_eq] at isFresh
  exact ⟨poison_task_given_up "t" alertReaction alertWorld (by decide +kernel) (by decide) found isFresh.1 isFresh.2
    reportingHandlers (by decide +kernel), by decide +kernel⟩

end Tape.Queue
