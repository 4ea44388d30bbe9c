import Tape.Bigtable.Claim
import Tape.Bigtable.ReactionStore

/-! # Task leases on a Bigtable

`claim_tasks` takes a task whose status is what it was when the call has read it.  For a task that was `PENDING`
this settles who gets it.  A task whose lease has run out is `CLAIMED` before and after: of two thieves that
have read the same lease, both find the status they ask for.
-/

namespace Tape.BigtableRunStore

open Interleave Bigtable

namespace TaskLease

/-! ## What the calls do to a task -/

/-- The check of a claim of the task was won: only a claim counts an attempt. -/
def claimWon (key : String) : BigtableEvent → Bool
  | ⟨_, .checkAndMutateRow k _ trueMutations falseMutations, .ok matched⟩ =>
    k = rkTask key && (Op.taken trueMutations falseMutations matched).any (Mutation.sets "attempts")
  | _ => false

/-- The task that the call is about to leave. -/
def settles? : TaskCall → Option String
  | .completeTask taskId .. | .nackTask taskId .. => some taskId
  | _ => none

/-- A `complete_task` or a `nack_task` has succeeded on the task, where `calls` are those the threads serve. -/
def settled (calls : Nat → Option TaskCall) (key : String) : BigtableEvent → Bool
  | ⟨tid, .checkAndMutateRow k _ trueMutations falseMutations, .ok matched⟩ =>
    k = rkTask key && !(Op.taken trueMutations falseMutations matched).isEmpty &&
      (calls tid).any fun call => settles? call = some key
  | _ => false

/-- From when until when the call asks for the lease. -/
def claimWindow : TaskCall → Option (Int × Int)
  | .claimTasks _ _ _ leaseMs _ nowMs clock =>
    some (RunStore.claimTime nowMs clock, RunStore.claimTime nowMs clock + claimTtlMs leaseMs)
  | _ => none

/-- The call writes no task row. -/
def sparesTasks : Op → Prop
  | .mutateRow k _ => ∀ key, k ≠ rkTask key
  | .checkAndMutateRow .. => False
  | _ => True

/-- The check of a claim: its last operation has read the task, and found that it can be taken. -/
inductive Claiming (re2 : Re2) (tid : Nat) : TaskCall → BigtableHist → Op → Prop
  | check {reactionId : String} {shard : Int} {owner : String} {leaseMs max nowMs clock : Int} {h : BigtableHist}
      {key : String} {m : RowMap}
      (last : lastOwn tid h.log = some ⟨tid, .readRow (rkTask key), .ok (some m)⟩)
      (isClaimable : claimable (RunStore.claimTime nowMs clock) m) :
      Claiming re2 tid (.claimTasks reactionId shard owner leaseMs max nowMs clock) h
        (claimTaskOp re2 key owner (addI64 (RunStore.claimTime nowMs clock) (claimTtlMs leaseMs)) m)

/-- The check of a `complete_task` or a `nack_task`: the task is not left `CLAIMED`. -/
inductive Settling : TaskCall → Op → Prop
  | check {call : TaskCall} {key : String} {predicate : RowFilter} {mutations : List Mutation}
      (settles : settles? call = some key)
      (some_ : mutations ≠ [])
      (spared : mutations.all (Mutation.spares "attempts"))
      (leaves : ∀ m, gi (Mutation.applyAll mutations m) "status" ≠ TaskStatus.claimed.code) :
      Settling call (.checkAndMutateRow (rkTask key) predicate mutations [])

def Proper (re2 : Re2) (tid : Nat) (call : TaskCall) (h : BigtableHist) (op : Op) : Prop :=
  sparesTasks op ∨ Claiming re2 tid call h op ∨ Settling call op

/-- What a step does to the task `key`. -/
inductive TaskStep (key : String) (call : TaskCall) : BigtableEvent → RowMap → RowMap → Prop
  | same {event : BigtableEvent} {m : RowMap} (unclaimed : claimWon key event = false) : TaskStep key call event m m
  | settled {event : BigtableEvent} {m m' : RowMap} (unclaimed : claimWon key event = false)
      (isSettled : ∀ calls : Nat → Option TaskCall, calls event.tid = some call → settled calls key event)
      (left : gi m' "status" ≠ TaskStatus.claimed.code) : TaskStep key call event m m'
  | claimed {event : BigtableEvent} {m m' : RowMap} (isWon : claimWon key event) : TaskStep key call event m m'

/-- A claim that is won: the status of the task is still what the call has read. -/
inductive Winning (key : String) (tid : Nat) : TaskCall → BigtableHist → Contents → Prop
  | claim {reactionId : String} {shard : Int} {owner : String} {leaseMs max nowMs clock : Int} {h : BigtableHist}
      {m : RowMap}
      (last : lastOwn tid h.log = some ⟨tid, .readRow (rkTask key), .ok (some m)⟩)
      (isClaimable : claimable (RunStore.claimTime nowMs clock) m)
      (status : (h.state.cells (rkTask key)).get? "status" = some (iv (gi m "status"))) :
      Winning key tid (.claimTasks reactionId shard owner leaseMs max nowMs clock) h
        (h.state.mutate (rkTask key) (claimTaskMutations owner
          (addI64 (RunStore.claimTime nowMs clock) (claimTtlMs leaseMs)) (gi m "attempts")))

section Steps

variable {re2 : Re2} {key : String} {tid : Nat} {call : TaskCall} {h : BigtableHist} {op : Op} {res : Reply op}
  {c : Contents} {m : RowMap}

theorem rkTask_injective {k key : String} (same : rkTask k = rkTask key) : k = key := by
  simpa [rkTask] using same

theorem claimWon_of_error (e : StoreError) : claimWon key ⟨tid, op, (.error e : Reply op)⟩ = false := by
  cases op <;> rfl

/-- The status of a task that can be claimed is a digit. -/
theorem status_of_claimable {now : Int} (isClaimable : claimable now m) : gi m "status" = 1 ∨ gi m "status" = 2 := by
  simp only [claimable, Bool.or_eq_true, Bool.and_eq_true, decide_eq_true_eq] at isClaimable
  exact isClaimable.imp And.left And.left

theorem accepts_status (quotes : Quotes re2) {now : Int} (isClaimable : claimable now m) (cells : RowMap) :
    (predicateQualifierEquals re2 "status" (iv (gi m "status"))).accepts cells =
      (cells.get? "status" = some (iv (gi m "status"))) := by
  have digits : ¬ "\\E".toList <:+: (iv (gi m "status")).toList := by
    rcases status_of_claimable isClaimable with one | two
    · rw [one]
      decide
    · rw [two]
      decide
  cases cell : cells.get? "status" with
  | none => simp [RowFilter.accepts, predicateQualifierEquals, cell]
  | some text => simpa [RowFilter.accepts, predicateQualifierEquals, cell, ValueFilter.accepts] using quotes _ text digits

theorem claimWon_of_spared (key : String) (tid : Nat) {k : String} {predicate : RowFilter} {mutations : List Mutation}
    (spared : mutations.all (Mutation.spares "attempts")) (res : Reply (.checkAndMutateRow k predicate mutations [])) :
    claimWon key ⟨tid, .checkAndMutateRow k predicate mutations [], res⟩ = false := by
  match res with
  | .error e => rfl
  | .ok false => simp [claimWon, Op.taken]
  | .ok true => simp [claimWon, Op.taken, Mutation.any_sets_of_spares spared]

theorem winning_of_won (quotes : Quotes re2) (proper : Proper re2 tid call h op)
    (answers : (taskStore re2).Answers op h.state res c) (won : claimWon key ⟨tid, op, res⟩) :
    Winning key tid call h c := by
  rcases machine_answers answers with ⟨rfl, rfl⟩ | ⟨rfl, rfl⟩
  · rcases proper with spares | claiming | settling
    · cases op <;> simp [claimWon, sparesTasks] at won spares
    · cases claiming with
      | @check reactionId shard owner leaseMs max nowMs clock _ k m last isClaimable =>
        have matched : (predicateQualifierEquals re2 "status" (iv (gi m "status"))).accepts (h.state.cells (rkTask k)) := by
          by_contra unmatched
          simp [claimWon, claimTaskOp, Op.exec, Op.taken, unmatched] at won
        have own : rkTask k = rkTask key := by
          simp only [claimWon, claimTaskOp, Bool.and_eq_true, decide_eq_true_eq] at won
          exact won.1
        obtain rfl := rkTask_injective own
        have status := matched
        rw [accepts_status quotes isClaimable] at status
        rw [claimTaskOp, Op.exec, matched]
        exact .claim last isClaimable (by simpa using status)
    · cases settling with
      | check settles some_ spared =>
        rw [claimWon_of_spared key tid spared] at won
        cases won
  · rw [claimWon_of_error] at won
    cases won

/-- A task stays. -/
theorem task_step (proper : Proper re2 tid call h op) (answers : (taskStore re2).Answers op h.state res c)
    (found : h.state.read (rkTask key) = some m) :
    ∃ m', c.read (rkTask key) = some m' ∧ TaskStep key call ⟨tid, op, res⟩ m m' := by
  rcases machine_answers answers with ⟨rfl, rfl⟩ | ⟨rfl, rfl⟩
  · obtain rfl := Contents.cells_of_read found
    have some_ := Contents.ne_nil_of_read found
    -- what is neither a claim nor a settlement spares the rows of the tasks
    rcases proper with spares | claiming | settling
    · cases op with
      | readRow | readPrefix | readRange | increment => exact ⟨_, found, .same rfl⟩
      | checkAndMutateRow => cases spares
      | mutateRow k mutations =>
        exact ⟨_, (Contents.read_mutate_ne h.state mutations (spares key)).trans found, .same rfl⟩
    · cases claiming with
      | @check reactionId shard owner leaseMs max nowMs clock _ k read last isClaimable =>
        by_cases own : rkTask k = rkTask key
        · obtain rfl := rkTask_injective own
          cases matched : (predicateQualifierEquals re2 "status" (iv (gi read "status"))).accepts
            (h.state.cells (rkTask k)) with
          -- the CAS lost, and nothing is written
          | false =>
            refine ⟨_, Op.read_check_self found (by simpa [matched, Op.taken] using some_), ?_⟩
            rw [matched]
            exact .same (by simp [claimWon, claimTaskOp, Op.exec, Op.taken, matched])
          -- the CAS won: the row is the claimer's
          | true =>
            refine ⟨_, Op.read_check_self found (by rw [matched]; exact List.cons_ne_nil _ _), .claimed ?_⟩
            simp [claimWon, claimTaskOp, Op.exec, Op.taken, matched, claimTaskMutations, Mutation.sets, set]
        · exact ⟨_, (Op.read_check_ne own).trans found, .same (by simp [claimWon, claimTaskOp, own])⟩
    · cases settling with
      | @check k predicate mutations settles written spared leaves =>
        have unclaimed := claimWon_of_spared key tid spared
          (.ok ((Op.checkAndMutateRow (rkTask k) predicate mutations []).exec h.state).1)
        by_cases own : rkTask k = rkTask key
        · obtain rfl := rkTask_injective own
          cases matched : predicate.accepts (h.state.cells (rkTask k)) with
          -- a task that was taken over is not settled
          | false =>
            refine ⟨_, Op.read_check_self found (by simpa [matched, Op.taken] using some_), ?_⟩
            rw [matched]
            exact .same unclaimed
          -- the status is what the call settles for
          | true =>
            refine ⟨_, Op.read_check_self found (by rw [matched]; exact Mutation.applyAll_ne_nil spared some_), ?_⟩
            rw [matched]
            refine .settled unclaimed (fun calls serves => ?_) (leaves _)
            simp [settled, Op.exec, Op.taken, matched, written, serves, settles]
        · exact ⟨_, (Op.read_check_ne own).trans found, .same unclaimed⟩
  · exact ⟨m, found, .same (claimWon_of_error _)⟩

end Steps

/-! ## The lease -/

/-- The task is `CLAIMED`, until then at least. -/
def Leased (m : RowMap) (until_ : Int) : Prop :=
  gi m "status" = TaskStatus.claimed.code ∧ until_ ≤ gi m "lease_expires_at_ms"

/-- The lease of a task, where `calls` are those the threads serve. -/
def taskLease (key : String) (calls : Nat → Option TaskCall) : Lease Contents Op Reply where
  grant event := if claimWon key event then (calls event.tid).bind claimWindow else none
  release := settled calls key
  held c until_ := ∃ m, c.read (rkTask key) = some m ∧ Leased m until_

/-- The calls of the dispatchers; the times of a claim are `i64`, and so is its expiry. -/
def Dispatches : TaskCall → Prop
  | .createTask .. => False
  | .claimTasks _ _ _ leaseMs _ nowMs clock => inI64 (RunStore.claimTime nowMs clock) ∧
    inI64 (RunStore.claimTime nowMs clock + claimTtlMs leaseMs)
  | _ => True

instance (call : TaskCall) : Decidable (Dispatches call) := by
  unfold Dispatches
  split <;> infer_instance

/-- The operation is no check that wins a task from its last holder, after another claim of the task has been won since
    the call has read it. -/
def Unstolen (re2 : Re2) (key : String) (tid : Nat) (h : BigtableHist) (op : Op) : Prop :=
  claimWon key ⟨tid, op, ((taskStore re2).exec op h.state).1⟩ →
    gi (h.state.cells (rkTask key)) "status" = TaskStatus.claimed.code → calmSince tid (claimWon key) h.log

instance (re2 : Re2) (key : String) (tid : Nat) (h : BigtableHist) (op : Op) : Decidable (Unstolen re2 key tid h op) :=
  inferInstanceAs (Decidable (_ → _ → _))

/-- Unless it is claimed anew, a task that has been read keeps its expiry as long as it is `CLAIMED`. -/
def Kept (key : String) (h : BigtableHist) : Prop :=
  ∀ newer tid m older, h.log = newer ++ ⟨tid, .readRow (rkTask key), .ok (some m)⟩ :: older →
    (∀ event ∈ newer, claimWon key event = false) → ∃ m', h.state.read (rkTask key) = some m' ∧
      (gi m' "status" = TaskStatus.claimed.code → gi m' "lease_expires_at_ms" = gi m "lease_expires_at_ms")

section Lease

variable {re2 : Re2} {key : String} {tid : Nat} {call : TaskCall} {h : BigtableHist} {op : Op} {res : Reply op}
  {c : Contents} {m : RowMap}

theorem claimTtlMs_pos (leaseMs : Int) : 0 < claimTtlMs leaseMs := by
  unfold claimTtlMs
  split <;> omega

theorem Kept.push (kept : Kept key h) (proper : Proper re2 tid call h op)
    (answers : (taskStore re2).Answers op h.state res c) : Kept key (h.push tid op res c) := by
  intro newer reader m older split unclaimed
  cases newer with
  | nil =>
    obtain ⟨event, -⟩ := List.cons.inj split
    cases event
    rcases machine_answers answers with ⟨found, rfl⟩ | ⟨failed, -⟩
    · exact ⟨m, (Except.ok.inj found).symm, fun _ => rfl⟩
    · cases failed
  | cons event newer =>
    obtain ⟨rfl, rest⟩ := List.cons.inj split
    obtain ⟨m', found, expiry⟩ :=
      kept newer reader m older rest fun event member => unclaimed event (List.mem_cons_of_mem _ member)
    obtain ⟨m'', found', step⟩ := task_step proper answers found
    refine ⟨m'', found', fun isClaimed => ?_⟩
    cases step with
    | same => exact expiry isClaimed
    | settled _ _ left => exact absurd isClaimed left
    | claimed isWon =>
      rw [unclaimed _ List.mem_cons_self] at isWon
      cases isWon

theorem leased_claimed {owner : String} {expiry attempts : Int} (bound : inI64 expiry) :
    Leased (Mutation.applyAll (claimTaskMutations owner expiry attempts) m) expiry := by
  have status : gi (Mutation.applyAll (claimTaskMutations owner expiry attempts) m) "status" = TaskStatus.claimed.code :=
    gi_of_get? (by simp [claimTaskMutations, set, Mutation.apply]) (by decide)
  have until_ : gi (Mutation.applyAll (claimTaskMutations owner expiry attempts) m) "lease_expires_at_ms" = expiry :=
    gi_of_get? (by simp [claimTaskMutations, set, Mutation.apply]) bound
  exact ⟨status, until_.ge⟩

/-- A claim that is won on a leased task has waited for the lease. -/
theorem le_of_winning {now until_ : Int} {read : RowMap} (kept : Kept key h)
    (last : lastOwn tid h.log = some ⟨tid, .readRow (rkTask key), .ok (some read)⟩) (isClaimable : claimable now read)
    (status : (h.state.cells (rkTask key)).get? "status" = some (iv (gi read "status")))
    (unstolen : gi (h.state.cells (rkTask key)) "status" = TaskStatus.claimed.code → calmSince tid (claimWon key) h.log)
    (found : h.state.read (rkTask key) = some m) (leased : Leased m until_) : until_ ≤ now := by
  obtain ⟨isClaimed, bound⟩ := leased
  obtain rfl := Contents.cells_of_read found
  obtain ⟨between, older, split, unclaimed⟩ := calmSince_split (unstolen isClaimed) last
  obtain ⟨m', found', expiry⟩ := kept between tid read older split unclaimed
  obtain rfl := Contents.cells_of_read found'
  have same : gi (h.state.cells (rkTask key)) "status" = gi read "status" := gi_of_get? status (inI64_gi read _)
  rw [same] at isClaimed
  have passed : gi read "lease_expires_at_ms" < now := by
    simp only [claimable, Bool.or_eq_true, Bool.and_eq_true, decide_eq_true_eq] at isClaimable
    rcases isClaimable with ⟨isPending, -⟩ | ⟨-, passed⟩
    · exact absurd (isPending.symm.trans isClaimed) (by decide)
    · exact passed
  have kept := expiry (same.trans isClaimed)
  omega

theorem taskLease_guards (quotes : Quotes re2) {calls : Nat → Option TaskCall} (isCall : calls tid = some call)
    (dispatches : Dispatches call) (proper : Proper re2 tid call h op)
    (answers : (taskStore re2).Answers op h.state res c) (kept : Kept key h)
    (unstolen : res = .ok (op.exec h.state).1 → Unstolen re2 key tid h op) :
    (taskLease key calls).Guards h.state ⟨tid, op, res⟩ c := by
  have grants : (taskLease key calls).grant ⟨tid, op, res⟩ = if claimWon key ⟨tid, op, res⟩ then claimWindow call else none := by
    simp [taskLease, isCall]
  refine .of_cases ?_ ?_ ?_
  · rintro u expiry le ⟨m, found, isClaimed, bound⟩
    exact ⟨m, found, isClaimed, le.trans bound⟩
  · intro now expiry grant
    rw [grants] at grant
    split at grant
    next isWon =>
      have executed : res = .ok (op.exec h.state).1 := by
        rcases machine_answers answers with ⟨executed, -⟩ | ⟨rfl, -⟩
        · exact executed
        · rw [claimWon_of_error] at isWon
          cases isWon
      have undisturbed := unstolen executed
      rw [executed] at isWon
      cases winning_of_won quotes proper answers (executed ▸ isWon) with
      | @claim reactionId shard owner leaseMs _ nowMs clock _ read last isClaimable status =>
        obtain ⟨rfl, rfl⟩ := Prod.mk.inj (Option.some.inj grant)
        have bound := dispatches.2
        have positive := claimTtlMs_pos leaseMs
        refine ⟨by omega, ?_, _, Contents.read_mutate_self (List.cons_ne_nil _ _), ?_⟩
        · rintro u ⟨m, found, leased⟩
          exact le_of_winning kept last isClaimable status (undisturbed isWon) found leased
        · rw [addI64_eq bound.1 bound.2]
          exact leased_claimed bound
    next => cases grant
  · rintro ungranted unreleased u ⟨m, found, leased⟩
    obtain ⟨m', found', step⟩ := task_step proper answers found
    cases step with
    | same => exact ⟨m, found', leased⟩
    | settled _ isSettled => exact absurd (isSettled calls isCall) (by simpa [taskLease] using unreleased)
    | claimed isWon =>
      -- a claim that is won is granted
      cases winning_of_won quotes proper answers isWon
      rw [grants, if_pos isWon] at ungranted
      cases ungranted

end Lease

/-! ## The programs -/

/-- What a claim that has returned leaves behind. -/
def claimPost (tid : Nat) : (call : TaskCall) → call.Out → BigtableHist → Prop
  | .claimTasks .., .ok tasks, h => ∀ task ∈ tasks, ∃ event ∈ h.log, event.tid = tid ∧ claimWon task.taskId event
  | _, _, _ => True

abbrev claimContract (re2 : Re2) (tid : Nat) (call : TaskCall) : Contract Contents Op Reply :=
  (taskStore re2).tracked (fun _ _ _ _ => True) (Proper re2) tid call

/-- No operation is a claim. -/
abbrev Settles {α : Type} (call : TaskCall) (program : BigtableM α) : Prop :=
  program.run.All fun op => sparesTasks op ∨ Settling call op

section Programs

variable {re2 : Re2} {tid : Nat} {call : TaskCall} {taskId owner error : String} {permanent : Bool}
  {nowMs clock : Int}

theorem sparesTasks_pending (reactionId : String) (shard : Int) (taskId : String) (mutations : List Mutation) :
    sparesTasks (.mutateRow (rkPending reactionId shard taskId) mutations) := by
  intro key same
  have first := congrArg String.toList same
  simp [rkPending, rkTask] at first

theorem Settles.pure {α : Type} (value : α) : Settles call (Pure.pure value) := trivial

theorem Settles.perform {op : Op} (proper : sparesTasks op ∨ Settling call op) :
    Settles call (BigtableRunStore.perform op) := ⟨proper, fun _ => trivial⟩

theorem Settles.bind {α β : Type} {program : BigtableM α} {f : α → BigtableM β} (first : Settles call program)
    (rest : ∀ value, Settles call (f value)) : Settles call (program >>= f) := Prog.All.exceptBind first rest

theorem Settles.attempt {α : Type} {program : BigtableM α} (all : Settles call program) :
    Settles call (attempt program) := Prog.All.bind all fun _ => trivial

theorem settles_deleteRow (reactionId : String) (shard : Int) (taskId : String) :
    Settles call (BigtableRunStore.attempt (deleteRow (rkPending reactionId shard taskId))) :=
  .attempt (.perform (.inl (sparesTasks_pending _ _ _ _)))

/-- The status that the mutations set is the first thing they do, and they do not set it again. -/
theorem leaves_status {n : Int} {mutations : List Mutation} (bound : inI64 n) (other : n ≠ TaskStatus.claimed.code)
    (spared : mutations.all (Mutation.spares "status")) (m : RowMap) :
    gi (Mutation.applyAll (set "status" (iv n) :: mutations) m) "status" ≠ TaskStatus.claimed.code := by
  have status : gi (Mutation.applyAll (set "status" (iv n) :: mutations) m) "status" = n := by
    refine gi_of_get? ?_ bound
    rw [Mutation.applyAll_cons, Mutation.get?_applyAll_of_spares spared]
    simp [set, Mutation.apply]
  rwa [status]

theorem settling_done : Settling (.completeTask taskId owner clock)
    (.checkAndMutateRow (rkTask taskId) (predicateQualifierEquals re2 "lease_owner" owner)
      [set "status" (iv TaskStatus.done.code), set "completed_at_ms" (iv clock), set "lease_owner" "",
        set "lease_expires_at_ms" (iv 0)] []) :=
  .check rfl (List.cons_ne_nil _ _) rfl (leaves_status (by decide) (by decide) rfl)

theorem settles_completeTask : Settles (.completeTask taskId owner clock) (completeTask re2 taskId owner clock) := by
  unfold completeTask
  split
  next => trivial
  next =>
    refine .bind (.perform (.inr settling_done)) fun ok => ?_
    split
    next => exact .pure _
    next =>
      refine .bind (.perform (.inl trivial)) fun row => ?_
      cases row with
      | none => exact .pure _
      | some m => exact .bind (settles_deleteRow _ _ _) fun _ => .pure _

theorem settles_nackTask :
    Settles (.nackTask taskId owner error permanent nowMs clock) (nackTask re2 taskId owner error permanent nowMs clock) := by
  unfold nackTask
  split
  next => trivial
  next =>
    refine .bind (.perform (.inl trivial)) fun row => ?_
    cases row with
    | none => exact .pure _
    | some m =>
      dsimp only
      split
      next => exact .pure _
      next =>
        refine .bind (.perform (.inl trivial)) fun reaction => ?_
        have settling : ∀ toDlq, Settling (.nackTask taskId owner error permanent nowMs clock)
            (.checkAndMutateRow (rkTask taskId) (predicateQualifierEquals re2 "lease_owner" owner)
              (if toDlq = true then
                [set "status" (iv TaskStatus.dlq.code), set "last_error" error, set "lease_owner" "",
                  set "lease_expires_at_ms" (iv 0)]
              else
                [set "status" (iv TaskStatus.pending.code), set "next_attempt_at_ms" (iv (addI64
                    (RunStore.claimTime nowMs clock) (retryDelay (retryPolicy reaction).2 (asI32 (gi m "attempts"))))),
                  set "last_error" error, set "lease_owner" "", set "lease_expires_at_ms" (iv 0)]) []) := by
          intro toDlq
          cases toDlq with
          | true => exact .check rfl (List.cons_ne_nil _ _) rfl (leaves_status (by decide) (by decide) rfl)
          | false => exact .check rfl (List.cons_ne_nil _ _) rfl (leaves_status (by decide) (by decide) rfl)
        refine .bind (.perform (.inr (settling _))) fun ok => ?_
        split
        next => exact .pure _
        next =>
          split
          next => exact .bind (settles_deleteRow _ _ _) fun _ => .bind (.perform (.inl trivial)) fun _ => .pure _
          next => exact .bind (.perform (.inl trivial)) fun _ => .pure _

/-- The tasks of the list were won by the thread. -/
def Won (tid : Nat) (tasks : List TaskRecord) (h : BigtableHist) : Prop :=
  ∀ task ∈ tasks, ∃ event ∈ h.log, event.tid = tid ∧ claimWon task.taskId event

theorem Won.mono {tasks : List TaskRecord} {h h' : BigtableHist} (won : Won tid tasks h) (grown : h.log <:+ h'.log) :
    Won tid tasks h' := by
  intro task member
  obtain ⟨event, isLogged, facts⟩ := won task member
  exact ⟨event, grown.mem isLogged, facts⟩

theorem safe_claimCandidates {reactionId : String} {shard leaseMs asked max : Int} (candidates : List (String × RowMap))
    {out : List TaskRecord} {h : BigtableHist} (known : Won tid out h) :
    (taskStore re2).Safe (claimContract re2 tid (.claimTasks reactionId shard owner leaseMs asked nowMs clock)) tid
      (claimPost tid (.claimTasks reactionId shard owner leaseMs asked nowMs clock))
      (claimCandidates re2 owner (addI64 (RunStore.claimTime nowMs clock) (claimTtlMs leaseMs)) max
        (RunStore.claimTime nowMs clock) candidates out).run h := by
  induction candidates generalizing out h with
  | nil => exact fun h' foreign => known.mono foreign.suffix
  | cons candidate candidates inductionHypothesis =>
    obtain ⟨key, idx⟩ := candidate
    unfold claimCandidates
    dsimp only
    split
    next => exact fun h' foreign => known.mono foreign.suffix
    next =>
      split
      next => exact inductionHypothesis known
      next =>
        refine safe_perform (fun _ _ => trivial) (fun _ _ _ => .inl trivial) fun h₁ row state foreign _ _ => ?_
        have known₁ : Won tid out (h₁.push tid (.readRow (rkTask (gs idx "task_id"))) (.ok row) state) :=
          known.mono (foreign.suffix.trans (List.suffix_cons _ _))
        cases row with
        | none => exact inductionHypothesis known₁
        | some m =>
          dsimp only
          split
          next => exact inductionHypothesis known₁
          next isClaimable =>
            refine safe_perform (fun _ _ => trivial) (fun h₂ foreign₂ _ => .inr (.inl ?_)) ?_
            · exact .check (foreign₂.lastOwn_eq.trans (lastOwn_push_self ..)) (by simpa using isClaimable)
            · intro h₂ ok state₂ foreign₂ _ _
              have known₂ : Won tid out (h₂.push tid (claimTaskOp re2 (gs idx "task_id") owner
                  (addI64 (RunStore.claimTime nowMs clock) (claimTtlMs leaseMs)) m) (.ok ok) state₂) :=
                known₁.mono (foreign₂.suffix.trans (List.suffix_cons _ _))
              cases ok with
              | false => exact inductionHypothesis known₂
              | true =>
                refine safe_perform (fun _ _ => trivial) (fun _ _ _ => .inl trivial) fun h₃ row₃ state₃ foreign₃ _ _ => ?_
                have grown : _ <:+ (h₃.push tid (.readRow (rkTask (gs idx "task_id"))) (.ok row₃) state₃).log :=
                  foreign₃.suffix.trans (List.suffix_cons _ _)
                cases row₃ with
                | none => exact inductionHypothesis (known₂.mono grown)
                | some m₂ =>
                  refine inductionHypothesis fun task member => ?_
                  rcases List.mem_append.mp member with old | new
                  · exact known₂.mono grown task old
                  · -- the check that was won is in the log
                    obtain rfl := List.mem_singleton.mp new
                    refine ⟨_, grown.mem List.mem_cons_self, rfl, ?_⟩
                    simp [claimWon, claimTaskOp, Op.taken, claimTaskMutations, set, Mutation.sets, taskFrom]

theorem claims_compose :
    System.Compose (taskStore re2) Dispatches ((taskStore re2).tracked (fun _ _ _ _ => True) (Proper re2)) claimPost := by
  refine System.tracked_compose fun {tid call h} dispatches _ => ?_
  cases call with
  | createTask => cases dispatches
  | claimTasks reactionId shard owner leaseMs max nowMs clock =>
    show (taskStore re2).Safe _ tid _ (claimTasks re2 reactionId shard owner leaseMs max nowMs clock).run h
    unfold claimTasks
    split
    next => exact fun _ _ => trivial
    next =>
      refine safe_perform (fun _ _ => trivial) (fun _ _ _ => .inl trivial) fun h₁ rows state foreign _ _ => ?_
      exact safe_claimCandidates rows fun task member => (List.not_mem_nil member).elim
  | completeTask =>
    exact System.Safe.of_all_proper (fun _ _ => trivial)
      (settles_completeTask.mono fun op proper h => proper.imp_right .inr) h
  | nackTask =>
    exact System.Safe.of_all_proper (fun _ _ => trivial)
      (settles_nackTask.mono fun op proper h => proper.imp_right .inr) h

end Programs

/-! ## Claims in a run -/

/-- From when until when thread `tid` holds the task, if its claim returned it. -/
def handed (key : String) (c : TaskConfig) (tid : Nat) : Option (Int × Int) :=
  match c.pool[tid]? with
  | some ⟨.claimTasks reactionId shard owner leaseMs max nowMs clock, .ret (.ok tasks)⟩ =>
    if tasks.any fun task => task.taskId = key then claimWindow (.claimTasks reactionId shard owner leaseMs max nowMs clock)
    else none
  | _ => none

/-- Both claims were won, the first before the second in the log; and the second waited for the lease of the first, or
    the task was completed or given back in between. -/
def ClaimedAfter (key : String) (c : TaskConfig) (tid₁ : Nat) (expiry₁ : Int) (tid₂ : Nat) (now₂ : Int) : Prop :=
  ∃ newer second between first older, c.log = newer ++ second :: (between ++ first :: older) ∧
    first.tid = tid₁ ∧ claimWon key first ∧ second.tid = tid₂ ∧ claimWon key second ∧
      (expiry₁ ≤ now₂ ∨ ∃ event ∈ between, settled c.callOf key event)

section Run

variable {re2 : Re2} {key : String} {table : Contents} {choices : List (Choice TaskCall)}

/-- What a claim returned it has won. -/
theorem won_of_handed
    (dispatches : (taskStore re2).Along (System.Permits Dispatches fun _ _ _ _ => True) (quietTasks table) choices)
    {tid : Nat} {window : Int × Int} (isHanded : handed key ((taskStore re2).run (quietTasks table) choices) tid = some window) :
    (∃ event ∈ ((taskStore re2).run (quietTasks table) choices).log, event.tid = tid ∧ claimWon key event) ∧
      (((taskStore re2).run (quietTasks table) choices).callOf tid).bind claimWindow = some window := by
  have safe := System.run_safe claims_compose (quietTasks_owned table) (System.poolSafe_of_empty rfl) dispatches
  unfold handed at isHanded
  split at isHanded
  next reactionId shard owner leaseMs max nowMs clock tasks returned =>
    split at isHanded
    next own =>
      obtain ⟨task, member, same⟩ := List.any_eq_true.mp own
      have won := safe.returned returned task member
      rw [of_decide_eq_true same] at won
      refine ⟨won, ?_⟩
      rw [Config.callOf, returned]
      exact isHanded
    next => cases isHanded
  next => cases isHanded

theorem Kept.fault {tid : Nat} {h : BigtableHist} {op : Op} {res : Reply op} (kept : Kept key h)
    (failed : (taskStore re2).fault op = some res) : Kept key (h.push tid op res h.state) := by
  obtain rfl : Except.error requestFailed = res := Option.some.inj failed
  intro newer reader m older split unclaimed
  cases newer with
  | nil => cases (List.cons.inj split).1
  | cons event newer =>
    exact kept newer reader m older (List.cons.inj split).2 fun event member => unclaimed event (List.mem_cons_of_mem _ member)

theorem guards_of_fault {calls : Nat → Option TaskCall} {tid : Nat} {s : Contents} {op : Op} {res : Reply op}
    (failed : (taskStore re2).fault op = some res) : (taskLease key calls).Guards s ⟨tid, op, res⟩ s := by
  obtain rfl : Except.error requestFailed = res := Option.some.inj failed
  refine .of_cases ?_ ?_ fun _ _ _ held => held
  · rintro u expiry le ⟨m, found, isClaimed, bound⟩
    exact ⟨m, found, isClaimed, le.trans bound⟩
  · intro now expiry grant
    simp [taskLease, claimWon_of_error] at grant

/-- Where nobody steals a task that has been stolen, the log of a run keeps its lease exclusive. -/
theorem taskLease_run (quotes : Quotes re2) (key : String)
    (dispatches : (taskStore re2).Along (System.Permits Dispatches fun _ _ _ _ => True) (quietTasks table) choices)
    (unstolen : (taskStore re2).Along (System.Executes fun tid _ h op => Unstolen re2 key tid h op) (quietTasks table) choices) :
    (taskLease key ((taskStore re2).run (quietTasks table) choices).callOf).Exclusive
      ((taskStore re2).run (quietTasks table) choices).log := by
  have admitted := System.run_admitted (by simp [quietTasks]) dispatches
  have proper := System.along_proper claims_compose (quietTasks_owned table) (System.poolSafe_of_empty rfl) dispatches
  have known := (proper.and unstolen).mono fun c choice both =>
    (System.Executes.of_permits (both.1.mono fun _ _ _ => And.right)).and both.2
  refine (System.run_hist_of_execs (I := fun h => Kept key h ∧
    (taskLease key ((taskStore re2).run (quietTasks table) choices).callOf).Recorded h ∧
      (taskLease key ((taskStore re2).run (quietTasks table) choices).callOf).Exclusive h.log) ?_ ?_ ?_ known).2.2
  · rintro tid call h op serves ⟨proper, unstolen⟩ ⟨kept, recorded, exclusive⟩
    have dispatches : Dispatches call := by
      obtain ⟨thread, alive, rfl⟩ := Option.map_eq_some_iff.mp serves
      exact admitted thread (List.mem_of_getElem? alive)
    have guards : (taskLease key ((taskStore re2).run (quietTasks table) choices).callOf).Guards h.state ⟨tid, op, _⟩ _ :=
      taskLease_guards quotes serves dispatches proper .exec kept fun _ => unstolen
    exact ⟨kept.push proper .exec, recorded.push guards, exclusive.push recorded guards⟩
  · rintro tid h op res failed ⟨kept, recorded, exclusive⟩
    have guards : (taskLease key ((taskStore re2).run (quietTasks table) choices).callOf).Guards h.state ⟨tid, op, res⟩
        h.state := guards_of_fault failed
    exact ⟨kept.fault failed, recorded.push guards, exclusive.push recorded guards⟩
  · refine ⟨?_, by simp [Lease.Recorded, quietTasks], by simp [Lease.Exclusive, quietTasks]⟩
    intro newer tid m older split
    simp [quietTasks] at split

theorem claimedAfter_of_exclusive {c : TaskConfig} (exclusive : (taskLease key c.callOf).Exclusive c.log)
    {newer between older : List BigtableEvent} {first second : BigtableEvent}
    (split : c.log = newer ++ second :: (between ++ first :: older)) (won₁ : claimWon key first)
    (won₂ : claimWon key second) {now₁ expiry₁ now₂ expiry₂ : Int}
    (window₁ : (c.callOf first.tid).bind claimWindow = some (now₁, expiry₁))
    (window₂ : (c.callOf second.tid).bind claimWindow = some (now₂, expiry₂)) :
    ClaimedAfter key c first.tid expiry₁ second.tid now₂ :=
  ⟨newer, second, between, first, older, split, rfl, won₁, rfl, won₂, exclusive.expired_or_released split
    ((if_pos won₁).trans window₁) ((if_pos won₂).trans window₂)⟩

/-- Of two claims that return a task, the later one waited for the lease of the other, unless it was completed or given
    back in between. -/
def OneHolder (key : String) (c : TaskConfig) : Prop :=
  ∀ tid₁ now₁ expiry₁ tid₂ now₂ expiry₂, tid₁ ≠ tid₂ → handed key c tid₁ = some (now₁, expiry₁) →
    handed key c tid₂ = some (now₂, expiry₂) →
    ClaimedAfter key c tid₁ expiry₁ tid₂ now₂ ∨ ClaimedAfter key c tid₂ expiry₂ tid₁ now₁

/-- **A task lease has one holder** in every interleaving in which nobody takes a task from a holder whose own claim
    was won after the call had read the task. -/
theorem task_lease_exclusive (re2 : Re2) (quotes : Quotes re2) (key : String) (table : Contents)
    (choices : List (Choice TaskCall))
    (dispatches : (taskStore re2).Along (System.Permits Dispatches fun _ _ _ _ => True) (quietTasks table) choices)
    (unstolen : (taskStore re2).Along (System.Executes fun tid _ h op => Unstolen re2 key tid h op) (quietTasks table) choices) :
    OneHolder key ((taskStore re2).run (quietTasks table) choices) := by
  intro tid₁ now₁ expiry₁ tid₂ now₂ expiry₂ differ handed₁ handed₂
  obtain ⟨⟨event₁, member₁, rfl, won₁⟩, window₁⟩ := won_of_handed dispatches handed₁
  obtain ⟨⟨event₂, member₂, rfl, won₂⟩, window₂⟩ := won_of_handed dispatches handed₂
  have exclusive := taskLease_run quotes key dispatches unstolen
  have distinct : event₁ ≠ event₂ := fun same => differ (congrArg Event.tid same)
  rcases ordered_of_mem member₁ member₂ distinct with ⟨_, _, _, split⟩ | ⟨_, _, _, split⟩
  · exact .inl (claimedAfter_of_exclusive exclusive split won₁ won₂ window₁ window₂)
  · exact .inr (claimedAfter_of_exclusive exclusive split won₂ won₁ window₂ window₁)

end Run

/-! ## Two thieves -/

/-- An expression engine for texts without special characters. -/
def quoting : Re2 := fun expression text => expression = "\\Q" ++ text ++ "\\E"

theorem quoting_quotes : Quotes quoting := by
  intro value text _
  simp [quoting, String.append_assoc, eq_comm]

/-- A task whose lease ran out at 50, and its row in the index. -/
def expiredTask : Contents :=
  (Contents.empty.write "task#t" [("status", "2"), ("lease_owner", "A"), ("lease_expires_at_ms", "50"), ("attempts", "1")]).write
    "pending#r#0000000000#t" [("task_id", "t")]

/-- A claim at `now`, for a minute. -/
def claimAt (owner : String) (now : Int) : TaskCall := .claimTasks "r" (-1) owner 60000 16 now now

def serveTask (tid : Nat) (call : TaskCall) : List (Choice TaskCall) := .spawn call :: List.replicate 8 (.exec tid)

/-- The second dispatcher comes when the lease of the first has run out. -/
theorem task_claims_take_turns :
    handed "t" ((taskStore quoting).run (quietTasks expiredTask) (serveTask 0 (claimAt "B" 100) ++
        serveTask 1 (claimAt "C" 60101))) 1 = some (60101, 120101) ∧
      OneHolder "t" ((taskStore quoting).run (quietTasks expiredTask) (serveTask 0 (claimAt "B" 100) ++
        serveTask 1 (claimAt "C" 60101))) :=
  ⟨by decide +kernel, task_lease_exclusive quoting quoting_quotes "t" expiredTask _ (by decide +kernel) (by decide +kernel)⟩

/-- Both dispatchers read the expired lease before either of them makes its check. -/
def thieves : List (Choice TaskCall) :=
  [.spawn (claimAt "B" 100), .spawn (claimAt "C" 101), .exec 0, .exec 0, .exec 1, .exec 1, .exec 0, .exec 0, .exec 1, .exec 1]

/-- Both of them get the task, a millisecond apart. -/
theorem both_thieves_win : ¬ OneHolder "t" ((taskStore quoting).run (quietTasks expiredTask) thieves) := by
  intro holder
  have unsettled : ∀ event ∈ ((taskStore quoting).run (quietTasks expiredTask) thieves).log,
      settled ((taskStore quoting).run (quietTasks expiredTask) thieves).callOf "t" event = false := by
    simp only [← Bool.not_eq_true, ← List.any_eq_false]
    decide +kernel
  rcases holder 0 100 60100 1 101 60101 (by decide) (by decide +kernel) (by decide +kernel) with after | after
  all_goals
    obtain ⟨newer, second, between, first, older, split, -, -, -, -, waited | ⟨event, member, isSettled⟩⟩ := after
    · exact absurd waited (by decide)
    · rw [unsettled event (by simp [split, member])] at isSettled
      cases isSettled

end TaskLease

end Tape.BigtableRunStore
