import Tape.Bigtable.Machine
import Tape.Bigtable.RunStore

/-! # Tasks on a Bigtable

The task methods of `BigtableRunStore`: a task is a row, found through an index of the tasks that are not done
and through one by the entry that it was created for.
-/

namespace Tape.BigtableRunStore

open Interleave Bigtable

/-! ## Keys and records -/

/-- `{n:010}`. -/
def pad10 (n : Int) : String := pad 10 n

def rkReaction (reactionId : String) : String := "react#" ++ reactionId

def rkTask (taskId : String) : String := "task#" ++ taskId

def rkTaskidx (reactionId : String) (shard sourceGlobalSeq : Int) : String :=
  "taskidx#" ++ reactionId ++ "#" ++ pad10 shard ++ "#" ++ pad20 sourceGlobalSeq

def rkPending (reactionId : String) (shard : Int) (taskId : String) : String :=
  "pending#" ++ reactionId ++ "#" ++ pad10 shard ++ "#" ++ taskId

/-- A `Task`, its payload as text. -/
structure TaskRecord where
  taskId : String
  reactionId : String
  shard : Int
  sourceRunId : String
  sourceGlobalSeq : Int
  subject : String
  payloadJson : String
  status : Int
  attempts : Int
  nextAttemptAtMs : Int
  leaseOwner : String
  leaseExpiresAtMs : Int
  lastError : String
  createdAtMs : Int
  traceId : String
  parentSpanId : String

def taskFrom (taskId : String) (m : RowMap) : TaskRecord where
  taskId := taskId
  reactionId := gs m "reaction_id"
  shard := asI32 (gi m "shard")
  sourceRunId := gs m "source_run_id"
  sourceGlobalSeq := gi m "source_global_seq"
  subject := gs m "subject"
  payloadJson := gs m "payload_json"
  status := asI32 (gi m "status")
  attempts := asI32 (gi m "attempts")
  nextAttemptAtMs := gi m "next_attempt_at_ms"
  leaseOwner := gs m "lease_owner"
  leaseExpiresAtMs := gi m "lease_expires_at_ms"
  lastError := gs m "last_error"
  createdAtMs := gi m "created_at_ms"
  traceId := gs m "trace_id"
  parentSpanId := gs m "parent_span_id"

/-! ## Predicates -/

/-- `RE2`: whether an expression matches the whole of a text. -/
abbrev Re2 : Type := String → String → Bool

/-- `\Q` quotes a text up to the next `\E`, if the text has none of its own. -/
def Quotes (re2 : Re2) : Prop :=
  ∀ value text, ¬ "\\E".toList <:+: value.toList → re2 ("\\Q" ++ value ++ "\\E") text = (text = value)

def predicateQualifierEquals (re2 : Re2) (qualifier value : String) : RowFilter :=
  ⟨qualifier, .pattern (re2 ("\\Q" ++ value ++ "\\E"))⟩

/-! ## Methods -/

def deleteRow (key : String) : BigtableM Unit := writeRow key [.deleteFromRow]

/-- `newId` is the `Uuid::new_v4` of the call. -/
def createTask (t : TaskRecord) (newId : String) (clock : Int) : BigtableM TaskRecord := do
  let idxKey := rkTaskidx t.reactionId t.shard t.sourceGlobalSeq
  let known ← indexed (← readRow idxKey)
  match known with
  | some existing => return existing
  | none =>
    let tid := if t.taskId = "" then newId else t.taskId
    let created := if 0 < t.createdAtMs then t.createdAtMs else clock
    writeRow (rkTask tid)
      [set "reaction_id" t.reactionId, set "shard" (iv t.shard), set "source_run_id" t.sourceRunId,
        set "source_global_seq" (iv t.sourceGlobalSeq), set "subject" t.subject, set "payload_json" t.payloadJson,
        set "status" (iv TaskStatus.pending.code), set "attempts" (iv 0), set "next_attempt_at_ms" (iv 0),
        set "lease_owner" "", set "lease_expires_at_ms" (iv 0), set "last_error" "", set "created_at_ms" (iv created),
        set "trace_id" t.traceId, set "parent_span_id" t.parentSpanId]
    writeRow idxKey [set "task_id" tid]
    writeRow (rkPending t.reactionId t.shard tid)
      [set "task_id" tid, set "subject" t.subject, set "created_at_ms" (iv created)]
    match ← readRow (rkTask tid) with
    | none => throw (.msg "create_task: row vanished after write")
    | some m => return taskFrom tid m
where
  /-- The task that the index row names, if it is there. -/
  indexed : Option RowMap → BigtableM (Option TaskRecord)
    | none => return none
    | some idx => do
      let existing := gs idx "task_id"
      if existing = "" then return none
      else
        let row ← readRow (rkTask existing)
        return row.map (taskFrom existing)

/-- When a claim can take the task. -/
def claimable (now : Int) (m : RowMap) : Bool :=
  gi m "status" = TaskStatus.pending.code && gi m "next_attempt_at_ms" ≤ now ||
    gi m "status" = TaskStatus.claimed.code && gi m "lease_expires_at_ms" < now

def claimTaskMutations (owner : String) (leaseExp attempts : Int) : List Mutation :=
  [set "status" (iv TaskStatus.claimed.code), set "lease_owner" owner, set "lease_expires_at_ms" (iv leaseExp),
    set "attempts" (iv (addI64 attempts 1))]

/-- The check of a claim that has read `m`: the status must be as it was. -/
def claimTaskOp (re2 : Re2) (taskId owner : String) (leaseExp : Int) (m : RowMap) : Op :=
  .checkAndMutateRow (rkTask taskId) (predicateQualifierEquals re2 "status" (iv (gi m "status")))
    (claimTaskMutations owner leaseExp (gi m "attempts")) []

/-- The loop over the candidates. -/
def claimCandidates (re2 : Re2) (owner : String) (leaseExp max now : Int) :
    List (String × RowMap) → List TaskRecord → BigtableM (List TaskRecord)
  | [], out => return out
  | (_, idx) :: candidates, out => do
    let tid := gs idx "task_id"
    if max ≤ out.length then return out
    else if tid = "" then claimCandidates re2 owner leaseExp max now candidates out
    else
      match ← readRow (rkTask tid) with
      | none => claimCandidates re2 owner leaseExp max now candidates out
      | some m =>
        if !claimable now m then claimCandidates re2 owner leaseExp max now candidates out
        else
          let ok : Bool ← perform (claimTaskOp re2 tid owner leaseExp m)
          if ok then
            match ← readRow (rkTask tid) with
            | none => claimCandidates re2 owner leaseExp max now candidates out
            | some m2 => claimCandidates re2 owner leaseExp max now candidates (out ++ [taskFrom tid m2])
          else claimCandidates re2 owner leaseExp max now candidates out

def claimTtlMs (leaseMs : Int) : Int := if 0 < leaseMs then leaseMs else 60000

def claimTasks (re2 : Re2) (reactionId : String) (shard : Int) (owner : String) (leaseMs max nowMs clock : Int) :
    BigtableM (List TaskRecord) := do
  if owner = "" then throw (.msg "claim_tasks: owner is required")
  else
    let max := if 0 < max then max else 16
    let now := RunStore.claimTime nowMs clock
    let leaseExp := addI64 now (claimTtlMs leaseMs)
    let start :=
      if shard < 0 then "pending#" ++ reactionId ++ "#" else "pending#" ++ reactionId ++ "#" ++ pad10 shard ++ "#"
    let candidates : List (String × RowMap) ← perform (.readPrefix start (Max.max (max * 8) 64).toNat)
    claimCandidates re2 owner leaseExp max now candidates []

def completeTask (re2 : Re2) (taskId owner : String) (clock : Int) : BigtableM (Option TaskRecord) := do
  if owner = "" then throw (.msg "complete_task: owner is required")
  else
    let ok ← checkAndMutate (rkTask taskId) (predicateQualifierEquals re2 "lease_owner" owner)
      [set "status" (iv TaskStatus.done.code), set "completed_at_ms" (iv clock), set "lease_owner" "",
        set "lease_expires_at_ms" (iv 0)] []
    if !ok then return none
    else
      match ← readRow (rkTask taskId) with
      | none => return none
      | some m =>
        let _ ← attempt (deleteRow (rkPending (gs m "reaction_id") (asI32 (gi m "shard")) taskId))
        return some (taskFrom taskId m)

/-- `dlq_after_n` and `retry_backoff_ms` of a reaction, or their defaults. -/
def retryPolicy (reaction : Option RowMap) : Int × Int :=
  let column (m : RowMap) (name : String) (default : Int) := if 0 < gi m name then gi m name else default
  (reaction.elim 5 fun r => asI32 (column r "dlq_after_n" 5), reaction.elim 1000 fun r => column r "retry_backoff_ms" 1000)

/-- It doubles with every attempt, up to an hour: what saturates is above an hour. -/
def retryDelay (backoffMs attempts : Int) : Int := min (backoffMs * 2 ^ (min (max attempts 1 - 1) 20).toNat) 3600000

def nackTask (re2 : Re2) (taskId owner error : String) (permanent : Bool) (nowMs clock : Int) :
    BigtableM (Option TaskRecord) := do
  if owner = "" then throw (.msg "nack_task: owner is required")
  else
    let now := RunStore.claimTime nowMs clock
    match ← readRow (rkTask taskId) with
    | none => return none
    | some m =>
      if gs m "lease_owner" ≠ owner || asI32 (gi m "status") ≠ TaskStatus.claimed.code then return none
      else
        let attempts := asI32 (gi m "attempts")
        let (dlqAfter, backoffMs) := retryPolicy (← readRow (rkReaction (gs m "reaction_id")))
        let toDlq := permanent || dlqAfter ≤ attempts
        let muts :=
          if toDlq then
            [set "status" (iv TaskStatus.dlq.code), set "last_error" error, set "lease_owner" "",
              set "lease_expires_at_ms" (iv 0)]
          else
            [set "status" (iv TaskStatus.pending.code), set "next_attempt_at_ms"
              (iv (addI64 now (retryDelay backoffMs attempts))),
              set "last_error" error, set "lease_owner" "", set "lease_expires_at_ms" (iv 0)]
        let ok ← checkAndMutate (rkTask taskId) (predicateQualifierEquals re2 "lease_owner" owner) muts []
        if !ok then return none
        else
          if toDlq then
            let _ ← attempt (deleteRow (rkPending (gs m "reaction_id") (asI32 (gi m "shard")) taskId))
          let row ← readRow (rkTask taskId)
          return row.map (taskFrom taskId)

/-! ## Calls -/

inductive TaskCall where
  | createTask (t : TaskRecord) (newId : String) (clock : Int)
  | claimTasks (reactionId : String) (shard : Int) (owner : String) (leaseMs max nowMs clock : Int)
  | completeTask (taskId owner : String) (clock : Int)
  | nackTask (taskId owner error : String) (permanent : Bool) (nowMs clock : Int)

namespace TaskCall

abbrev Out : TaskCall → Type
  | createTask .. => Except StoreError TaskRecord
  | claimTasks .. => Except StoreError (List TaskRecord)
  | completeTask .. | nackTask .. => Except StoreError (Option TaskRecord)

def body (re2 : Re2) : (call : TaskCall) → Prog Op Reply call.Out
  | createTask t newId clock => BigtableRunStore.createTask t newId clock
  | claimTasks reactionId shard owner leaseMs max nowMs clock =>
    BigtableRunStore.claimTasks re2 reactionId shard owner leaseMs max nowMs clock
  | completeTask taskId owner clock => BigtableRunStore.completeTask re2 taskId owner clock
  | nackTask taskId owner error permanent nowMs clock =>
    BigtableRunStore.nackTask re2 taskId owner error permanent nowMs clock

end TaskCall

abbrev taskStore (re2 : Re2) : System Contents Op Reply TaskCall TaskCall.Out := machine requestFailed (TaskCall.body re2)

abbrev TaskConfig : Type := Config Contents Op Reply TaskCall TaskCall.Out

/-- A table without any process running, and nothing executed yet. -/
def quietTasks (c : Contents) : TaskConfig where
  state := c
  log := []
  pool := []

theorem quietTasks_owned (c : Contents) : (quietTasks c).Owned := fun _ member => (List.not_mem_nil member).elim

end Tape.BigtableRunStore
