import Tape.Store.RunStore

/-! # `SqlRunStore`: the event bus

The methods of `store/sql.rs` on values, reactions, cursors and tasks.  Claims and
coalescing follow the SQLite path, which takes a statement for each step where the
Postgres path has `UPDATE … RETURNING`.
-/

namespace Tape.RunStore

/-! ## The key-value store -/

def getValue («namespace» key : String) : StoreM (Option ValueRecord) :=
  (ValueStmt.getValue «namespace» key).query

def getValueIfNewer («namespace» key : String) (fromVersion : Int) : StoreM (Option ValueRecord) := do
  let current ← getValue «namespace» key
  return current.filter fun record => fromVersion < record.version

/-- The payload of the journal entry a write emits. -/
def valuePayload («namespace» key valueJson writer : String) (version : Int) : Json := .obj
  [("namespace", .str «namespace»), ("key", .str key), ("version", .int version), ("writer", .str writer),
    ("value", .obj [("namespace", .str «namespace»), ("key", .str key), ("value_json", .str valueJson),
      ("version", .int version)])]

def deletedPayload («namespace» key : String) (version : Int) : Json := .obj
  [("namespace", .str «namespace»), ("key", .str key), ("version", .int version), ("deleted", .bool true)]

/-- The part of `write_value` after the version check. -/
def putValue («namespace» key valueJson writer : String) (ts : Int) : StoreM ValueRecord := do
  let _ ← (ValueStmt.upsertValue «namespace» key valueJson ts writer).query
  match ← getValue «namespace» key with
  | none => throw (.msg "write_value: row vanished after upsert")
  | some record =>
    let subject := Subjects.derive "value" (.obj [("namespace", .str «namespace»), ("key", .str key)])
    orElse (journalFull "" 0 "value" subject
      (valuePayload «namespace» key valueJson writer record.version) ts) ()
    return record

def writeValue («namespace» key valueJson : String) (ifVersion : Int) (writer : String) (ts : Int) :
    StoreM ValueRecord := do
  if 0 ≤ ifVersion then
    let current ← getValue «namespace» key
    let version := (current.map ValueRecord.version).getD 0
    if version ≠ ifVersion then
      throw (.msg ("write_value: version conflict (have " ++ toString version ++ ", expected " ++
        toString ifVersion ++ ")"))
    else putValue «namespace» key valueJson writer ts
  else putValue «namespace» key valueJson writer ts

def deleteValue («namespace» key : String) (ts : Int) : StoreM (Bool × Int) := do
  match ← getValue «namespace» key with
  | none => return (false, 0)
  | some _ =>
    let _ ← (ValueStmt.tombstone «namespace» key ts).query
    let current ← getValue «namespace» key
    let version := (current.map ValueRecord.version).getD 0
    let subject := Subjects.derive "value"
      (.obj [("namespace", .str «namespace»), ("key", .str key), ("deleted", .bool true)])
    orElse (journalFull "" 0 "value" subject (deletedPayload «namespace» key version) ts) ()
    return (true, version)

/-! ## Reactions and cursors -/

def listReactions (subjectPattern : String) : StoreM (List Reaction) :=
  (ReactionStmt.listReactions subjectPattern).query

/-- The row `register_reaction` stores: the request under its id, with the defaults filled in. -/
def registeredReaction (request : Reaction) (reactionId : String) (now : Int) : Reaction :=
  { request with
    reactionId
    maxConcurrency := if 0 < request.maxConcurrency then request.maxConcurrency else 1
    numShards := if 0 < request.numShards then request.numShards else 1
    createdAtMs := if 0 < request.createdAtMs then request.createdAtMs else now
    dlqAfterN := if 0 < request.dlqAfterN then request.dlqAfterN else 5
    retryMax := if 0 < request.retryMax then request.retryMax else 5
    retryBackoffMs := if 0 < request.retryBackoffMs then request.retryBackoffMs else 1000 }

/-- Seed the cursors of the shards `first`, `first + 1`, … at the journal's head. -/
def seedCursors (reactionId : String) (head now : Int) (first : Int) : Nat → StoreM Unit
  | 0 => return ()
  | shards + 1 => do
    let _ ← (CursorStmt.seedCursor reactionId first head now).query
    seedCursors reactionId head now (first + 1) shards

def registerReaction (request : Reaction) (bootstrapFromHead : Bool) (now : Int) (newId : String) :
    StoreM Reaction := do
  let reactionId := if request.reactionId.isEmpty then newId else request.reactionId
  let row := registeredReaction request reactionId now
  let preExists : Bool ← (ReactionStmt.existsReaction reactionId).query
  let _ ← (ReactionStmt.upsertReaction row).query
  if !preExists && bootstrapFromHead then
    let head ← CursorStmt.journalHead.query
    seedCursors reactionId head now 0 row.numShards.toNat
  let reactions ← listReactions ""
  match reactions.find? fun reaction => reaction.reactionId = reactionId with
  | some reaction => return reaction
  | none => throw (.msg "register_reaction: row vanished after upsert")

def deregisterReaction (reactionId : String) : StoreM Bool := do
  let updated : Nat ← (ReactionStmt.softDelete reactionId).query
  return 0 < updated

def getReactionCursor (reactionId : String) (shard : Int) : StoreM Int := do
  let found : Option Int ← (CursorStmt.getCursor reactionId shard).query
  return found.getD 0

def setReactionCursor (reactionId : String) (shard globalSeq nowMs : Int) : StoreM Unit := do
  let _ ← (CursorStmt.setCursor reactionId shard globalSeq nowMs).query

/-! ## Tasks -/

/-- The row `create_task` inserts for a request. -/
def freshTask (request : Task) (ts : Int) (newId : String) : Task where
  taskId := if request.taskId.isEmpty then newId else request.taskId
  reactionId := request.reactionId
  shard := request.shard
  sourceRunId := request.sourceRunId
  sourceGlobalSeq := request.sourceGlobalSeq
  subject := request.subject
  payload := request.payload
  status := TaskStatus.pending.code
  attempts := 0
  nextAttemptAtMs := 0
  leaseOwner := ""
  leaseExpiresAtMs := 0
  lastError := ""
  createdAtMs := if 0 < request.createdAtMs then request.createdAtMs else ts
  traceId := request.traceId
  parentSpanId := request.parentSpanId

def createTask (request : Task) (ts : Int) (newId : String) : StoreM Task := do
  let _ ← (TaskStmt.insertTask (freshTask request ts newId)).query
  match ← (TaskStmt.getBySlot request.reactionId request.shard request.sourceGlobalSeq).query with
  | some row => return row
  | none => throw (.msg "create_task: row vanished after upsert")

/-- The claiming loop of `claim_tasks`. -/
def claimCandidates (owner : String) (leaseExp now : Int) : List String → StoreM (List Task)
  | [] => return []
  | taskId :: rest => do
    let updated : Nat ← (TaskStmt.claimTask taskId owner leaseExp now).query
    if updated = 0 then claimCandidates owner leaseExp now rest
    else
      let row : Option Task ← (TaskStmt.getTask taskId).query
      let claimed ← claimCandidates owner leaseExp now rest
      return row.toList ++ claimed

def claimTasks (reactionId : String) (shard : Int) (owner : String) (leaseMs max nowMs clock : Int) :
    StoreM (List Task) := do
  if owner.isEmpty then throw (.msg "claim_tasks: owner is required")
  else
    let now := claimTime nowMs clock
    let leaseExp := addI64 now (if 0 < leaseMs then leaseMs else 60000)
    let candidates : List String ← (TaskStmt.candidates reactionId shard now (if 0 < max then max else 16)).query
    claimCandidates owner leaseExp now candidates

/-- What `complete_task`, `nack_task` and `coalesce_task` return after their `UPDATE`. -/
def updatedTask (taskId : String) (updated : Nat) : StoreM (Option Task) :=
  if updated = 0 then return none else (TaskStmt.getTask taskId).query

def completeTask (taskId owner : String) (ts : Int) : StoreM (Option Task) := do
  if owner.isEmpty then throw (.msg "complete_task: owner is required")
  else
    let updated : Nat ← (TaskStmt.completeTask taskId owner ts).query
    updatedTask taskId updated

/-- The delay before attempt `attempts + 1`: it doubles each time, up to an hour. -/
def retryDelay (backoff attempts : Int) : Int :=
  min (max backoff 0 * 2 ^ (min (max attempts 1 - 1) 20).toNat) 3600000

def nackTask (taskId owner error : String) (permanent : Bool) (nowMs clock : Int) : StoreM (Option Task) := do
  if owner.isEmpty then throw (.msg "nack_task: owner is required")
  else
    let now := claimTime nowMs clock
    match ← (TaskStmt.readNack taskId owner).query with
    | none => return none
    | some (attempts, backoff, dlqAfter) =>
      if permanent || dlqAfter ≤ attempts then
        let updated : Nat ← (TaskStmt.dlqTask taskId owner error).query
        updatedTask taskId updated
      else
        let updated : Nat ← (TaskStmt.retryTask taskId owner error (addI64 now (retryDelay backoff attempts))).query
        updatedTask taskId updated

def findPendingTaskForSubject (reactionId subject : String) : StoreM (Option Task) :=
  (TaskStmt.findPending reactionId subject).query

def coalesceTask (taskId : String) (sourceGlobalSeq : Int) (payload : Json) (traceId parentSpanId : String) :
    StoreM (Option Task) := do
  let updated : Nat ← (TaskStmt.coalesceTask taskId sourceGlobalSeq payload traceId parentSpanId).query
  updatedTask taskId updated

end Tape.RunStore
