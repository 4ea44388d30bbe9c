import Tape.Store.ReactionStore

/-! # The matcher

`matcher.rs`: one pass of the matcher over the journal.  A pass lists the reactions,
reads the cursor of each of their shards, fetches one batch of entries after the
smallest cursor, and then takes each reaction through the batch: an entry after its
shard's cursor is dispatched if the reaction selects it, and the cursor moves to it
whether it was selected or not, and whether its dispatch failed or not.  The cursors
are written back after the batch.

The CEL engine is a third-party crate: `execute` stands for compiling and running an
expression, with `none` for a result that is not a boolean.
-/

namespace Tape

/-! ## Predicates -/

namespace Cel

/-- `Program::compile` and `Program::execute`. -/
abbrev Engine : Type := String → Json → Except String (Option Bool)

/-- `char::is_whitespace`. -/
def isWhitespace (c : Char) : Bool :=
  let code := c.toNat
  (9 ≤ code && code ≤ 13) || code = 0x20 || code = 0x85 || code = 0xa0 || code = 0x1680 ||
    (0x2000 ≤ code && code ≤ 0x200a) || code = 0x2028 || code = 0x2029 || code = 0x202f ||
    code = 0x205f || code = 0x3000

/-- `cel::evaluate`.  A blank expression holds, and a result that is not a boolean does not. -/
def evaluate (execute : Engine) (expr : String) (envelope : Json) : Except String Bool :=
  if expr.toList.all isWhitespace then .ok true
  else match execute expr envelope with
    | .ok (some value) => .ok value
    | .ok none => .ok false
    | .error err => .error err

/-- `cel::envelope`. -/
def envelope (e : EventEntry) : Json := .obj
  [("global_seq", .int e.globalSeq), ("run_id", .str e.runId), ("seq", .int e.seq), ("kind", .str e.kind),
    ("subject", .str e.subject), ("ts_ms", .int e.tsMs), ("schema_version", .int e.schemaVersion),
    ("payload", e.payload), ("trace_id", .str e.traceId)]

end Cel

namespace Matcher

open RunStore

/-- The most entries a pass reads. -/
def batch : Int := 512

/-! ## Shards -/

/-- FNV-1a over the bytes of the string. -/
def hashStr (s : String) : UInt32 :=
  (Subjects.asBytes s).foldl (fun h b => (h ^^^ b.toUInt32) * 0x01000193) 0x811c9dc5

/-- `r.num_shards.max(1)`. -/
def shardCount (r : Reaction) : Nat := (max r.numShards 1).toNat

def shardOf (r : Reaction) (runId : String) : Nat := (hashStr runId).toNat % shardCount r

theorem shardCount_pos (r : Reaction) : 0 < shardCount r := by
  unfold shardCount
  omega

theorem shardOf_lt (r : Reaction) (runId : String) : shardOf r runId < shardCount r :=
  Nat.mod_lt _ (shardCount_pos r)

/-! ## One entry -/

/-- What the dispatch of one entry for one reaction takes from outside the database. -/
structure Surroundings where
  /-- `now_ms()` where the debounce window is tested. -/
  windowMs : Int := 0
  /-- `now_ms()` where the task is built. -/
  createdMs : Int := 0
  taskMs : Int := 0
  newTaskId : String := ""
  runMs : Int := 0
  newRunId : String := ""

/-- One pass: the server it runs on, its CEL engine, and what it takes from outside. -/
structure Tick where
  server : Nat
  execute : Cel.Engine
  around : String → Int → Surroundings
  persistMs : String → Int → Int

/-- The entry's subject matches the reaction's pattern, and its predicate is empty or holds. -/
def selects (execute : Cel.Engine) (r : Reaction) (e : EventEntry) : Bool :=
  Subjects.«matches» r.subjectPattern e.subject &&
    (r.predicateCel.isEmpty ||
      match Cel.evaluate execute r.predicateCel (Cel.envelope e) with
      | .ok holds => holds
      | .error _ => false)

/-- The invocation id under which an entry's agent run is begun. -/
def invocation (r : Reaction) (e : EventEntry) : String :=
  "react-" ++ r.reactionId ++ "-" ++ toString e.globalSeq

/-- The task the matcher asks `create_task` for. -/
def taskFor (r : Reaction) (e : EventEntry) (createdMs : Int) : Task where
  taskId := ""
  reactionId := r.reactionId
  shard := shardOf r e.runId
  sourceRunId := e.runId
  sourceGlobalSeq := e.globalSeq
  subject := e.subject
  payload := e.payload
  status := TaskStatus.pending.code
  attempts := 0
  nextAttemptAtMs := 0
  leaseOwner := ""
  leaseExpiresAtMs := 0
  lastError := ""
  createdAtMs := createdMs
  traceId := e.traceId
  parentSpanId := e.spanId

/-- `prev.created_at_ms.saturating_add(debounce_ms) > now_ms()`. -/
def insideWindow (prev : Task) (debounceMs windowMs : Int) : Bool :=
  windowMs < min (prev.createdAtMs + debounceMs) i64Max

/-- The debounce of an entry: whether it was coalesced into a pending task. -/
def coalesce (r : Reaction) (e : EventEntry) (windowMs : Int) : StoreM Bool :=
  if 0 < r.debounceMs then do
    match ← orElse (findPendingTaskForSubject r.reactionId e.subject) none with
    | some prev =>
      if insideWindow prev r.debounceMs windowMs then
        let coalesced ← orElse (coalesceTask prev.taskId e.globalSeq e.payload e.traceId e.spanId) none
        return coalesced.isSome
      else return false
    | none => return false
  else return false

def dispatchAgent (server : Nat) (r : Reaction) (e : EventEntry) (around : Surroundings) : StoreM Unit :=
  orElse (do
    let _ ← beginRun server r.agentApp "" "" (invocation r e) {} "matcher" 0 around.runMs around.newRunId) ()

def dispatchTask (r : Reaction) (e : EventEntry) (around : Surroundings) : StoreM Unit := do
  let coalesced ← coalesce r e around.windowMs
  if coalesced then return ()
  else
    orElse (do
      let _ ← createTask (taskFor r e around.createdMs) around.taskMs around.newTaskId) ()

def dispatch (tick : Tick) (r : Reaction) (e : EventEntry) : StoreM Unit :=
  let around := tick.around r.reactionId e.globalSeq
  match HandlerKind.ofCode r.handlerKind with
  | .agent => dispatchAgent tick.server r e around
  | .task | .publish => dispatchTask r e around
  | .unspecified => return ()

/-! ## One reaction -/

/-- `if global_seq > new_cursors[shard] { new_cursors[shard] = global_seq }`. -/
def advance (cursors : List Int) (shard : Nat) (globalSeq : Int) : List Int :=
  if cursors.getD shard 0 < globalSeq then cursors.set shard globalSeq else cursors

/-- The loop over the batch, from the cursors `new_cursors` to those it ends with. -/
def processEntries (tick : Tick) (r : Reaction) : List EventEntry → List Int → StoreM (List Int)
  | [], cursors => return cursors
  | e :: rest, cursors =>
    let shard := shardOf r e.runId
    if e.globalSeq ≤ cursors.getD shard 0 then processEntries tick r rest cursors
    else if !selects tick.execute r e then
      processEntries tick r rest (advance cursors shard e.globalSeq)
    else do
      dispatch tick r e
      processEntries tick r rest (advance cursors shard e.globalSeq)

/-- Write back the cursors that moved; `shard` is the number of the first of them. -/
def persistCursors (tick : Tick) (reactionId : String) (shard : Int) : List (Int × Int) → StoreM Unit
  | [] => return ()
  | (old, new) :: rest => do
    if old < new then
      orElse (setReactionCursor reactionId shard new (tick.persistMs reactionId shard)) ()
      persistCursors tick reactionId (shard + 1) rest
    else persistCursors tick reactionId (shard + 1) rest

def processReaction (tick : Tick) (entries : List EventEntry) (r : Reaction) (cursors : List Int) :
    StoreM Unit := do
  let newCursors ← processEntries tick r entries cursors
  persistCursors tick r.reactionId 0 (cursors.zip newCursors)

def processReactions (tick : Tick) (entries : List EventEntry) : List (Reaction × List Int) → StoreM Unit
  | [] => return ()
  | (r, cursors) :: rest => do
    processReaction tick entries r cursors
    processReactions tick entries rest

/-! ## One pass -/

/-- The cursors of the shards `shard`, `shard + 1`, …. -/
def readCursors (reactionId : String) (shard : Int) : Nat → StoreM (List Int)
  | 0 => return []
  | shards + 1 => do
    let cursor ← getReactionCursor reactionId shard
    let cursors ← readCursors reactionId (shard + 1) shards
    return cursor :: cursors

/-- Each reaction with the cursors of its shards. -/
def withCursors : List Reaction → StoreM (List (Reaction × List Int))
  | [] => return []
  | r :: rest => do
    let cursors ← readCursors r.reactionId 0 (shardCount r)
    let others ← withCursors rest
    return (r, cursors) :: others

/-- The smallest cursor; without any below `i64::MAX` the pass starts at zero. -/
def minCursor (cursors : List Int) : Int :=
  let least := cursors.foldl min i64Max
  if least = i64Max then 0 else least

def step (tick : Tick) : StoreM Unit := do
  let reactions ← listReactions ""
  if reactions.isEmpty then return ()
  else
    let positions ← withCursors reactions
    -- the journal's head, which nothing uses
    let _ ← orElse (readJournalAfter (i64Max - 1) 1) []
    let entries ← readJournalAfter (minCursor (positions.flatMap Prod.snd)) batch
    if entries.isEmpty then return ()
    else processReactions tick entries positions

end Matcher

end Tape
