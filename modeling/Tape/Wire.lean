import Mathlib.Algebra.Ring.Int.Defs
import Mathlib.Algebra.Ring.Nat

/-! # Wire types

The enumerations and records of `proto/tape.proto` that the store and the SDK
exchange.  A status travels as an `i32` and is stored as one: the columns hold
whatever integer the client sent, so records carry `Int` and the enumerations
give names to some of its values.
-/

namespace Tape

/-! ## Enumerations -/

inductive RunStatus where
  | unspecified | runnable | running | waiting | terminal | failed | compensating | stuck | cancelled
  deriving DecidableEq, Repr

/-- `RunStatus as i32`. -/
def RunStatus.code : RunStatus → Int
  | unspecified => 0
  | runnable => 1
  | running => 2
  | waiting => 3
  | terminal => 4
  | failed => 5
  | compensating => 6
  | stuck => 7
  | cancelled => 8

/-- `RunStatus::try_from(i32)`. -/
def RunStatus.tryFrom (code : Int) : Option RunStatus :=
  [unspecified, runnable, running, waiting, terminal, failed, compensating, stuck, cancelled].find?
    fun status => status.code = code

inductive EffectStatus where
  | unspecified | pending | confirmed | failed | unknown
  deriving DecidableEq, Repr

def EffectStatus.code : EffectStatus → Int
  | unspecified => 0
  | pending => 1
  | confirmed => 2
  | failed => 3
  | unknown => 4

def EffectStatus.tryFrom (code : Int) : Option EffectStatus :=
  [unspecified, pending, confirmed, failed, unknown].find? fun status => status.code = code

inductive EffectSemantics where
  | unspecified | idempotent | nonIdempotent | observeOnly
  deriving DecidableEq, Repr

def EffectSemantics.code : EffectSemantics → Int
  | unspecified => 0
  | idempotent => 1
  | nonIdempotent => 2
  | observeOnly => 3

inductive EffectDispatchMode where
  | unspecified | inline | outbox
  deriving DecidableEq, Repr

def EffectDispatchMode.code : EffectDispatchMode → Int
  | unspecified => 0
  | inline => 1
  | outbox => 2

inductive EffectResolution where
  | unspecified | confirmed | failed | absent | duplicate | stuck
  deriving DecidableEq, Repr

def EffectResolution.code : EffectResolution → Int
  | unspecified => 0
  | confirmed => 1
  | failed => 2
  | absent => 3
  | duplicate => 4
  | stuck => 5

inductive ObligationStatus where
  | unspecified | pending | committed | compensated | stuck
  deriving DecidableEq, Repr

def ObligationStatus.code : ObligationStatus → Int
  | unspecified => 0
  | pending => 1
  | committed => 2
  | compensated => 3
  | stuck => 4

inductive HandlerKind where
  | unspecified | agent | task | publish
  deriving DecidableEq, Repr

def HandlerKind.code : HandlerKind → Int
  | unspecified => 0
  | agent => 1
  | task => 2
  | publish => 3

/-- `HandlerKind::try_from(code).unwrap_or(HandlerKind::Unspecified)`. -/
def HandlerKind.ofCode (code : Int) : HandlerKind :=
  if code = agent.code then agent
  else if code = task.code then task
  else if code = publish.code then publish
  else unspecified

inductive TaskStatus where
  | unspecified | pending | claimed | done | failed | dlq
  deriving DecidableEq, Repr

def TaskStatus.code : TaskStatus → Int
  | unspecified => 0
  | pending => 1
  | claimed => 2
  | done => 3
  | failed => 4
  | dlq => 5

/-- The largest `i64`. -/
def i64Max : Int := 2 ^ 63 - 1

/-- `a + b` on `i64` as the release profile computes it: two's complement, no overflow check. -/
def addI64 (a b : Int) : Int := Int.bmod (a + b) (2 ^ 64)

theorem addI64_eq {a b : Int} (low : -2 ^ 63 ≤ a + b) (high : a + b < 2 ^ 63) : addI64 a b = a + b :=
  Int.bmod_eq_of_le_mul_two (by omega) (by omega)

/-- `a * b` on `i64`, in the same way. -/
def mulI64 (a b : Int) : Int := Int.bmod (a * b) (2 ^ 64)

/-- `a.saturating_mul(b)` on `i64`. -/
def satMulI64 (a b : Int) : Int := max (min (a * b) i64Max) (-2 ^ 63)

/-! ## Errors -/

/-- `StoreError`, `store/mod.rs`. -/
inductive StoreError where
  | msg (text : String)
  | denied (scope detail : String)
  deriving DecidableEq, Repr

/-! ## Journal payloads

`serde_json::Value`, as far as the store builds payloads from it.  The store
serialises a payload before it writes it and parses it back before it derives a
subject; the model keeps the value.
-/

inductive Json where
  | null
  | bool (value : Bool)
  | int (value : Int)
  | str (value : String)
  | arr (items : List Json)
  | obj (members : List (String × Json))
  deriving Repr

namespace Json

/-- `Value::get(key)`. -/
def get? : Json → String → Option Json
  | .obj members, key => (members.find? fun member => member.1 = key).map Prod.snd
  | _, _ => none

/-- `v.get(k).and_then(|x| x.as_str()).unwrap_or("")`: `subjects::s`. -/
def strAt (v : Json) (key : String) : String :=
  match v.get? key with
  | some (.str value) => value
  | _ => ""

/-- `v.get(k).and_then(|x| x.as_i64()).unwrap_or(0)`. -/
def intAt (v : Json) (key : String) : Int :=
  match v.get? key with
  | some (.int value) => value
  | _ => 0

/-- `o.insert(key, value)` unless the object already has the key. -/
def insertMissing (v : Json) (key : String) (value : Json) : Json :=
  match v with
  | .obj members => if members.any (·.1 = key) then v else .obj (members ++ [(key, value)])
  | _ => v

/-- `{**a, **b}`: a key of `a` keeps its place and takes its value from `b`. -/
def dictUpdate (a b : List (String × Json)) : List (String × Json) :=
  (a.map fun member => ((b.find? fun other => other.1 = member.1).getD member)) ++
    b.filter fun other => !a.any fun member => member.1 = other.1

def hexDigit (n : Nat) : Char := if n < 10 then Char.ofNat (48 + n) else Char.ofNat (87 + n)

/-- `\\uXXXX`. -/
def unicodeEscape (code : Nat) : List Char :=
  ['\\', 'u', hexDigit (code / 4096 % 16), hexDigit (code / 256 % 16), hexDigit (code / 16 % 16),
    hexDigit (code % 16)]

/-- One character of a string as `json.dumps` writes it, with `ensure_ascii`. -/
def escapeChar (c : Char) : List Char :=
  let code := c.toNat
  if c = '"' then ['\\', '"']
  else if c = '\\' then ['\\', '\\']
  else if code = 10 then ['\\', 'n']
  else if code = 13 then ['\\', 'r']
  else if code = 9 then ['\\', 't']
  else if code = 12 then ['\\', 'f']
  else if code = 8 then ['\\', 'b']
  else if 0x10000 ≤ code then
    unicodeEscape (0xd800 + (code - 0x10000) / 1024) ++ unicodeEscape (0xdc00 + (code - 0x10000) % 1024)
  else if code < 32 || 127 ≤ code then unicodeEscape code
  else [c]

def quote (s : String) : String := "\"" ++ String.ofList (s.toList.flatMap escapeChar) ++ "\""

/-- Python's `json.dumps`. -/
def dumps : Json → String
  | .null => "null"
  | .bool value => if value then "true" else "false"
  | .int value => toString value
  | .str value => quote value
  | .arr items => "[" ++ dumpsItems items ++ "]"
  | .obj members => "\x7b" ++ dumpsMembers members ++ "\x7d"
where
  dumpsItems : List Json → String
    | [] => ""
    | [item] => dumps item
    | item :: items => dumps item ++ ", " ++ dumpsItems items
  dumpsMembers : List (String × Json) → String
    | [] => ""
    | [(key, value)] => quote key ++ ": " ++ dumps value
    | (key, value) :: members => quote key ++ ": " ++ dumps value ++ ", " ++ dumpsMembers members

end Json

/-! ## Records -/

/-- A row of `tape_runs`: `RUN_COLS` together with `detail_json` and
    `compacted_at_ms`.  Scopes and labels are kept parsed. -/
structure RunRow where
  runId : String
  appName : String
  userId : String
  sessionId : String
  invocationId : String
  status : Int
  seqCursor : Int
  leaseOwner : String
  leaseExpiresAtMs : Int
  waitingOnGate : String
  detailJson : String
  startedAtMs : Int
  endedAtMs : Int
  tenantId : String
  actor : String
  subject : String
  agentId : String
  aiplexInstanceId : String
  gatewayRoute : String
  scopes : List String
  labels : List (String × String)
  compactedAtMs : Int
  deriving DecidableEq, Repr

/-- `RunIdentity`, `store/mod.rs`. -/
structure RunIdentity where
  tenantId : String := ""
  actor : String := ""
  subject : String := ""
  agentId : String := ""
  aiplexInstanceId : String := ""
  gatewayRoute : String := ""
  scopes : List String := []
  labels : List (String × String) := []
  deriving DecidableEq, Repr

structure BeginRunResponse where
  runId : String
  resumed : Bool
  nextSeq : Int
  status : Int
  deriving DecidableEq, Repr

structure CompactReport where
  decisionsZeroed : Int := 0
  effectsZeroed : Int := 0
  bytesSaved : Int := 0
  alreadyCompacted : Bool := false
  deriving DecidableEq, Repr

/-- A row of `tape_decisions`. -/
structure DecisionRecord where
  runId : String
  seq : Int
  decisionIndex : Int
  model : String
  requestJson : String
  responseJson : String
  rationale : String
  policyVersion : String
  tsMs : Int
  deriving DecidableEq, Repr

/-- A row of `tape_effects`. -/
structure EffectRecord where
  runId : String
  seq : Int
  decisionIndex : Int
  toolName : String
  idempotencyKey : String
  status : Int
  requestJson : String
  responseJson : String
  errorJson : String
  tsMs : Int
  semantics : Int
  dispatchMode : Int
  businessKey : String
  connector : String
  dispatchAttempts : Int
  nextDispatchAtMs : Int
  externalRef : String
  dispatchClaimedBy : String
  dispatchClaimExpiresAtMs : Int
  lastDispatchError : String
  scope : String
  deriving DecidableEq, Repr

/-- A row of `tape_obligations`. -/
structure ObligationRecord where
  runId : String
  seq : Int
  effectKey : String
  kind : String
  payload : Json
  status : Int
  tsMs : Int
  compensatorRef : String
  attempts : Int
  maxAttempts : Int
  nextAttemptAtMs : Int
  lastError : String
  claimedBy : String
  claimExpiresAtMs : Int
  resultJson : String

/-- A row of `tape_signals`. -/
structure SignalRow where
  runId : String
  gateName : String
  contextJson : String
  resolutionJson : String
  delivered : Int
  awaited : Int
  consumed : Int
  createdAtMs : Int
  deriving DecidableEq, Repr

/-- A row of `tape_timers`. -/
structure TimerRecord where
  runId : String
  timerId : String
  fireAtMs : Int
  kind : String
  payload : Json
  fired : Bool
  createdAtMs : Int

/-- A row of `tape_journal`: an `EventEntry`. -/
structure EventEntry where
  runId : String
  seq : Int
  kind : String
  payload : Json
  tsMs : Int
  globalSeq : Int
  subject : String
  schemaVersion : Int
  traceId : String
  spanId : String
  parentSpanId : String

/-- A row of `tape_values`. -/
structure ValueRecord where
  «namespace» : String
  key : String
  valueJson : String
  version : Int
  tsMs : Int
  writer : String
  deleted : Bool
  deriving DecidableEq, Repr

/-- What `WatchValue` sends for a version, with the version and value it sent before. -/
structure ValueEvent where
  value : ValueRecord
  prevVersion : Int
  prevValueJson : String
  deriving DecidableEq, Repr

/-- A row of `tape_reactions`.  `bootstrap_from_head` is an intent of the registration and no column. -/
structure Reaction where
  reactionId : String
  name : String
  subjectPattern : String
  predicateCel : String
  handlerKind : Int
  agentApp : String
  publishTarget : String
  maxConcurrency : Int
  rateLimitPerS : Int
  debounceMs : Int
  retryMax : Int
  retryBackoffMs : Int
  dlqAfterN : Int
  numShards : Int
  createdAtMs : Int
  deleted : Bool := false
  deriving DecidableEq, Repr

/-- A row of `tape_reaction_cursors`. -/
structure ReactionCursor where
  reactionId : String
  shard : Int
  lastGlobalSeq : Int
  lastProcessedAtMs : Int
  deriving DecidableEq, Repr

/-- A row of `tape_tasks`: a `Task` together with `completed_at_ms`. -/
structure Task where
  taskId : String
  reactionId : String
  shard : Int
  sourceRunId : String
  sourceGlobalSeq : Int
  subject : String
  payload : Json
  status : Int
  attempts : Int
  nextAttemptAtMs : Int
  leaseOwner : String
  leaseExpiresAtMs : Int
  lastError : String
  createdAtMs : Int
  completedAtMs : Int := 0
  traceId : String
  parentSpanId : String

end Tape
