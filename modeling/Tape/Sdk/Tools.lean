import Tape.Effect.Key
import Tape.Sdk.Client
import Tape.Sequential

/-! # The plugin around a tool call

`adk/plugin.py`: what `TapePlugin` does before and after a tool runs.  `before_tool_callback` begins the effect
of the call and leaves its key in the state of the tool's context, under one name for all calls.  What a context
reads there that it did not write itself is the framework's affair.
-/

namespace Tape.Sdk

/-! ## What a tool declares -/

/-- What `@tape.effect` says of a tool, and what its callables give for the arguments of the call. -/
structure EffectMeta where
  semantics : String := "idempotent"
  dispatch : String := "inline"
  connector : String := ""
  /-- `_resolve_business_key`. -/
  businessKey : String := ""
  /-- `key_from`; none where there is none or it raised. -/
  keyFrom : Option String := none
  scope : String := ""
  /-- The name of `compensate`. -/
  compensate : Option String := none
  compensatorRef : String := ""
  maxAttempts : Int := 0
  /-- `compensation_payload`, by the result; none from it where it raised. -/
  compensationPayload : Option (Json → Option Json) := none

/-- `_semantics_to_pb`. -/
def semanticsToPb (s : String) : Int :=
  if s = "idempotent" then EffectSemantics.idempotent.code
  else if s = "non_idempotent" then EffectSemantics.nonIdempotent.code
  else if s = "observe_only" then EffectSemantics.observeOnly.code
  else EffectSemantics.unspecified.code

/-- `_dispatch_to_pb`. -/
def dispatchToPb (s : String) : Int :=
  if s = "inline" then EffectDispatchMode.inline.code
  else if s = "outbox" then EffectDispatchMode.outbox.code
  else EffectDispatchMode.unspecified.code

structure ToolCall where
  invocationId : String
  /-- Empty where the function call has no id. -/
  functionCallId : String := ""
  toolName : String
  toolArgs : List (String × Json) := []
  effect : EffectMeta := {}

namespace ToolCall

/-- The body may not run unless its intent is journaled. -/
def isStrict (call : ToolCall) : Bool := call.effect.semantics = "non_idempotent" || call.effect.dispatch = "outbox"

def customKey (call : ToolCall) (runId : String) : String :=
  match call.effect.keyFrom with
  | some k => if k.isEmpty then ofCallId else k
  | none => ofCallId
where
  ofCallId : String := if call.functionCallId.isEmpty then "" else Effect.callIdKey runId call.functionCallId

/-- The effect is for the dispatcher to carry out. -/
def isIntent (call : ToolCall) (status : Int) : Bool :=
  call.effect.dispatch = "outbox" && status = EffectStatus.pending.code

/-- The tool's body did not run: the result is the marker `before_tool_callback` gave for an intent. -/
def isOutboxAccepted (call : ToolCall) (result : Json) : Bool :=
  call.effect.dispatch = "outbox" && result.strAt "tape_status" = "accepted"

end ToolCall

/-! ## The plugin's memory and the framework's state -/

/-- The state of the tool contexts: what a context gets under a name, what its writing leaves, and what of the state is
    its own delta.  A context is named by the call it is for. -/
structure ToolStates (τ : Type) where
  get : τ → Nat → String → Option String
  set : τ → Nat → String → String → τ
  delta : τ → Nat → String → Option String

/-- One call of a tool with its `tool_context`. -/
structure ToolContext where
  call : ToolCall
  /-- The key that `begin_effect` returned. -/
  key : Option String
  /-- What `before_tool_callback` returned in place of the body's result. -/
  answer : Option Json
  finished : Bool := false

structure TapePlugin (τ : Type) where
  run : String → Option String
  dnext : String → Nat
  dlast : String → Option Nat
  tcount : String × Int × String → Nat
  hasBudget : String → Bool
  runScopes : String → List String
  /-- The framework's. -/
  state : τ
  contexts : Nat → Option ToolContext

def runIdName : String := "temp:_tape_run_id"

def keyName : String := "temp:_tape_idempotency_key"

/-- What is neither missing nor empty. -/
def truthy (text : Option String) : Option String := text.filter fun t => !t.isEmpty

namespace TapePlugin

variable {τ : Type}

/-- The plugin of a process that has just started. -/
def init (state : τ) : TapePlugin τ where
  run := fun _ => none
  dnext := fun _ => 0
  dlast := fun _ => none
  tcount := fun _ => 0
  hasBudget := fun _ => false
  runScopes := fun _ => []
  state
  contexts := fun _ => none

/-- `_tool_keys`; none where one of the two is missing. -/
def toolKeys (states : ToolStates τ) (s : TapePlugin τ) (id : Nat) (c : ToolContext) : Option (String × String) :=
  match truthy ((truthy (states.get s.state id runIdName)).or (s.run c.call.invocationId)),
    truthy (states.get s.state id keyName) with
  | some runId, some key => some (runId, key)
  | _, _ => none

/-! ## Runs and model calls -/

/-- `before_run_callback`, once the run has begun: its id, the decisions that are recorded, its scopes and
    whether it has a budget. -/
def beforeRun (inv runId : String) (decisions : Nat) (scopes : List String) (budgeted : Bool) (s : TapePlugin τ) :
    TapePlugin τ :=
  { s with
    run := Function.update s.run inv (some runId)
    dnext := Function.update s.dnext inv decisions
    runScopes := Function.update s.runScopes runId scopes
    hasBudget := fun r => s.hasBudget r || (budgeted && r = runId) }

def beforeModel (inv : String) (s : TapePlugin τ) : TapePlugin τ :=
  match truthy (s.run inv) with
  | none => s
  | some _ =>
    { s with
      dnext := Function.update s.dnext inv (s.dnext inv + 1)
      dlast := Function.update s.dlast inv (some (s.dnext inv)) }

def afterRun (inv : String) (s : TapePlugin τ) : TapePlugin τ :=
  { s with
    runScopes := fun r => if s.run inv = some r then [] else s.runScopes r
    run := Function.update s.run inv none
    dnext := Function.update s.dnext inv 0
    dlast := Function.update s.dlast inv none
    tcount := fun key => if key.1 = inv then 0 else s.tcount key }

/-! ## `before_tool_callback` -/

/-- What `admit_budget` says. -/
inductive Admission where
  | admitted
  | refused (reason : String)
  | raised

/-- How far `before_tool_callback` comes. -/
inductive Checked where
  /-- There is no run: the body runs, and nothing is recorded. -/
  | unjournaled
  | refused (answer : Json)
  /-- The exception ends the invocation. -/
  | raised
  | asks (request : RunStore.EffectRequest)

def budgetExhausted (reason : String) : Json := .obj [("error", .str ("tape: budget exhausted — " ++ reason))]

/-- `!r` of names that need no escapes inside the quotes. -/
def pyRepr (s : String) : String := "'" ++ s ++ "'"

def scopeDenied (scope toolName : String) (granted : List String) : Json := .obj
  [("error", .str ("tape: effect " ++ pyRepr toolName ++ " requires scope " ++ pyRepr scope ++
      ", not granted to run (granted=[" ++ ", ".intercalate ((granted.mergeSort (· ≤ ·)).map pyRepr) ++ "])")),
    ("scope_denied", .bool true), ("required_scope", .str scope), ("tool", .str toolName)]

/-- The decision that the call belongs to. -/
def decision (s : TapePlugin τ) (call : ToolCall) : Int := (s.dlast call.invocationId).elim (-1) Nat.cast

/-- `before_tool_callback` up to `begin_effect`. -/
def check (s : TapePlugin τ) (call : ToolCall) (admission : Admission) : Checked :=
  match truthy (s.run call.invocationId) with
  | none => .unjournaled
  | some runId =>
    match if s.hasBudget runId then admission else .admitted with
    | .refused reason => .refused (budgetExhausted reason)
    | .raised => .raised
    | .admitted =>
      let scope := call.effect.scope
      if !scope.isEmpty && !(s.runScopes runId).contains scope then
        .refused (scopeDenied scope call.toolName (s.runScopes runId))
      else .asks
        { runId
          decisionIndex := s.decision call
          toolName := call.toolName
          callIndex := s.tcount (call.invocationId, s.decision call, call.toolName)
          requestJson := (Json.obj call.toolArgs).dumps
          customKey := call.customKey runId
          semantics := semanticsToPb call.effect.semantics
          dispatchMode := dispatchToPb call.effect.dispatch
          businessKey := call.effect.businessKey
          connector := call.effect.connector
          scope }

/-- A call of a run is counted before anything is checked. -/
def count (s : TapePlugin τ) (call : ToolCall) : TapePlugin τ :=
  let tkey := (call.invocationId, s.decision call, call.toolName)
  { s with tcount := Function.update s.tcount tkey (s.tcount tkey + 1) }

/-- What `begin_effect` came back with. -/
inductive BeginReply where
  /-- With the `external_ref` that `get_effect` then finds, empty where it finds none. -/
  | answered (key : String) (status : Int) (responseJson externalRef : String)
  | permissionDenied (details : String)
  | raised (text : String)

/-- `json.loads(resp.response_json) if resp.response_json else {}`, for a `loads` that may raise.
    What reads as `null` is no answer. -/
def recorded (loads : String → Option Json) (responseJson : String) : Option Json :=
  match if responseJson.isEmpty then .obj [] else (loads responseJson).getD (.obj []) with
  | .null => none
  | response => some response

def accepted (call : ToolCall) (key : String) : Json := .obj
  [("tape_status", .str "accepted"), ("effect_key", .str key), ("dispatch_mode", .str "outbox"),
    ("connector", .str call.effect.connector), ("business_key", .str call.effect.businessKey)]

/-- What `before_tool_callback` returns after `begin_effect`. -/
def answer (loads : String → Option Json) (call : ToolCall) : BeginReply → Option Json
  | .answered key status responseJson _ =>
    if status = EffectStatus.confirmed.code then recorded loads responseJson
    else if call.isIntent status then some (accepted call key)
    else none
  | .permissionDenied details => some <| .obj
    [("error", .str ("tape: begin_effect denied: " ++ details)), ("scope_denied", .bool true),
      ("required_scope", .str call.effect.scope), ("tool", .str call.toolName)]
  | .raised text =>
    if call.isStrict then some (.obj [("error", .str ("tape: begin_effect refused: " ++ text))]) else none

/-- What `before_tool_callback` writes to the state of the context. -/
def stash (states : ToolStates τ) (id : Nat) (call : ToolCall) (runId key externalRef : String) (status : Int) (state : τ) : τ :=
  let state := states.set state id keyName key
  let state := states.set state id runIdName runId
  let state := states.set state id "temp:_tape_business_key" call.effect.businessKey
  let state := states.set state id "temp:_tape_effect_semantics" call.effect.semantics
  if call.isIntent status && !externalRef.isEmpty then states.set state id "temp:_tape_external_ref" externalRef
  else state

/-- The call has its context, with what `before_tool_callback` returned. -/
def enter (id : Nat) (call : ToolCall) (key : Option String) (answer : Option Json) (s : TapePlugin τ) : TapePlugin τ :=
  { s with contexts := Function.update s.contexts id (some { call, key, answer }) }

/-- The end of `before_tool_callback`.  Nothing is written where `begin_effect` failed. -/
def begin (states : ToolStates τ) (loads : String → Option Json) (id : Nat) (call : ToolCall) (runId : String)
    (reply : BeginReply) (s : TapePlugin τ) : TapePlugin τ :=
  match reply with
  | .answered key status _ externalRef =>
    { s with state := stash states id call runId key externalRef status s.state }.enter id call (some key)
      (answer loads call reply)
  | _ => s.enter id call none (answer loads call reply)

def beforeTool (states : ToolStates τ) (loads : String → Option Json) (id : Nat) (call : ToolCall) (admission : Admission)
    (reply : RunStore.EffectRequest → BeginReply) (s : TapePlugin τ) : TapePlugin τ :=
  match s.check call admission with
  | .unjournaled => s.enter id call none none
  | .refused answer => (s.count call).enter id call none (some answer)
  | .raised => s.count call
  | .asks request => (s.count call).begin states loads id call request.runId (reply request)

/-! ## `after_tool_callback` and `on_tool_error_callback` -/

/-- An RPC of the callbacks after a tool; its errors are swallowed. -/
inductive ToolRpc where
  | completeEffect (runId key : String) (status : Int) (responseJson errorJson : String)
  | registerCompensation (runId key kind : String) (payload : Json) (compensatorRef : String) (maxAttempts : Int)

def ToolRpc.key : ToolRpc → String
  | completeEffect _ key .. => key
  | registerCompensation _ key .. => key

/-- `payload or {}`. -/
def orEmpty (payload : Option Json) : Json :=
  match payload with
  | none | some .null | some (.bool false) | some (.int 0) | some (.str "") | some (.arr []) => .obj []
  | some payload => payload

/-- What is registered for the inverse. -/
def compensationPayload (call : ToolCall) (result : Json) : Json :=
  match call.effect.compensationPayload with
  | some payload => orEmpty (payload result)
  | none =>
    match result with
    | .obj members => .obj (Json.dictUpdate call.toolArgs members)
    | _ => .obj call.toolArgs

def afterTool (states : ToolStates τ) (s : TapePlugin τ) (id : Nat) (c : ToolContext) (result : Json) : List ToolRpc :=
  match s.toolKeys states id c with
  | none => []
  | some (runId, key) =>
    if c.call.isOutboxAccepted result then []
    else
      .completeEffect runId key EffectStatus.confirmed.code result.dumps "" ::
        match c.call.effect.compensate with
        | none => []
        | some kind =>
          [.registerCompensation runId key kind (compensationPayload c.call result) c.call.effect.compensatorRef
            c.call.effect.maxAttempts]

/-- What the body came to. -/
inductive BodyOutcome where
  | returned (result : Json)
  | raised (isAckLost : Bool) (type message : String)

def onToolError (states : ToolStates τ) (s : TapePlugin τ) (id : Nat) (c : ToolContext) (isAckLost : Bool)
    (type message : String) : List ToolRpc :=
  match s.toolKeys states id c with
  | none => []
  | some (runId, key) =>
    let status := if isAckLost then EffectStatus.unknown.code else EffectStatus.failed.code
    [.completeEffect runId key status "" (Json.obj [("type", .str type), ("message", .str message)]).dumps]

/-- An answer of `before_tool_callback` takes the place of the result, and `after_tool_callback` gets it. -/
def outcome (c : ToolContext) (body : BodyOutcome) : BodyOutcome := c.answer.elim body .returned

/-- The effect is left to the dispatcher. -/
def isAccepted (c : ToolContext) (body : BodyOutcome) : Bool :=
  match outcome c body with
  | .returned result => c.call.isOutboxAccepted result
  | .raised .. => false

/-- The RPCs after a tool. -/
def report (states : ToolStates τ) (s : TapePlugin τ) (id : Nat) (c : ToolContext) (body : BodyOutcome) : List ToolRpc :=
  match outcome c body with
  | .returned result => s.afterTool states id c result
  | .raised isAckLost type message => s.onToolError states id c isAckLost type message

/-- The call, while its tool has not come to an end. -/
def open? (s : TapePlugin τ) (id : Nat) : Option ToolContext := (s.contexts id).filter fun c => !c.finished

def finish (id : Nat) (c : ToolContext) (s : TapePlugin τ) : TapePlugin τ :=
  { s with contexts := Function.update s.contexts id (some { c with finished := true }) }

end TapePlugin

/-! ## A session in memory -/

/-- The state of a session in memory: what a context writes it reads first itself, and the others read it as well. -/
structure SessionState where
  session : String → Option String
  deltas : Nat → String → Option String

/-- Nothing is written yet. -/
def noState : SessionState := ⟨fun _ => none, fun _ _ => none⟩

def sessionStates : ToolStates SessionState where
  get state id name := (state.deltas id name).or (state.session name)
  set state id name value :=
    { session := Function.update state.session name (some value)
      deltas := Function.update state.deltas id (Function.update (state.deltas id) name (some value)) }
  delta state id name := state.deltas id name

end Tape.Sdk
