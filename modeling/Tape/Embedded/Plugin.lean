import Tape.Embedded.Service
import Tape.Interleave.Run

/-! # The safety plugin

`NonIdempotentSafetyPlugin`, `tape_adk/plugin.py`.  Its counters are in the memory of the process; a
callback is a program over the calls of the service that it awaits, and over what it does to the
counters and to the state of its tool context between two of them.  The callbacks of tools that are
called in parallel run side by side.
-/

namespace Tape.Embedded.Plugin

open Interleave

/-! ## Tools -/

/-- `_EffectMeta`, and what `resolve_business_key` comes to. -/
structure EffectMeta where
  semantics : EffectSemantics
  dispatchMode : EffectDispatchMode
  /-- Of the arguments; the tool's function may raise. -/
  businessKey : Json → Except String (Option String) := fun _ => .ok none
  connector : Option String := none
  compensate : Option String := none

structure Tool where
  name : String
  /-- `meta_of(tool)`. -/
  effectMeta : Option EffectMeta

/-- What `@effect` makes of a function. -/
def effect (name : String) : Tool where
  name
  effectMeta := some { semantics := .idempotent, dispatchMode := .inline }

/-- What `@outbox_tool` makes of a function. -/
def outboxTool (name : String) (businessKey : Json → Except String (Option String)) (connector : String)
    (compensate : Option String) : Tool where
  name
  effectMeta := some
    { semantics := .nonIdempotent, dispatchMode := .outbox, businessKey, connector := some connector, compensate }

/-- The kind that `after_tool_callback` registers; an outbox tool registers none. -/
def Tool.registers (tool : Tool) : Option String :=
  match tool.effectMeta with
  | some effectMeta => if effectMeta.dispatchMode = .outbox then none else orNone effectMeta.compensate
  | none => none

/-! ## The counters -/

/-- What a callback sees of an event of the session. -/
structure SessionEvent where
  invocationId : String
  hasFunctionCalls : Bool

/-- `_dnext`, `_dlast` and `_tcount`. -/
structure Counters where
  dnext : String → Option Int
  dlast : String → Option Int
  tcount : String × Int × String → Nat

def Counters.empty : Counters := ⟨fun _ => none, fun _ => none, fun _ => 0⟩

namespace Counters

/-- `before_run_callback`: one event with function calls is as good as many. -/
def beforeRun (inv : String) (events : List SessionEvent) (c : Counters) : Counters :=
  let prior : Int := if events.any fun ev => ev.invocationId = inv && ev.hasFunctionCalls then 1 else 0
  { c with
    dnext := Function.update c.dnext inv (some prior)
    dlast := Function.update c.dlast inv (some (max (prior - 1) (-1))) }

/-- `after_run_callback`. -/
def afterRun (inv : String) (c : Counters) : Counters where
  dnext := Function.update c.dnext inv none
  dlast := Function.update c.dlast inv none
  tcount k := if k.1 = inv then 0 else c.tcount k

/-- `after_model_callback`. -/
def afterModel (inv : String) (hasFunctionCalls : Bool) (c : Counters) : Counters :=
  if hasFunctionCalls then
    let idx := (c.dnext inv).getD 0
    { c with dnext := Function.update c.dnext inv (some (idx + 1)), dlast := Function.update c.dlast inv (some idx) }
  else c

/-- The decision and the index that `before_tool_callback` gives a call, and the counters after. -/
def nextCall (inv tool : String) (c : Counters) : (Int × Nat) × Counters :=
  let decisionIdx := (c.dlast inv).getD 0
  let callIndex := c.tcount (inv, decisionIdx, tool)
  ((decisionIdx, callIndex),
    { c with tcount := Function.update c.tcount (inv, decisionIdx, tool) (callIndex + 1) })

end Counters

/-! ## Tool contexts -/

/-- `tool_context`: the invocation's ids, and the identity of the context itself. -/
structure ToolContext where
  session : SessionKey
  invocationId : String
  handle : Nat

/-- The state of the tool contexts, under the keys that the plugin uses.  How the framework shares it
    between contexts is its own affair. -/
structure ToolStates (τ : Type) where
  callIndex : τ → ToolContext → String → Option Nat
  effectKey : τ → ToolContext → String → Nat → Option String
  stash : τ → ToolContext → String → Nat → String → τ

/-- The key that the state leads to from the name of the tool. -/
def ToolStates.stashed {τ : Type} (states : ToolStates τ) (state : τ) (context : ToolContext) (tool : String) : Option String :=
  (states.callIndex state context tool).bind fun callIndex => states.effectKey state context tool callIndex

/-! ## Acts -/

/-- The database, and what the process has in memory. -/
structure Process (τ : Type) where
  store : Store
  counters : Counters
  states : τ

inductive Act where
  | count (change : Counters → Counters)
  | nextCall (inv tool : String)
  | beginEffect (request : BeginEffect) (now : Int)
  | stash (context : ToolContext) (tool : String) (callIndex : Nat) (key : String)
  | stashed (context : ToolContext) (tool : String)
  /-- The tool is for the log. -/
  | completeEffect (tool : Tool) (session : SessionKey) (key : String) (status : EffectStatus)
      (responseJson errorJson : Json) (now : Int)
  | registerCompensation (request : RegisterCompensation) (now : Int)

namespace Act

def Res : Act → Type
  | nextCall .. => Int × Nat
  | beginEffect .. => Except ServiceError StorageEffect
  | stashed .. => Option String
  | completeEffect .. => Except ServiceError (Option StorageEffect)
  | registerCompensation .. => Except ServiceError StorageObligation
  | count _ | stash .. => Unit

/-- A method of the service: its value or exception, and what it leaves. -/
def ofResult {α τ : Type} (result : Result α) (p : Process τ) : Except ServiceError α × Process τ :=
  (result.map Prod.fst, { p with store := leaves result p.store })

def exec {τ : Type} (states : ToolStates τ) : (act : Act) → Process τ → act.Res × Process τ
  | count change, p => ((), { p with counters := change p.counters })
  | nextCall inv tool, p => ((p.counters.nextCall inv tool).1, { p with counters := (p.counters.nextCall inv tool).2 })
  | beginEffect r now, p => ofResult (Embedded.beginEffect r now p.store) p
  | stash context tool callIndex key, p => ((), { p with states := states.stash p.states context tool callIndex key })
  | stashed context tool, p => (states.stashed p.states context tool, p)
  | completeEffect _ session key status responseJson errorJson now, p =>
    ofResult (Embedded.completeEffect session key status responseJson errorJson now p.store) p
  | registerCompensation r now, p => ofResult (Embedded.registerCompensation r now p.store) p

end Act

/-! ## Callbacks -/

/-- What a callback raises. -/
inductive CallbackError where
  | service (e : ServiceError)
  | tool (text : String)

abbrev CallbackM (α : Type) : Type := ExceptT CallbackError (Prog Act Act.Res) α

def perform (act : Act) : CallbackM act.Res := ExceptT.lift (Prog.perform act)

/-- A method that raises, raises through the callback. -/
def service {α : Type} (act : Act) (returns : act.Res = Except ServiceError α) : CallbackM α :=
  ExceptT.mk ((Prog.perform act).bind fun answer => .ret ((returns ▸ answer : Except ServiceError α).mapError .service))

/-- The arguments of `begin_effect`. -/
def beginning (tool : Tool) (effectMeta : EffectMeta) (toolArgs : Json) (context : ToolContext) (call : Int × Nat)
    (businessKey : Option String) : BeginEffect where
  session := context.session
  invocationId := context.invocationId
  decisionIndex := call.1
  toolName := tool.name
  callIndex := call.2
  requestJson := toolArgs
  semantics := effectMeta.semantics
  dispatchMode := effectMeta.dispatchMode
  businessKey
  connector := effectMeta.connector

/-- The response that takes the place of the tool's; `none`, the body is called. -/
def shortCircuit (eff : StorageEffect) (businessKey : Option String) : Option Json :=
  match eff.status with
  | .confirmed => some (match eff.responseJson with
    | .obj members => .obj members
    | response => .obj [("tape_replay", response)])
  | .failed => some (.obj [("status", .str "failed"), ("error", eff.errorJson), ("tape_replay", .bool true)])
  | .unknown => some (.obj
      [("status", .str "unknown"), ("tape_replay", .bool true), ("idempotency_key", .str eff.idempotencyKey)])
  | .pending =>
    if eff.dispatchMode = .outbox then
      some (.obj [("status", .str "pending"), ("idempotency_key", .str eff.idempotencyKey),
        ("business_key", (businessKey.map Json.str).getD .null),
        ("note", .str ("the outbox dispatcher will execute this call; the result will land via a separate " ++
          "function_response event"))])
    else none

def beforeTool (tool : Tool) (toolArgs : Json) (context : ToolContext) (now : Int) : CallbackM (Option Json) :=
  match tool.effectMeta with
  | none => return none
  | some effectMeta => do
    let call ← perform (.nextCall context.invocationId tool.name)
    match effectMeta.businessKey toolArgs with
    | .error text => throw (.tool text)
    | .ok businessKey =>
      let begun : Except ServiceError StorageEffect ←
        perform (.beginEffect (beginning tool effectMeta toolArgs context call businessKey) now)
      match begun with
      | .error (.valueError text) =>
        return some (.obj [("status", .str "failed"), ("error", .str ("tape refused effect: " ++ text))])
      | .error e => throw (.service e)
      | .ok eff =>
        let () ← perform (.stash context tool.name call.2 eff.idempotencyKey)
        return shortCircuit eff businessKey

/-- The callback's effect mode and stashed key; `none`, it has nothing to complete. -/
def toComplete (tool : Tool) (context : ToolContext) : CallbackM (Option String) :=
  match tool.effectMeta with
  | none => return none
  | some effectMeta =>
    if effectMeta.dispatchMode = .outbox then return none
    else perform (.stashed context tool.name)

/-- The arguments of `register_compensation`. -/
def compensation (context : ToolContext) (effectKey kind : String) (toolArgs result : Json) : RegisterCompensation where
  session := context.session
  invocationId := context.invocationId
  effectKey
  kind
  payloadJson := .obj [("args", toolArgs), ("result", result)]

/-- The results that `before_tool_callback` returned come here like those of a tool's body. -/
def afterTool (tool : Tool) (toolArgs : Json) (context : ToolContext) (result : Json) (now registerNow : Int) :
    CallbackM (Option Json) := do
  match ← toComplete tool context with
  | none => return none
  | some effectKey =>
    let _ ← service (.completeEffect tool context.session effectKey .confirmed result .null now) rfl
    match tool.registers with
    | none => return none
    | some kind =>
      let _ ← service (.registerCompensation (compensation context effectKey kind toolArgs result) registerNow) rfl
      return none

/-- The exception of a tool's body. -/
structure ToolError where
  isAckLost : Bool
  typeName : String
  message : String

def onToolError (tool : Tool) (context : ToolContext) (error : ToolError) (now : Int) : CallbackM (Option Json) := do
  match ← toComplete tool context with
  | none => return none
  | some effectKey =>
    let status : EffectStatus := if error.isAckLost then .unknown else .failed
    let typeName := if error.isAckLost then "AckLost" else error.typeName
    let errorJson := Json.obj [("type", .str typeName), ("message", .str error.message)]
    let _ ← service (.completeEffect tool context.session effectKey status .null errorJson now) rfl
    return none

/-! ## The process -/

inductive Call where
  | beforeRun (inv : String) (events : List SessionEvent)
  | afterRun (inv : String)
  | afterModel (inv : String) (hasFunctionCalls : Bool)
  | beforeTool (tool : Tool) (toolArgs : Json) (context : ToolContext) (now : Int)
  | afterTool (tool : Tool) (toolArgs : Json) (context : ToolContext) (result : Json) (now registerNow : Int)
  | onToolError (tool : Tool) (context : ToolContext) (error : ToolError) (now : Int)
  /-- The process dies, and another one begins. -/
  | restart

namespace Call

def Out : Call → Type
  | beforeTool .. | afterTool .. | onToolError .. => Except CallbackError (Option Json)
  | beforeRun .. | afterRun _ | afterModel .. | restart => Unit

def body : (call : Call) → Prog Act Act.Res call.Out
  | beforeRun inv events => Prog.perform (Act.count (Counters.beforeRun inv events))
  | afterRun inv => Prog.perform (Act.count (Counters.afterRun inv))
  | afterModel inv hasFunctionCalls => Prog.perform (Act.count (Counters.afterModel inv hasFunctionCalls))
  | beforeTool tool toolArgs context now => Plugin.beforeTool tool toolArgs context now
  | afterTool tool toolArgs context result now registerNow => Plugin.afterTool tool toolArgs context result now registerNow
  | onToolError tool context error now => Plugin.onToolError tool context error now
  | restart => Prog.perform (Act.count fun _ => .empty)

end Call

/-- The callbacks of any number of tool calls. -/
def plugin {τ : Type} (states : ToolStates τ) : System (Process τ) Act Act.Res Call Call.Out :=
  ⟨Act.exec states, fun _ => none, Call.body⟩

abbrev PluginHist (τ : Type) : Type := Hist (Process τ) Act Act.Res

/-- A process without any callback running. -/
def quiet {τ : Type} (p : Process τ) : Config (Process τ) Act Act.Res Call Call.Out where
  state := p
  log := []
  pool := []

end Tape.Embedded.Plugin
