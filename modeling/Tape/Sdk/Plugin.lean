import Tape.Rules

/-! # The plugin's decisions

`adk/plugin.py`: what `TapePlugin` does around an invocation and around a model call.  Its bookkeeping
is in the memory of the process that drives the run.  One driver works on a run at a time; a crash at
any point takes its memory, and the next driver starts with `before_run_callback`.
-/

namespace Tape.Sdk

/-! ## Transient errors -/

/-- What became of an RPC. -/
inductive Fate where
  | answered
  /-- The client got an error, and the server's method came that far. -/
  | failed (acts : Nat)
  deriving DecidableEq, Repr

/-- What the client learns, and what the method leaves. -/
def Fate.reply {α : Type} (fate : Fate) (method : StoreM α) (w : World) : Option α × World :=
  match fate with
  | answered => ((tape.alone method.run w).1.toOption, (tape.alone method.run w).2)
  | failed acts => (none, tape.cut acts method.run w)

theorem Fate.reply_of_all {α : Type} {p : Act → Prop} {I : World → Prop} (kept : ∀ act w, p act → I w → I (act.exec w).2)
    {method : StoreM α} (all : method.run.All p) (fate : Fate) {w : World} (start : I w) : I (fate.reply method w).2 := by
  cases fate with
  | answered => exact Interleave.System.alone_of_all (S := tape) kept all start
  | failed acts => exact Interleave.System.cut_of_all (S := tape) kept all acts start

/-! ## The callbacks -/

/-- `_dnext` and `_dlast`, for one run. -/
structure Driver where
  dnext : Nat
  dlast : Option Nat

/-- The server's database, and the drivers that are alive, by the run they drive. -/
structure Drives where
  world : World
  drivers : String → Option Driver

/-- What `before_run_callback` sends, and the time and the new id on the server. -/
structure Invocation where
  server : Nat := 0
  appName : String
  userId : String
  sessionId : String
  invocationId : String
  identity : RunIdentity := {}
  leaseOwner : String
  leaseTtlMs : Int
  ts : Int
  newId : String

def hardCap : Nat := 10000

/-- `_count_decisions`, from `n` on. -/
def countDecisions (runId : String) (probes : Nat → Fate) (w : World) : Nat → Nat → Nat
  | 0, n => n
  | fuel + 1, n =>
    match ((probes n).reply (RunStore.getDecision runId n) w).1 with
    | some (some _) => countDecisions runId probes w fuel (n + 1)
    -- an error ends the count like a decision that is not there
    | _ => n

def Invocation.begin (i : Invocation) (fate : Fate) (w : World) : Option BeginRunResponse × World :=
  fate.reply (RunStore.beginRun i.server i.appName i.userId i.sessionId i.invocationId i.identity i.leaseOwner
    i.leaseTtlMs i.ts i.newId) w

/-- The decisions are counted on the run that was found; the scopes and the budget are left out. -/
def beforeRun (i : Invocation) (fate : Fate) (probes : Nat → Fate) (s : Drives) : Drives :=
  match i.begin fate s.world with
  | (none, w) => { s with world := w }
  | (some resp, w) =>
    let dnext := if resp.resumed then countDecisions resp.runId probes w hardCap 0 else 0
    { world := w
      drivers := Function.update s.drivers resp.runId (some { dnext, dlast := (s.drivers resp.runId).bind Driver.dlast }) }

/-- One response of the model, and the RPC that records it. -/
structure Answer where
  model : String := ""
  responseJson : String
  policyVersion : String := ""
  ts : Int
  fate : Fate := .answered

/-- One model call of the agent: the run is cancelled or its budget exhausted, or the recorded decision
    is asked for; the responses of the model, none where the call fails or the process dies before. -/
structure ModelCall where
  refused : Bool := false
  asked : Fate := .answered
  parses : DecisionRecord → Bool := fun _ => true
  answers : List Answer

/-- `before_model_callback` gives a recorded decision for the answer. -/
def replays (runId : String) (call : ModelCall) (s : Drives) : Bool :=
  match s.drivers runId with
  | none => false
  | some d => !call.refused &&
    match (call.asked.reply (RunStore.getDecision runId d.dnext) s.world).1 with
    | some (some recorded) => call.parses recorded
    | _ => false

/-- The bookkeeping of `before_model_callback`. -/
def advance (runId : String) (s : Drives) : Drives :=
  let next := (s.drivers runId).map fun d => { dnext := d.dnext + 1, dlast := some d.dnext }
  { s with drivers := Function.update s.drivers runId next }

def afterModel (runId : String) (s : Drives) (a : Answer) : Drives :=
  match (s.drivers runId).bind Driver.dlast with
  | none => s
  | some idx =>
    let reply := a.fate.reply (RunStore.recordDecision runId idx a.model "" a.responseJson "" a.policyVersion a.ts) s.world
    { s with world := reply.2 }

/-- A refusal and a replay take the place of the model's response, and are not recorded. -/
def modelCall (runId : String) (call : ModelCall) (s : Drives) : Drives :=
  if call.refused || replays runId call s then advance runId s
  else call.answers.foldl (afterModel runId) (advance runId s)

/-- `after_run_callback` ends a run that is still running. -/
def finishRun (server : Nat) (runId : String) (ts : Int) : StoreM Unit := do
  match ← RunStore.getRun runId with
  | none => return ()
  | some cur =>
    if cur.status = RunStatus.running.code ∨ cur.status = RunStatus.runnable.code then
      let _ ← RunStore.endRun server runId RunStatus.terminal.code "" ts
      return ()
    else return ()

def forget (runId : String) (s : Drives) : Drives := { s with drivers := Function.update s.drivers runId none }

inductive PluginStep where
  | beforeRun (invocation : Invocation) (fate : Fate) (probes : Nat → Fate)
  | modelCall (runId : String) (call : ModelCall)
  | afterRun (runId : String) (server : Nat) (ts : Int) (fate : Fate)
  | crash (runId : String)

namespace PluginStep

def take (s : Drives) : PluginStep → Drives
  | beforeRun i fate probes => Sdk.beforeRun i fate probes s
  | modelCall runId call => Sdk.modelCall runId call s
  | afterRun runId server ts fate =>
    forget runId { s with world := (fate.reply (finishRun server runId ts) s.world).2 }
  | crash runId => forget runId s

end PluginStep

end Tape.Sdk
