import Tape.Sdk.Outbox

/-! # The dispatcher's pass

`outbox_dispatch_once`: one `dispatch_one` after the other, each in a `try` of its own.
-/

namespace Tape.Sdk

/-- One pass and its surroundings. -/
structure OutboxJob where
  /-- Only this connector's effects, unless it is empty. -/
  connector : String := ""
  limit : Int := 200
  claimer : String
  dispatchMaxAttempts : Int := 5
  /-- A connector is registered under the name. -/
  registered : String → Bool
  /-- What the effect's connector will come back with. -/
  outcome : EffectRecord → DispatchOutcome
  spec : String → Option CompensatorSpec := fun _ => none
  /-- The server's clock when it lists the effects. -/
  listAt : Int
  claimAt : EffectRecord → Int
  recordAt : EffectRecord → Int
  registerAt : EffectRecord → Int
  sdkNow : EffectRecord → Int

/-- The call of `dispatch_one` for an effect that was listed. -/
def OutboxJob.one (job : OutboxJob) (e : EffectRecord) : DispatchJob where
  runId := e.runId
  idempotencyKey := e.idempotencyKey
  connectorRegistered := job.registered e.connector
  claimer := job.claimer
  maxAttempts := job.dispatchMaxAttempts
  outcome := job.outcome e
  spec := job.spec
  claimAt := job.claimAt e
  recordAt := job.recordAt e
  registerAt := job.registerAt e
  sdkNow := job.sdkNow e

/-- `try: … except Exception as ex: …`. -/
def tried {α : Type} (action : SdkM α) : SdkM (Except Status α) :=
  ExceptT.mk <| action.run.bind fun answer => .ret (.ok answer)

def Client.listEffectsToDispatch (connector : String) (limit now : Int) : SdkM (List EffectRecord) :=
  rpc (RunStore.listEffectsToDispatch now connector (if 0 < limit then limit else 200) now)

def dispatchAll (job : OutboxJob) : List EffectRecord → SdkM (List (Except Status DispatchReport))
  | [] => return []
  | e :: rest => do
    let report ← tried (dispatchOne (job.one e))
    let reports ← dispatchAll job rest
    return report :: reports

def outboxDispatchOnce (job : OutboxJob) : SdkM (List (Except Status DispatchReport)) := do
  let effects ← Client.listEffectsToDispatch job.connector job.limit job.listAt
  dispatchAll job effects

end Tape.Sdk
