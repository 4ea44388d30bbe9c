import Tape.Sdk.Client

/-! # The outbox dispatcher

`reactors/outbox.py`, `dispatch_one`: claim the effect, call its connector, record
what came back.
-/

namespace Tape.Sdk

/-- What `@tape.effect(compensate=…)` registered for a tool. -/
structure CompensatorSpec where
  kind : String
  compensatorRef : String := ""
  maxAttempts : Int := 0
  /-- The payload, after `compensation_payload` had its say. -/
  payload : Json := .obj []

/-- One `dispatch_one` call, with what it reads from its surroundings: whether the
    connector is registered, what the connector will come back with, and the clocks. -/
structure DispatchJob where
  runId : String
  idempotencyKey : String
  connectorRegistered : Bool := true
  claimer : String
  maxAttempts : Int := 5
  outcome : DispatchOutcome
  spec : String → Option CompensatorSpec := fun _ => none
  /-- The server's clock when it takes the claim. -/
  claimAt : Int
  /-- The server's clock when it records the result. -/
  recordAt : Int
  /-- The server's clock when it registers the compensation. -/
  registerAt : Int := recordAt
  /-- The dispatcher's own clock. -/
  sdkNow : Int := recordAt

inductive DispatchReport where
  | skipped (reason : String)
  | confirmed (externalRef : String)
  | unknown
  | retryScheduled (nextAtMs : Int)
  | failed (attempts : Int)
  deriving DecidableEq, Repr

/-- `_backoff_ms`: exponential, capped at a minute.  The power is multiplied by a `float`, and from `2 ** 1024` on it is
    too large for one: the product raises an `OverflowError`. -/
def dispatchBackoffMs (attempt : Int) : Option Int :=
  if 1025 ≤ attempt then none else some (min (1000 * 2 ^ (attempt - 1).toNat) 60000)

def dispatchLeaseMs : Int := 60000

/-- Registering the inverse of a confirmed effect; every exception is swallowed. -/
def registerInverse (job : DispatchJob) (cur : EffectRecord) : SdkM Unit :=
  match job.spec cur.toolName with
  | none => return ()
  | some spec => swallow (Client.registerCompensation cur.runId cur.idempotencyKey spec.kind spec.payload
      spec.compensatorRef spec.maxAttempts job.registerAt)

/-- When the next attempt is due: at the time the connector asks for, if it does, else after the backoff. -/
def DispatchJob.retryTime (job : DispatchJob) (cur : EffectRecord) (retryAtMs : Int) : Option Int :=
  if retryAtMs ≠ 0 then some retryAtMs else (dispatchBackoffMs (cur.dispatchAttempts + 1)).map (job.sdkNow + ·)

/-- Schedules another attempt. -/
def retry (job : DispatchJob) (cur : EffectRecord) (error : String) (retryAtMs : Int) : SdkM DispatchReport :=
  match job.retryTime cur retryAtMs with
  | none => throw (.internal "int too large to convert to float")
  | some nextAt => do
    let _ ← Client.recordDispatchAttempt cur.runId cur.idempotencyKey error nextAt job.recordAt
    return .retryScheduled nextAt

/-- The part of `dispatch_one` after the connector answered. -/
def recordOutcome (job : DispatchJob) (cur : EffectRecord) : SdkM DispatchReport := do
  match job.outcome with
  | .raised error =>
    if cur.semantics = EffectSemantics.nonIdempotent.code then
      let _ ← Client.recordDispatchAttempt cur.runId cur.idempotencyKey ("connector raised: " ++ error) 0
        job.recordAt
      return .unknown
    else retry job cur ("connector raised: " ++ error) 0
  | .confirmed externalRef response =>
    let responseJson := (Json.obj (Json.dictUpdate [("external_ref", .str externalRef)] response)).dumps
    let _ ← Client.completeEffect cur.runId cur.idempotencyKey EffectStatus.confirmed.code responseJson ""
      job.recordAt
    external (.acknowledged cur.runId cur.idempotencyKey)
    registerInverse job cur
    return .confirmed externalRef
  | .unknown error =>
    let error := (error.getD (.obj [("reason", .str "ack lost")])).dumps
    let _ ← Client.recordDispatchAttempt cur.runId cur.idempotencyKey error 0 job.recordAt
    return .unknown
  | .failed error retryAtMs =>
    let attempts := cur.dispatchAttempts + 1
    if job.maxAttempts ≤ attempts then
      let errorJson := Json.obj
        [("final", .bool true), ("attempts", .int attempts), ("last", error.getD .null)]
      let _ ← Client.recordExternalObservation cur.runId cur.idempotencyKey EffectResolution.failed.code
        "" "" errorJson.dumps "" job.recordAt job.registerAt
      return .failed attempts
    else retry job cur (error.getD (.obj [])).dumps retryAtMs

def dispatchOne (job : DispatchJob) : SdkM DispatchReport := do
  if !job.connectorRegistered then return .skipped "no connector registered"
  else
    let (acquired, row) ←
      Client.claimEffectDispatch job.runId job.idempotencyKey job.claimer dispatchLeaseMs job.claimAt
    if !acquired then return .skipped "lease contended"
    else
      match row with
      | none => return .skipped "unexpected status after claim"
      | some cur =>
        if cur.status ≠ EffectStatus.pending.code then return .skipped "unexpected status after claim"
        else
          external (.dispatch cur job.outcome)
          recordOutcome job cur

end Tape.Sdk
