import Tape.Store.RunStore

/-! # The client's view of the service

`service.rs` maps every RPC to one store operation, turns a `StoreError` into a
gRPC status and a missing row into one of its own.  The SDK's processes only see
the replies.  The clock readings are the server's.
-/

namespace Tape.Sdk

open Interleave

/-- `tonic::Status`, by the codes the service uses. -/
inductive Status where
  | internal (text : String)
  | permissionDenied (text : String)
  | notFound (text : String)
  | failedPrecondition (text : String)
  deriving DecidableEq, Repr

/-- `service.rs`, `db`. -/
def db : StoreError → Status
  | .msg text => .internal ("tape store: " ++ text)
  | .denied scope _ =>
    .permissionDenied ("tape store: policy violation — scope " ++ scope.quote ++ " not granted to run")

/-- An SDK process: a program over acts that may end in a gRPC error. -/
abbrev SdkM (α : Type) : Type := ExceptT Status (Prog Act Act.Res) α

def rpc {α : Type} (method : StoreM α) : SdkM α :=
  ExceptT.mk <| method.run.bind fun
    | .ok value => .ret (.ok value)
    | .error e => .ret (.error (db e))

/-- An RPC whose missing row is an error. -/
def rpcFound {α : Type} (method : StoreM (Option α)) (absent : Status) : SdkM α :=
  ExceptT.mk <| method.run.bind fun
    | .ok (some value) => .ret (.ok value)
    | .ok none => .ret (.error absent)
    | .error e => .ret (.error (db e))

/-- `try: … except Exception: pass`. -/
def swallow {α : Type} (action : SdkM α) : SdkM Unit :=
  ExceptT.mk <| action.run.bind fun _ => .ret (.ok ())

def external (x : External) : SdkM Unit := ExceptT.lift (Prog.perform (Act.outside x))

namespace Client

def completeEffect (runId key : String) (status : Int) (responseJson errorJson : String) (ts : Int) :
    SdkM EffectRecord :=
  rpcFound (RunStore.completeEffect runId key status responseJson errorJson ts)
    (.failedPrecondition "complete_effect before begin_effect")

def reconcileEffect (runId key : String) (status : Int) (responseJson errorJson : String) (ts : Int) :
    SdkM EffectRecord :=
  rpcFound (RunStore.reconcileEffect runId key status responseJson errorJson ts) (.notFound "no such effect")

/-- The service claims at its own `now_ms()`. -/
def claimEffectDispatch (runId key claimer : String) (leaseTtlMs now : Int) :
    SdkM (Bool × Option EffectRecord) :=
  rpc (RunStore.claimEffectDispatch runId key claimer leaseTtlMs now now)

def recordDispatchAttempt (runId key error : String) (nextDispatchAtMs ts : Int) : SdkM EffectRecord :=
  rpcFound (RunStore.recordDispatchAttempt runId key error nextDispatchAtMs ts) (.notFound "no such effect")

def recordExternalObservation (runId key : String) (resolution : Int)
    (externalRef responseJson errorJson compensateOnDuplicateKind : String) (ts registerTs : Int) :
    SdkM EffectRecord :=
  rpcFound (RunStore.recordExternalObservation runId key resolution externalRef responseJson errorJson
    compensateOnDuplicateKind ts registerTs) (.notFound "no such effect")

def registerCompensation (runId effectKey kind : String) (payload : Json) (compensatorRef : String)
    (maxAttempts ts : Int) : SdkM ObligationRecord :=
  rpc (RunStore.registerCompensation runId effectKey kind payload compensatorRef maxAttempts ts)

def getEffect (runId key : String) : SdkM (Option EffectRecord) := rpc (RunStore.getEffect runId key)

def getRun (runId : String) : SdkM RunRow := rpcFound (RunStore.getRun runId) (.notFound "no such run")

def endRun (server : Nat) (runId : String) (status : Int) (detailJson : String) (ts : Int) : SdkM RunRow :=
  rpcFound (RunStore.endRun server runId status detailJson ts) (.notFound "no such run")

def sendSignal (runId gateName resolutionJson : String) (ts : Int) : SdkM (String × Int) :=
  rpc (RunStore.sendSignal runId "" "" "" gateName resolutionJson ts)

def listPendingEffects (olderThanMs : Int) (includePending includeUnknown : Bool) (limit : Int) :
    SdkM (List EffectRecord) :=
  rpc (RunStore.listPendingEffects olderThanMs includePending includeUnknown
    (if 0 < limit then limit else 200))

def listDueTimers (now limit : Int) (claim : Bool) : SdkM (List TimerRecord) :=
  rpc (RunStore.listDueTimers now (if 0 < limit then limit else 200) claim)

def listObligations (runId : String) (onlyUnresolved : Bool) (statusFilter : Int) :
    SdkM (List ObligationRecord) :=
  rpc (RunStore.listObligations runId onlyUnresolved statusFilter)

/-- The service widens the flags before it hands them to the store. -/
def listUnresolvedObligations (now : Int) (includePending includeStuck includeCommittedExpired : Bool)
    (limit : Int) : SdkM (List ObligationRecord) :=
  let pending := includePending || (!includeStuck && !includeCommittedExpired)
  rpc (RunStore.listUnresolvedObligations now pending includeStuck (includeCommittedExpired || pending)
    (if 0 < limit then limit else 500) now)

def claimObligation (runId : String) (obligationSeq : Int) (claimer : String) (leaseTtlMs now : Int) :
    SdkM (Bool × Option ObligationRecord) :=
  rpc (RunStore.claimObligation runId obligationSeq claimer leaseTtlMs now now)

def recordObligationAttempt (runId : String) (obligationSeq : Int) (error : String)
    (nextAttemptAtMs ts : Int) : SdkM ObligationRecord :=
  rpcFound (RunStore.recordObligationAttempt runId obligationSeq error nextAttemptAtMs ts)
    (.notFound "no such obligation")

def resolveObligation (runId : String) (obligationSeq status : Int) (resultJson : String) (ts : Int) :
    SdkM ObligationRecord :=
  rpcFound (RunStore.resolveObligation runId obligationSeq status resultJson ts)
    (.notFound "no such obligation")

end Client

end Tape.Sdk
