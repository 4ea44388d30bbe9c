import Tape.Store.Act

/-! # `SqlRunStore`

The methods of `store/sql.rs` as programs over single statements.  A method takes
as arguments what it reads from outside the database: the value of `now_ms()`
(`ts`), a fresh uuid, and the server process whose scope cache it uses.
-/

namespace Tape.RunStore

/-! ## Sequence numbers and the journal -/

def nextSeq (runId : String) : StoreM Int := do
  let _ ← (RunStmt.bumpSeq runId).query
  let cursor ← (RunStmt.readSeq runId).query
  return cursor.getD 0

def journalFull (runId : String) (seq : Int) (kind subject : String) (payload : Json) (ts : Int) :
    StoreM Unit := do
  let globalSeq ← JournalStmt.nextGlobalSeq.query
  (JournalStmt.insertEntry
    { runId, seq, kind, payload, tsMs := ts, globalSeq, subject, schemaVersion := 1
      traceId := "", spanId := "", parentSpanId := "" }).query

def journal (runId : String) (seq : Int) (kind : String) (payload : Json) (ts : Int) : StoreM Unit :=
  let subject := Subjects.derive kind (payload.insertMissing "run_id" (.str runId))
  journalFull runId seq kind subject payload ts

/-! ## Run lifecycle -/

def getRun (runId : String) : StoreM (Option RunRow) := (RunStmt.getRun runId).query

def beginRun (server : Nat) (app user session invocation : String) (identity : RunIdentity)
    (leaseOwner : String) (leaseTtlMs ts : Int) (newId : String) : StoreM BeginRunResponse := do
  let leaseExp := addI64 ts (max leaseTtlMs 0)
  match ← (RunStmt.findInvocation app user session invocation).query with
  | some (runId, seqCursor) =>
    let _ ← (RunStmt.claimRun runId leaseOwner leaseExp).query
    match ← getRun runId with
    | some cur => return { runId, resumed := true, nextSeq := seqCursor, status := cur.status }
    | none => throw (.msg "called `Option::unwrap()` on a `None` value")
  | none =>
    (RunStmt.insertRun
      { runId := newId, appName := app, userId := user, sessionId := session, invocationId := invocation
        status := RunStatus.running.code, seqCursor := 0, leaseOwner, leaseExpiresAtMs := leaseExp
        waitingOnGate := "", detailJson := "", startedAtMs := ts, endedAtMs := 0
        tenantId := identity.tenantId, actor := identity.actor, subject := identity.subject
        agentId := identity.agentId, aiplexInstanceId := identity.aiplexInstanceId
        gatewayRoute := identity.gatewayRoute, scopes := identity.scopes, labels := identity.labels
        compactedAtMs := 0 }).query
    (CacheOp.cacheScopes server newId identity.scopes).access
    let seq ← orElse (nextSeq newId) 0
    let payload := Json.obj
      [("app", .str app), ("user", .str user), ("session", .str session), ("run_id", .str newId),
        ("invocation_id", .str invocation), ("status", .str "running"),
        ("tenant_id", .str identity.tenantId), ("actor", .str identity.actor),
        ("subject", .str identity.subject), ("agent_id", .str identity.agentId),
        ("aiplex_instance_id", .str identity.aiplexInstanceId)]
    orElse (journal newId seq "run" payload ts) ()
    return { runId := newId, resumed := false, nextSeq := 0, status := RunStatus.running.code }

def resumeRun (runId leaseOwner : String) (leaseTtlMs ts : Int) : StoreM (Option RunRow) := do
  let _ ← (RunStmt.resumeRun runId leaseOwner (addI64 ts (max leaseTtlMs 0))).query
  getRun runId

def endLabel (status : Int) : String :=
  match RunStatus.tryFrom status with
  | some .terminal => "terminal"
  | some .failed => "failed"
  | some .stuck => "stuck"
  | some .cancelled => "cancelled"
  | some .compensating => "compensating"
  | _ => "ended"

def endRun (server : Nat) (runId : String) (status : Int) (detailJson : String) (ts : Int) :
    StoreM (Option RunRow) := do
  let _ ← (RunStmt.endRun runId status ts detailJson).query
  (CacheOp.evictScopes server runId).access
  match ← getRun runId with
  | some cur =>
    let seq ← orElse (nextSeq runId) 0
    let payload := Json.obj
      [("app", .str cur.appName), ("user", .str cur.userId), ("session", .str cur.sessionId),
        ("run_id", .str runId), ("status", .str (endLabel status))]
    orElse (journal runId seq "run" payload ts) ()
    return some cur
  | none => return none

def listRunsToRecover (nowMs limit : Int) : StoreM (List RunRow) := (RunStmt.toRecover nowMs limit).query

/-! ## Compaction -/

def listCompactableRuns (beforeMs limit : Int) : StoreM (List RunRow) :=
  (RunStmt.compactable beforeMs (if 0 < limit then limit else 100)).query

def compactRun (runId : String) (tsMs : Int) : StoreM CompactReport := do
  match ← (RunStmt.readCompaction runId).query with
  | none => throw (.msg ("compact_run: run_id " ++ runId ++ " not found"))
  | some (status, endedAtMs, compactedAtMs) =>
    if 0 < compactedAtMs then return { alreadyCompacted := true }
    else if !RunStmt.isTerminal status || endedAtMs ≤ 0 then
      throw (.msg ("compact_run: run " ++ runId ++ " is not terminal (status=" ++ toString status ++
        ", ended_at_ms=" ++ toString endedAtMs ++ "); refuse to zero live state"))
    else
      let openObligations : Int ← (ObligationStmt.countOpen runId).query
      if 0 < openObligations then
        throw (.msg ("compact_run: run " ++ runId ++ " has " ++ toString openObligations ++
          " open obligation(s); not settled"))
      else
        let unknownEffects : Int ← (EffectStmt.countUnknown runId).query
        if 0 < unknownEffects then
          throw (.msg ("compact_run: run " ++ runId ++ " has " ++ toString unknownEffects ++
            " UNKNOWN effect(s); not settled"))
        else
          let decisionBytes : Int ← (DecisionStmt.sumBytes runId).query
          let effectBytes : Int ← (EffectStmt.sumBytes runId).query
          let bytesSaved := decisionBytes + effectBytes
          let decisionsZeroed : Nat ← (DecisionStmt.zeroDecisions runId).query
          let effectsZeroed : Nat ← (EffectStmt.zeroEffects runId).query
          let _ ← (RunStmt.stampCompacted runId tsMs).query
          let seq ← orElse (nextSeq runId) 0
          let payload := Json.obj
            [("run_id", .str runId), ("compacted_at_ms", .int tsMs),
              ("decisions_zeroed", .int decisionsZeroed), ("effects_zeroed", .int effectsZeroed),
              ("bytes_saved", .int bytesSaved)]
          orElse (journal runId seq "run" payload tsMs) ()
          return { decisionsZeroed, effectsZeroed, bytesSaved }

/-! ## Decisions -/

def getDecision (runId : String) (decisionIndex : Int) : StoreM (Option DecisionRecord) :=
  (DecisionStmt.getDecision runId decisionIndex).query

def recordDecision (runId : String) (decisionIndex : Int)
    (model requestJson responseJson rationale policyVersion : String) (ts : Int) :
    StoreM DecisionRecord := do
  match ← getDecision runId decisionIndex with
  | some recorded => return recorded
  | none =>
    let seq ← nextSeq runId
    let row : DecisionRecord :=
      { runId, seq, decisionIndex, model, requestJson, responseJson, rationale, policyVersion, tsMs := ts }
    (DecisionStmt.insertDecision row).query
    let payload := Json.obj
      [("decision_index", .int decisionIndex), ("model", .str model),
        ("policy_version", .str policyVersion), ("rationale", .str rationale)]
    journal runId seq "decision" payload ts
    return row

/-! ## Effects -/

def getEffect (runId key : String) : StoreM (Option EffectRecord) := (EffectStmt.getEffect runId key).query

/-- `derive_key`, `store/mod.rs`. -/
def deriveKey (runId : String) (decisionIndex : Int) (tool : String) (callIndex : Int) : String :=
  if decisionIndex < 0 then runId ++ "/no-decision/" ++ tool ++ "/" ++ toString callIndex
  else runId ++ "/decision-" ++ toString decisionIndex ++ "/" ++ tool ++ "/" ++ toString callIndex

def runScopesFor (server : Nat) (runId : String) : StoreM (List String) := do
  match ← (CacheOp.lookup server runId).access with
  | some cached => return cached
  | none =>
    let stored ← (RunStmt.readScopes runId).query
    let scopes := stored.getD []
    (CacheOp.cacheScopes server runId scopes).access
    return scopes

structure EffectRequest where
  runId : String
  decisionIndex : Int := 0
  toolName : String
  callIndex : Int := 0
  requestJson : String := ""
  customKey : String := ""
  semantics : Int := 0
  dispatchMode : Int := 0
  businessKey : String := ""
  connector : String := ""
  scope : String := ""

namespace EffectRequest

/-- Unspecified semantics are `IDEMPOTENT`. -/
def sem (r : EffectRequest) : Int :=
  if r.semantics = EffectSemantics.unspecified.code then EffectSemantics.idempotent.code else r.semantics

/-- An unspecified dispatch mode is `INLINE`. -/
def dmode (r : EffectRequest) : Int :=
  if r.dispatchMode = EffectDispatchMode.unspecified.code then EffectDispatchMode.inline.code
  else r.dispatchMode

def key (r : EffectRequest) : String :=
  if r.customKey.isEmpty then deriveKey r.runId r.decisionIndex r.toolName r.callIndex else r.customKey

end EffectRequest

/-- The row `begin_effect` inserts. -/
def freshEffect (r : EffectRequest) (seq ts : Int) : EffectRecord where
  runId := r.runId
  seq := seq
  decisionIndex := r.decisionIndex
  toolName := r.toolName
  idempotencyKey := r.key
  status := EffectStatus.pending.code
  requestJson := r.requestJson
  responseJson := ""
  errorJson := ""
  tsMs := ts
  semantics := r.sem
  dispatchMode := r.dmode
  businessKey := r.businessKey
  connector := r.connector
  dispatchAttempts := 0
  nextDispatchAtMs := if r.dmode = EffectDispatchMode.outbox.code then ts else 0
  externalRef := ""
  dispatchClaimedBy := ""
  dispatchClaimExpiresAtMs := 0
  lastDispatchError := ""
  scope := r.scope

/-- The part of `begin_effect` after the scope check. -/
def admitEffect (r : EffectRequest) (ts : Int) : StoreM EffectRecord := do
  match ← getEffect r.runId r.key with
  | some recorded => return recorded
  | none =>
    match ← claimed with
    | some other => return other
    | none =>
      let seq ← nextSeq r.runId
      let row := freshEffect r seq ts
      (EffectStmt.insertEffect row).query
      let payload := Json.obj
        [("tool", .str r.toolName), ("decision_index", .int r.decisionIndex),
          ("idempotency_key", .str r.key), ("status", .str "pending"), ("semantics", .int r.sem),
          ("dispatch_mode", .int r.dmode), ("business_key", .str r.businessKey),
          ("connector", .str r.connector), ("scope", .str r.scope)]
      journal r.runId seq "effect" payload ts
      return row
where
  /-- Another run's effect under the same `(connector, business_key)`. -/
  claimed : StoreM (Option EffectRecord) :=
    if !r.businessKey.isEmpty && !r.connector.isEmpty then
      (EffectStmt.findBusinessKey r.connector r.businessKey).query
    else return none

def beginEffect (server : Nat) (r : EffectRequest) (ts : Int) : StoreM EffectRecord := do
  if r.sem = EffectSemantics.nonIdempotent.code && r.dmode = EffectDispatchMode.inline.code then
    throw (.msg ("begin_effect: NON_IDEMPOTENT semantics requires OUTBOX dispatch " ++
      "(a non-idempotent counterparty cannot be safely re-driven inline)"))
  else if r.sem = EffectSemantics.nonIdempotent.code && r.scope.isEmpty then
    throw (.denied "<required>" "non_idempotent effects must declare an authorization scope on the wire")
  else if !r.businessKey.isEmpty && r.connector.isEmpty then
    throw (.msg ("begin_effect: business_key requires connector " ++
      "(cross-run dedupe is per-(connector, business_key))"))
  else if r.scope.isEmpty then admitEffect r ts
  else
    let granted ← runScopesFor server r.runId
    if granted.any (· = r.scope) then admitEffect r ts
    else
      let seq ← nextSeq r.runId
      let payload := Json.obj
        [("tool", .str r.toolName), ("decision_index", .int r.decisionIndex),
          ("required_scope", .str r.scope), ("granted_scopes", .arr (granted.map .str)),
          ("violation", .str "scope_not_granted")]
      orElse (journal r.runId seq "policy" payload ts) ()
      throw (.denied r.scope ("effect " ++ r.toolName ++ " requires scope " ++ r.scope.quote ++
        " not present on run " ++ r.runId))

def outcomeLabel (status : Int) : String :=
  match EffectStatus.tryFrom status with
  | some .confirmed => "confirmed"
  | some .failed => "failed"
  | some .unknown => "unknown"
  | _ => "completed"

def completeEffect (runId key : String) (status : Int) (responseJson errorJson : String) (ts : Int) :
    StoreM (Option EffectRecord) := do
  match ← getEffect runId key with
  | none => return none
  | some existing =>
    if existing.status ≠ EffectStatus.pending.code then return some existing
    else
      let _ ← (EffectStmt.setOutcome runId key status responseJson errorJson ts).query
      let seq ← nextSeq runId
      let payload := Json.obj
        [("tool", .str existing.toolName), ("idempotency_key", .str key),
          ("status", .str (outcomeLabel status))]
      journal runId seq "effect" payload ts
      return some { existing with status, responseJson, errorJson, tsMs := ts }

def reconcileEffect (runId key : String) (resolvedStatus : Int) (responseJson errorJson : String)
    (ts : Int) : StoreM (Option EffectRecord) := do
  match ← getEffect runId key with
  | none => return none
  | some existing =>
    if existing.status = EffectStatus.confirmed.code || existing.status = EffectStatus.failed.code then
      return some existing
    else
      let _ ← (EffectStmt.setOutcome runId key resolvedStatus responseJson errorJson ts).query
      let seq ← nextSeq runId
      let payload := Json.obj
        [("tool", .str existing.toolName), ("idempotency_key", .str key), ("status", .str "reconciled"),
          ("resolved_to", .int resolvedStatus)]
      journal runId seq "effect" payload ts
      return some { existing with status := resolvedStatus, responseJson, errorJson, tsMs := ts }

/-! ## Outbox dispatch -/

def listEffectsToDispatch (nowMs : Int) (connector : String) (limit clock : Int) :
    StoreM (List EffectRecord) :=
  (EffectStmt.toDispatch (if 0 < nowMs then nowMs else clock) connector
    (if 0 < limit then limit else 200)).query

def defaultLeaseMs : Int := 60000

/-- The time a claim is made at: the caller's, or the clock's when the caller sends none. -/
def claimTime (nowMs clock : Int) : Int := if 0 < nowMs then nowMs else clock

def claimTtl (leaseTtlMs : Int) : Int := if 0 < leaseTtlMs then leaseTtlMs else defaultLeaseMs

theorem claimTtl_pos (leaseTtlMs : Int) : 0 < claimTtl leaseTtlMs := by
  unfold claimTtl defaultLeaseMs
  split <;> omega

def claimEffectDispatch (runId key claimer : String) (leaseTtlMs nowMs clock : Int) :
    StoreM (Bool × Option EffectRecord) := do
  let now := claimTime nowMs clock
  let leaseExp := addI64 now (claimTtl leaseTtlMs)
  let updated : Nat ← (EffectStmt.claimDispatch runId key claimer leaseExp now).query
  let row ← getEffect runId key
  return (0 < updated, row)

def recordDispatchAttempt (runId key error : String) (nextDispatchAtMs ts : Int) :
    StoreM (Option EffectRecord) := do
  match ← getEffect runId key with
  | none => return none
  | some existing =>
    let newAttempts := existing.dispatchAttempts + 1
    let toUnknown := nextDispatchAtMs ≤ 0
    let newStatus := if toUnknown then EffectStatus.unknown.code else EffectStatus.pending.code
    let nextAt := if toUnknown then 0 else nextDispatchAtMs
    let _ ← (EffectStmt.recordAttempt runId key newStatus newAttempts error nextAt ts).query
    let seq ← nextSeq runId
    let payload := Json.obj
      [("tool", .str existing.toolName), ("idempotency_key", .str key),
        ("status", .str (if toUnknown then "unknown" else "pending")),
        ("transition", .str (if toUnknown then "dispatch-unknown" else "dispatch-retry-scheduled")),
        ("dispatch_attempts", .int newAttempts), ("error", .str error), ("next_dispatch_at_ms", .int nextAt)]
    journal runId seq "effect" payload ts
    getEffect runId key

/-- `EffectResolution → EffectStatus`, given the row as it was read. -/
def observedStatus (resolution : Int) (existing : EffectRecord) : Int :=
  if resolution = EffectResolution.confirmed.code then EffectStatus.confirmed.code
  else if resolution = EffectResolution.failed.code then EffectStatus.failed.code
  else if resolution = EffectResolution.duplicate.code then EffectStatus.confirmed.code
  else if resolution = EffectResolution.absent.code then
    if existing.semantics = EffectSemantics.idempotent.code then EffectStatus.pending.code
    else EffectStatus.failed.code
  else if resolution = EffectResolution.stuck.code then EffectStatus.unknown.code
  else existing.status

def observedLabel (resolution : Int) : String :=
  if resolution = EffectResolution.confirmed.code then "observed-confirmed"
  else if resolution = EffectResolution.failed.code then "observed-failed"
  else if resolution = EffectResolution.absent.code then "observed-absent"
  else if resolution = EffectResolution.duplicate.code then "observed-duplicate"
  else if resolution = EffectResolution.stuck.code then "observed-stuck"
  else "observed-unspecified"

/-! ## Obligations -/

def defaultMaxAttempts : Int := 5

/-- The row `register_compensation` inserts. -/
def freshObligation (runId effectKey kind : String) (payload : Json) (compensatorRef : String)
    (maxAttempts seq ts : Int) : ObligationRecord where
  runId := runId
  seq := seq
  effectKey := effectKey
  kind := kind
  payload := payload
  status := ObligationStatus.pending.code
  tsMs := ts
  compensatorRef := compensatorRef
  attempts := 0
  maxAttempts := if maxAttempts ≤ 0 then defaultMaxAttempts else maxAttempts
  nextAttemptAtMs := ts
  lastError := ""
  claimedBy := ""
  claimExpiresAtMs := 0
  resultJson := ""

def registerCompensation (runId effectKey kind : String) (payload : Json) (compensatorRef : String)
    (maxAttempts ts : Int) : StoreM ObligationRecord := do
  match ← (ObligationStmt.findObligation runId effectKey kind).query with
  | some recorded => return recorded
  | none =>
    let seq ← nextSeq runId
    let row := freshObligation runId effectKey kind payload compensatorRef maxAttempts seq ts
    (ObligationStmt.insertObligation row).query
    let entry := Json.obj
      [("effect_key", .str effectKey), ("kind", .str kind), ("status", .str "pending"),
        ("transition", .str "registered")]
    journal runId seq "obligation" entry ts
    return row

/-- What `record_external_observation` hands to the inverse of a duplicate. -/
def duplicatePayload (externalRef key : String) : Json := .obj
  [("reason", .str "duplicate-observed"), ("external_ref", .str externalRef), ("idempotency_key", .str key)]

def recordExternalObservation (runId key : String) (resolution : Int)
    (externalRef responseJson errorJson compensateOnDuplicateKind : String) (ts registerTs : Int) :
    StoreM (Option EffectRecord) := do
  match ← getEffect runId key with
  | none => return none
  | some existing =>
    let nextDispatch :=
      if resolution = EffectResolution.absent.code &&
        existing.semantics = EffectSemantics.idempotent.code then ts else existing.nextDispatchAtMs
    let _ ← (EffectStmt.recordObservation runId key (observedStatus resolution existing)
      responseJson errorJson externalRef nextDispatch ts).query
    let seq ← nextSeq runId
    let payload := Json.obj
      [("tool", .str existing.toolName), ("idempotency_key", .str key), ("status", .str "observed"),
        ("transition", .str (observedLabel resolution)), ("external_ref", .str externalRef)]
    journal runId seq "effect" payload ts
    if resolution = EffectResolution.duplicate.code && !compensateOnDuplicateKind.isEmpty then
      let _ ← registerCompensation runId key compensateOnDuplicateKind
        (duplicatePayload externalRef key) "" 0 registerTs
      getEffect runId key
    else getEffect runId key

def listObligations (runId : String) (onlyUnresolved : Bool) (statusFilter : Int) :
    StoreM (List ObligationRecord) :=
  (ObligationStmt.listObligations runId onlyUnresolved statusFilter).query

def listUnresolvedObligations (nowMs : Int) (includePending includeStuck includeCommittedExpired : Bool)
    (limit clock : Int) : StoreM (List ObligationRecord) :=
  if includePending || includeCommittedExpired || includeStuck then
    (ObligationStmt.listUnresolved (if 0 < nowMs then nowMs else clock) includePending includeStuck
      includeCommittedExpired (if 0 < limit then limit else 500)).query
  else return []

def claimObligation (runId : String) (obligationSeq : Int) (claimer : String)
    (leaseTtlMs nowMs clock : Int) : StoreM (Bool × Option ObligationRecord) := do
  let now := claimTime nowMs clock
  let leaseExp := addI64 now (claimTtl leaseTtlMs)
  let updated : Nat ← (ObligationStmt.claimObligation runId obligationSeq claimer leaseExp now).query
  let row ← (ObligationStmt.getObligation runId obligationSeq).query
  if 0 < updated then
    match (row : Option ObligationRecord) with
    | some rec =>
      let seq ← nextSeq runId
      let payload := Json.obj
        [("obligation_seq", .int rec.seq), ("effect_key", .str rec.effectKey), ("kind", .str rec.kind),
          ("status", .str "committed"), ("transition", .str "claimed"), ("claimer", .str claimer)]
      journal runId seq "obligation" payload now
      return (true, some rec)
    | none => return (true, none)
  else return (false, row)

def recordObligationAttempt (runId : String) (obligationSeq : Int) (error : String)
    (nextAttemptAtMs ts : Int) : StoreM (Option ObligationRecord) := do
  match ← (ObligationStmt.getObligation runId obligationSeq).query with
  | none => return none
  | some existing =>
    let newAttempts := existing.attempts + 1
    let terminal := nextAttemptAtMs ≤ 0 || existing.maxAttempts ≤ newAttempts
    let newStatus := if terminal then ObligationStatus.stuck.code else ObligationStatus.pending.code
    let nextAt := if terminal then 0 else nextAttemptAtMs
    let _ ← (ObligationStmt.recordAttempt runId obligationSeq newStatus newAttempts error nextAt ts).query
    let seq ← nextSeq runId
    let payload := Json.obj
      [("obligation_seq", .int existing.seq), ("effect_key", .str existing.effectKey),
        ("kind", .str existing.kind), ("status", .str (if terminal then "stuck" else "pending")),
        ("transition", .str (if terminal then "stuck" else "retry-scheduled")),
        ("attempts", .int newAttempts), ("error", .str error), ("next_attempt_at_ms", .int nextAt)]
    journal runId seq "obligation" payload ts
    (ObligationStmt.getObligation runId obligationSeq).query

def resolveObligation (runId : String) (obligationSeq status : Int) (resultJson : String) (ts : Int) :
    StoreM (Option ObligationRecord) := do
  match ← (ObligationStmt.getObligation runId obligationSeq).query with
  | none => return none
  | some existing =>
    let target :=
      if status = ObligationStatus.compensated.code || status = ObligationStatus.stuck.code then status
      else ObligationStatus.compensated.code
    let _ ← (ObligationStmt.resolve runId obligationSeq target resultJson ts).query
    let seq ← nextSeq runId
    let label := if target = ObligationStatus.compensated.code then "compensated" else "stuck"
    let payload := Json.obj
      [("obligation_seq", .int existing.seq), ("effect_key", .str existing.effectKey),
        ("kind", .str existing.kind), ("status", .str label), ("transition", .str "resolved")]
    journal runId seq "obligation" payload ts
    (ObligationStmt.getObligation runId obligationSeq).query

/-! ## Gates -/

/-- The part of `await_signal` that parks the run. -/
def parkOnGate (runId gateName payloadJson : String) (ts : Int) : StoreM (Bool × String) := do
  let _ ← (SignalStmt.awaitGate runId gateName payloadJson ts).query
  let seq ← nextSeq runId
  let _ ← (RunStmt.parkRun runId gateName).query
  let payload := Json.obj [("gate", .str gateName), ("status", .str "waiting")]
  journal runId seq "gate" payload ts
  return (false, "")

def awaitSignal (runId gateName payloadJson : String) (ts : Int) : StoreM (Bool × String) := do
  match ← (SignalStmt.getSignal runId gateName).query with
  | some (delivered, resolutionJson) =>
    if delivered = 1 then
      let _ ← (SignalStmt.consume runId gateName).query
      return (true, resolutionJson)
    else parkOnGate runId gateName payloadJson ts
  | none => parkOnGate runId gateName payloadJson ts

/-- The part of `send_signal` after the run is known. -/
def signalRun (runId gateName resolutionJson : String) (ts : Int) : StoreM (String × Int) := do
  let _ ← (SignalStmt.deliver runId gateName resolutionJson ts).query
  match ← (RunStmt.waitingGate runId).query with
  | some gate =>
    if gate = gateName then
      let _ ← (RunStmt.releaseRun runId).query
      -- a failed `next_seq` skips the journal entry
      orElse (do
        let seq ← nextSeq runId
        let payload := Json.obj [("gate", .str gateName), ("status", .str "released")]
        journal runId seq "gate" payload ts) ()
      return (runId, RunStatus.runnable.code)
    else return (runId, RunStatus.unspecified.code)
  | none => return (runId, RunStatus.unspecified.code)

def sendSignal (runId app user session gateName resolutionJson : String) (ts : Int) :
    StoreM (String × Int) := do
  if !runId.isEmpty then signalRun runId gateName resolutionJson ts
  else
    match ← (RunStmt.latestRun app user session).query with
    | some latest => signalRun latest gateName resolutionJson ts
    | none => throw (.msg "no run for that session")

/-! ## Reconciliation and timers -/

def listPendingEffects (olderThanMs : Int) (includePending includeUnknown : Bool) (limit : Int) :
    StoreM (List EffectRecord) :=
  let both := !includePending && !includeUnknown
  (EffectStmt.listPending (max limit 1)
    (if both || includeUnknown then EffectStatus.unknown.code else -1)
    (if both || includePending then EffectStatus.pending.code else -1) olderThanMs).query

def setTimer (runId timerId : String) (fireAtMs : Int) (kind : String) (payload : Json) (ts : Int)
    (newId : String) : StoreM TimerRecord := do
  let tid := if timerId.isEmpty then newId else timerId
  let _ ← (TimerStmt.upsertTimer runId tid fireAtMs kind payload ts).query
  match ← (TimerStmt.getTimer runId tid).query with
  | some row => return row
  | none => throw (.msg "called `Option::unwrap()` on a `None` value")

def cancelTimer (runId timerId : String) : StoreM Bool := do
  let deleted : Nat ← (TimerStmt.deleteTimer runId timerId).query
  return 0 < deleted

/-- The claiming loop of `list_due_timers`. -/
def claimTimers : List TimerRecord → StoreM (List TimerRecord)
  | [] => return []
  | timer :: rest => do
    let updated : Nat ← (TimerStmt.fireTimer timer.runId timer.timerId).query
    let fired ← claimTimers rest
    return if updated = 1 then { timer with fired := true } :: fired else fired

def listDueTimers (nowMs limit : Int) (claim : Bool) : StoreM (List TimerRecord) := do
  let due ← (TimerStmt.dueTimers nowMs (max limit 1)).query
  if claim then claimTimers due else return due

/-! ## The journal feed -/

def readJournalAfter (fromGlobalSeq limit : Int) : StoreM (List EventEntry) :=
  (JournalStmt.readAfter fromGlobalSeq (max limit 1)).query

def eventsBySubject (fromGlobalSeq : Int) (subjectPattern : String) (limit : Int) :
    StoreM (List EventEntry) := do
  let rows : List EventEntry ← (JournalStmt.bySubject fromGlobalSeq
    (Subjects.patternToSqlLike subjectPattern) (max limit 1)).query
  return rows.filter fun e => Subjects.«matches» subjectPattern e.subject

def eventsSince (fromTsMs : Int) (runId kind : String) (limit : Int) : StoreM (List EventEntry) :=
  (JournalStmt.since fromTsMs runId kind (max limit 1)).query

end Tape.RunStore
