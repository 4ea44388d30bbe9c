import Tape.Sql.Dict
import Tape.Store.RunStore

/-! # `MemRunStore`

The store of `store/mem.rs` that the deterministic simulation runs `TapeService` on: hash maps behind
one mutex, so that every method is one atomic step.  A map whose key is part of its values is a
`Table`, with its rows in the order of insertion; a `HashMap` has no order.  Left out is the journal,
which these methods write and none of them reads.
-/

namespace Tape

/-- `ObligationStatus::try_from(i32)`. -/
def ObligationStatus.tryFrom (code : Int) : Option ObligationStatus :=
  [unspecified, pending, committed, compensated, stuck].find? fun status => status.code = code

namespace Sim

open Sql

/-- `pb::RunState`. -/
structure RunState where
  runId : String
  appName : String
  userId : String
  sessionId : String
  invocationId : String
  status : Int
  seqCursor : Int
  leaseOwner : String
  leaseExpiresAtMs : Int
  startedAtMs : Int
  endedAtMs : Int
  waitingOnGate : String
  tenantId : String
  actor : String
  subject : String
  agentId : String
  aiplexInstanceId : String
  gatewayRoute : String
  scopes : List String
  labels : List (String × String)
  deriving DecidableEq, Repr

abbrev RunState.pk (row : RunState) : String := row.runId

/-- `(app, user, session, invocation_id)`. -/
abbrev InvocationKey : Type := String × String × String × String

/-- `Inner`.  A counter that has no entry is read as zero. -/
structure MemRunStore where
  runs : Table RunState.pk
  invocations : InvocationKey → Option String
  seq : String → Int
  decisions : Table DecisionRecord.pk
  effects : Table EffectRecord.pk
  obligations : Table ObligationRecord.pk
  nextObligationSeq : String → Int

namespace MemRunStore

/-- `Inner::default()`. -/
def empty : MemRunStore where
  runs := .empty
  invocations := fun _ => none
  seq := fun _ => 0
  decisions := .empty
  effects := .empty
  obligations := .empty
  nextObligationSeq := fun _ => 0

def nextSeq (runId : String) (s : MemRunStore) : Int × MemRunStore :=
  let n := s.seq runId + 1
  (n, { s with seq := Function.update s.seq runId n })

/-- What `get_mut` does to the row under a key. -/
def modify {κ ρ : Type} [DecidableEq κ] {key : ρ → κ} (t : Table key) (k : κ) (u : Update key) : Table key :=
  t.update (fun row => key row = k) u

/-! ## Run lifecycle -/

def takeLease (leaseOwner : String) (leaseExpires : Int) : Update RunState.pk where
  apply r := { r with leaseOwner, leaseExpiresAtMs := leaseExpires, status := RunStatus.running.code }
  key_apply _ := rfl

/-- `newId` is the `r-…` that the call makes up. -/
def beginRun (app user session invocation : String) (identity : RunIdentity) (leaseOwner : String)
    (leaseTtlMs now : Int) (newId : String) (s : MemRunStore) : Except StoreError BeginRunResponse × MemRunStore :=
  let leaseExpires := addI64 now leaseTtlMs
  match (s.invocations (app, user, session, invocation)).bind fun existingId => s.runs.find? existingId with
  | some r =>
    (.ok { runId := r.runId, resumed := true, nextSeq := s.seq r.runId + 1, status := RunStatus.running.code },
      { s with runs := modify s.runs r.runId (takeLease leaseOwner leaseExpires) })
  | none =>
    let run : RunState :=
      { runId := newId, appName := app, userId := user, sessionId := session, invocationId := invocation
        status := RunStatus.running.code, seqCursor := 0, leaseOwner, leaseExpiresAtMs := leaseExpires
        startedAtMs := now, endedAtMs := 0, waitingOnGate := ""
        tenantId := identity.tenantId, actor := identity.actor, subject := identity.subject
        agentId := identity.agentId, aiplexInstanceId := identity.aiplexInstanceId
        gatewayRoute := identity.gatewayRoute, scopes := identity.scopes, labels := identity.labels }
    let created := { s with
      runs := s.runs.put run
      invocations := Function.update s.invocations (app, user, session, invocation) (some newId) }
    -- the number is that of the first journal entry
    (.ok { runId := newId, resumed := false, nextSeq := 1, status := RunStatus.running.code },
      (created.nextSeq newId).2)

def resumeRun (runId leaseOwner : String) (leaseTtlMs now : Int) (s : MemRunStore) :
    Except StoreError (Option RunState) × MemRunStore :=
  match s.runs.find? runId with
  | none => (.ok none, s)
  | some r =>
    let lease := takeLease leaseOwner (addI64 now leaseTtlMs)
    (.ok (some (lease.apply r)), { s with runs := modify s.runs runId lease })

/-- The lease stays as it is.  `detail_json` goes to the journal alone. -/
def close (status now : Int) : Update RunState.pk where
  apply r := { r with status, endedAtMs := now }
  key_apply _ := rfl

def endRun (runId : String) (status now : Int) (s : MemRunStore) : Except StoreError (Option RunState) × MemRunStore :=
  match s.runs.find? runId with
  | none => (.ok none, s)
  | some r =>
    let ended := { s with runs := modify s.runs runId (close status now) }
    (.ok (some ((close status now).apply r)), (ended.nextSeq runId).2)

/-! ## Compaction -/

def isUnknown (runId : String) (e : EffectRecord) : Bool :=
  e.runId = runId && e.status = EffectStatus.unknown.code

def isOpen (runId : String) (o : ObligationRecord) : Bool :=
  o.runId = runId &&
    match (ObligationStatus.tryFrom o.status).getD .unspecified with
    | .pending | .committed => true
    | _ => false

/-- A rationale alone does not make a decision worth zeroing. -/
def hasBody (runId : String) (d : DecisionRecord) : Bool :=
  d.runId = runId && (d.requestJson ≠ "" || d.responseJson ≠ "")

def hasPayload (runId : String) (e : EffectRecord) : Bool :=
  e.runId = runId && (e.requestJson ≠ "" || e.responseJson ≠ "" || e.errorJson ≠ "")

def zeroDecision : Update DecisionRecord.pk where
  apply d := { d with requestJson := "", responseJson := "", rationale := "" }
  key_apply := DecisionStmt.zero.key_apply

def zeroEffect : Update EffectRecord.pk where
  apply e := { e with requestJson := "", responseJson := "", errorJson := "" }
  key_apply _ := rfl

def bytesSaved (runId : String) (s : MemRunStore) : Int :=
  ((s.decisions.rows.filter (hasBody runId)).map fun d =>
    (d.requestJson.utf8ByteSize + d.responseJson.utf8ByteSize + d.rationale.utf8ByteSize : Int)).sum +
  ((s.effects.rows.filter (hasPayload runId)).map fun e =>
    (e.requestJson.utf8ByteSize + e.responseJson.utf8ByteSize + e.errorJson.utf8ByteSize : Int)).sum

def compactRun (runId : String) (s : MemRunStore) : Except StoreError CompactReport × MemRunStore :=
  let unknown := s.effects.count (isUnknown runId)
  let openOblig := s.obligations.count (isOpen runId)
  if 0 < unknown then
    (.error (.msg ("compact_run: run " ++ runId ++ " has " ++ toString unknown ++
      " UNKNOWN effect(s); not settled")), s)
  else if 0 < openOblig then
    (.error (.msg ("compact_run: run " ++ runId ++ " has " ++ toString openOblig ++
      " open obligation(s); not settled")), s)
  else
    (.ok { decisionsZeroed := s.decisions.count (hasBody runId), effectsZeroed := s.effects.count (hasPayload runId)
           bytesSaved := s.bytesSaved runId },
      { s with
        decisions := s.decisions.update (hasBody runId) zeroDecision
        effects := s.effects.update (hasPayload runId) zeroEffect })

/-! ## Decisions -/

def recordDecision (runId : String) (decisionIndex : Int)
    (model requestJson responseJson rationale policyVersion : String) (now : Int) (s : MemRunStore) :
    Except StoreError DecisionRecord × MemRunStore :=
  let (seq, s) := s.nextSeq runId
  let rec_ : DecisionRecord :=
    { runId, seq, decisionIndex, model, requestJson, responseJson, rationale, policyVersion, tsMs := now }
  (.ok rec_, { s with decisions := s.decisions.put rec_ })

/-! ## Effects -/

/-- The key of a request that brings none of its own, whatever the sign of its decision. -/
def effectKey (r : RunStore.EffectRequest) : String :=
  if r.customKey.isEmpty then
    r.runId ++ "/decision-" ++ toString r.decisionIndex ++ "/" ++ r.toolName ++ "/" ++ toString r.callIndex
  else r.customKey

/-- The row `begin_effect` inserts: the codes are the request's. -/
def freshEffect (r : RunStore.EffectRequest) (seq now : Int) : EffectRecord where
  runId := r.runId
  seq := seq
  decisionIndex := r.decisionIndex
  toolName := r.toolName
  idempotencyKey := effectKey r
  status := EffectStatus.pending.code
  requestJson := r.requestJson
  responseJson := ""
  errorJson := ""
  tsMs := now
  semantics := r.semantics
  dispatchMode := r.dispatchMode
  businessKey := r.businessKey
  connector := r.connector
  dispatchAttempts := 0
  nextDispatchAtMs := 0
  externalRef := ""
  dispatchClaimedBy := ""
  dispatchClaimExpiresAtMs := 0
  lastDispatchError := ""
  scope := r.scope

def grants (runId : String) (s : MemRunStore) : List String := ((s.runs.find? runId).map RunState.scopes).getD []

def admitEffect (r : RunStore.EffectRequest) (now : Int) (s : MemRunStore) :
    Except StoreError EffectRecord × MemRunStore :=
  match s.effects.find? (r.runId, effectKey r) with
  | some existing => (.ok existing, s)
  | none =>
    let (seq, s) := s.nextSeq r.runId
    (.ok (freshEffect r seq now), { s with effects := s.effects.put (freshEffect r seq now) })

def beginEffect (r : RunStore.EffectRequest) (now : Int) (s : MemRunStore) :
    Except StoreError EffectRecord × MemRunStore :=
  if r.semantics = EffectSemantics.nonIdempotent.code && r.dispatchMode = EffectDispatchMode.inline.code then
    (.error (.msg "begin_effect: NON_IDEMPOTENT effects must use OUTBOX dispatch"), s)
  else if r.semantics = EffectSemantics.nonIdempotent.code && r.scope.isEmpty then
    (.error (.denied "<required>" "non_idempotent effects must declare an authorization scope on the wire"), s)
  else if !r.scope.isEmpty && !(s.grants r.runId).any (· = r.scope) then
    (.error (.denied r.scope ("effect " ++ r.toolName ++ " requires scope " ++ r.scope.quote ++
      " not present on run " ++ r.runId)), s)
  else s.admitEffect r now

def setOutcome (status : Int) (responseJson errorJson : String) (now : Int) : Update EffectRecord.pk where
  apply e := { e with status, responseJson, errorJson, tsMs := now }
  key_apply _ := rfl

/-- Whatever the status of the effect is. -/
def completeEffect (runId key : String) (status : Int) (responseJson errorJson : String) (now : Int)
    (s : MemRunStore) : Except StoreError (Option EffectRecord) × MemRunStore :=
  match s.effects.find? (runId, key) with
  | none => (.ok none, s)
  | some eff =>
    let outcome := setOutcome status responseJson errorJson now
    let completed := { s with effects := modify s.effects (runId, key) outcome }
    (.ok (some (outcome.apply eff)), (completed.nextSeq runId).2)

/-! ## Obligations -/

def registerCompensation (runId effectKey kind : String) (payload : Json) (compensatorRef : String)
    (maxAttempts now : Int) (s : MemRunStore) : Except StoreError ObligationRecord × MemRunStore :=
  match s.obligations.rows.find? fun o => o.runId = runId && o.effectKey = effectKey && o.kind = kind with
  | some existing => (.ok existing, s)
  | none =>
    let seq := s.nextObligationSeq runId + 1
    let rec_ : ObligationRecord :=
      { runId, seq, effectKey, kind, payload, status := ObligationStatus.pending.code, tsMs := now, compensatorRef
        attempts := 0, maxAttempts := if 0 < maxAttempts then maxAttempts else 5
        nextAttemptAtMs := now, lastError := "", claimedBy := "", claimExpiresAtMs := 0, resultJson := "" }
    let counted := { s with nextObligationSeq := Function.update s.nextObligationSeq runId seq }
    -- the journal entry is numbered from the other counter
    let numbered := (counted.nextSeq runId).2
    (.ok rec_, { numbered with obligations := numbered.obligations.put rec_ })

/-- A code that is no status counts as `PENDING`. -/
def obligationStatus (o : ObligationRecord) : ObligationStatus := (ObligationStatus.tryFrom o.status).getD .pending

def eligible (nowMs : Int) (o : ObligationRecord) : Bool :=
  match obligationStatus o with
  | .pending => o.nextAttemptAtMs ≤ nowMs
  | .committed => o.claimExpiresAtMs ≤ nowMs
  | _ => false

def claim (claimer : String) (leaseExpires : Int) : Update ObligationRecord.pk where
  apply o := { o with status := ObligationStatus.committed.code, claimedBy := claimer, claimExpiresAtMs := leaseExpires }
  key_apply _ := rfl

def claimObligation (runId : String) (obligationSeq : Int) (claimer : String) (leaseTtlMs nowMs : Int)
    (s : MemRunStore) : Except StoreError (Bool × Option ObligationRecord) × MemRunStore :=
  match s.obligations.find? (runId, obligationSeq) with
  | none => (.ok (false, none), s)
  | some o =>
    if eligible nowMs o then
      let claimed := claim claimer (addI64 nowMs leaseTtlMs)
      (.ok (true, some (claimed.apply o)), { s with obligations := modify s.obligations (runId, obligationSeq) claimed })
    else (.ok (false, some o), s)

def resolve (status : Int) (resultJson : String) : Update ObligationRecord.pk where
  apply o := { o with status, resultJson, claimedBy := "", claimExpiresAtMs := 0 }
  key_apply _ := rfl

def resolveObligation (runId : String) (obligationSeq status : Int) (resultJson : String) (s : MemRunStore) :
    Except StoreError (Option ObligationRecord) × MemRunStore :=
  match s.obligations.find? (runId, obligationSeq) with
  | none => (.ok none, s)
  | some o =>
    let resolved := resolve status resultJson
    (.ok (some (resolved.apply o)), { s with obligations := modify s.obligations (runId, obligationSeq) resolved })

end MemRunStore

end Sim

end Tape
