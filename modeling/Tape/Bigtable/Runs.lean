import Tape.Bigtable.Keys

/-! # Runs and effects on a Bigtable

The methods of `BigtableRunStore` that begin runs and effects, and those that list what a recovery, a dispatcher
or a reconciler is to look at.
-/

namespace Tape.BigtableRunStore

open Interleave Bigtable
open RunStore (EffectRequest freshEffect)

/-! ## Runs -/

/-- A `RunState`, its scopes and labels as the texts that are stored. -/
structure RunState where
  runId : String
  appName : String
  userId : String
  sessionId : String
  invocationId : String
  status : Int
  seqCursor : Int
  leaseOwner : String
  leaseExpiresAtMs : Int
  startedAtMs : Int
  endedAtMs : Int
  waitingOnGate : String
  tenantId : String
  actor : String
  subject : String
  agentId : String
  aiplexInstanceId : String
  gatewayRoute : String
  scopes : String
  labels : String

def runFrom (runId : String) (m : RowMap) : RunState where
  runId := runId
  appName := gs m "app"
  userId := gs m "user"
  sessionId := gs m "session"
  invocationId := gs m "inv"
  status := asI32 (gi m "status")
  seqCursor := gi m "seq"
  leaseOwner := gs m "lease_owner"
  leaseExpiresAtMs := gi m "lease_exp"
  startedAtMs := gi m "started"
  endedAtMs := gi m "ended"
  waitingOnGate := gs m "waiting_gate"
  tenantId := gs m "tenant_id"
  actor := gs m "actor"
  subject := gs m "subject"
  agentId := gs m "agent_id"
  aiplexInstanceId := gs m "aiplex_instance_id"
  gatewayRoute := gs m "gateway_route"
  scopes := gs m "scopes"
  labels := gs m "labels"

def runState (runId : String) : BigtableM (Option RunState) := do
  let row ← readRow (rkRun runId)
  return row.map (runFrom runId)

/-- A `RunIdentity`, its scopes and labels as text. -/
structure Identity where
  tenantId : String := ""
  actor : String := ""
  subject : String := ""
  agentId : String := ""
  aiplexInstanceId : String := ""
  gatewayRoute : String := ""
  scopesJson : String := ""
  labelsJson : String := ""

/-- The four ids that a run is begun for. -/
structure Invocation where
  app : String
  user : String
  session : String
  inv : String
  deriving DecidableEq

def Invocation.idx (i : Invocation) : String := rkIdx i.app i.user i.session i.inv

/-- A run that has ended is not taken up again. -/
def ended (status : Int) : Bool := status = RunStatus.terminal.code || status = RunStatus.stuck.code

/-- What `begin_run` writes of a new run. -/
def newRun (i : Invocation) (identity : Identity) (leaseOwner : String) (leaseExp ts : Int) : List Mutation :=
  [set "status" (iv RunStatus.running.code), set "app" i.app, set "user" i.user, set "session" i.session, set "inv" i.inv,
    set "seq" (iv 0), set "lease_owner" leaseOwner, set "lease_exp" (iv leaseExp), set "started" (iv ts),
    set "tenant_id" identity.tenantId, set "actor" identity.actor, set "subject" identity.subject,
    set "agent_id" identity.agentId, set "aiplex_instance_id" identity.aiplexInstanceId,
    set "gateway_route" identity.gatewayRoute,
    set "scopes" (if identity.scopesJson = "" then "[]" else identity.scopesJson),
    set "labels" (if identity.labelsJson = "" then "\x7b\x7d" else identity.labelsJson)]

/-- `newId` is the `Uuid::new_v4` of the call. -/
def beginRun (i : Invocation) (identity : Identity) (leaseOwner : String) (leaseTtlMs ts : Int) (newId : String) :
    BigtableM BeginRunResponse := do
  let leaseExp := addI64 ts (max leaseTtlMs 0)
  let known := ((← readRow i.idx).map fun idx => gs idx "run").getD ""
  if known ≠ "" then resume known leaseExp
  else
    writeRow (rkRun newId) (newRun i identity leaseOwner leaseExp ts)
    writeRow i.idx [set "run" newId]
    writeRow (rkRoute i.app i.user i.session) [set "run" newId, set "started" (iv ts)]
    let seq := (← attempt (nextSeq newId)).getD 0
    let _ ← attempt (journal newId seq "run" (.obj
      [("app", .str i.app), ("user", .str i.user), ("session", .str i.session), ("run_id", .str newId),
        ("invocation_id", .str i.inv), ("status", .str "running"), ("tenant_id", .str identity.tenantId),
        ("actor", .str identity.actor), ("subject", .str identity.subject), ("agent_id", .str identity.agentId),
        ("aiplex_instance_id", .str identity.aiplexInstanceId)]) ts)
    return { runId := newId, resumed := false, nextSeq := 0, status := RunStatus.running.code }
where
  resume (runId : String) (leaseExp : Int) : BigtableM BeginRunResponse := do
    let cur ← runState runId
    let status := (cur.map RunState.status).getD RunStatus.running.code
    let seq := (cur.map RunState.seqCursor).getD 0
    if !ended status then
      writeRow (rkRun runId)
        [set "status" (iv RunStatus.running.code), set "lease_owner" leaseOwner, set "lease_exp" (iv leaseExp)]
    return { runId, resumed := true, nextSeq := seq, status := if ended status then status else RunStatus.running.code }

/-- `limit` is how many runs are asked for. -/
def listRunsToRecover (nowMs limit : Int) : BigtableM (List RunState) := do
  let rows : List (String × RowMap) ← perform (.readPrefix "r#" (mulI64 (max limit 1) 8).toNat)
  recoverable rows []
where
  /-- The loop over the rows. -/
  recoverable : List (String × RowMap) → List RunState → BigtableM (List RunState)
    | [], out => return out
    | (key, m) :: rows, out => do
      let runId := trimKey "r#" key
      if ← isRecoverable runId m then
        if limit ≤ out.length + 1 then return out ++ [runFrom runId m]
        else recoverable rows (out ++ [runFrom runId m])
      else recoverable rows out
  isRecoverable (runId : String) (m : RowMap) : BigtableM Bool := do
    let st := asI32 (gi m "status")
    if st = RunStatus.runnable.code then return true
    else if st = RunStatus.running.code then return gi m "lease_exp" < nowMs
    else if st = RunStatus.waiting.code then
      let signals : List (String × RowMap) ← perform (.readPrefix ("sig#" ++ runId ++ "#") 1000)
      return signals.any fun s => gi s.2 "delivered" = 1 && gi s.2 "consumed" = 0
    else return false

/-! ## Effects -/

/-- `scopesOf` reads the list that a text is. -/
def beginEffect (scopesOf : String → List String) (r : EffectRequest) (ts : Int) : BigtableM EffectRecord := do
  if r.sem = EffectSemantics.nonIdempotent.code && r.dmode = EffectDispatchMode.inline.code then
    throw (.msg "begin_effect: NON_IDEMPOTENT semantics requires OUTBOX dispatch")
  else if r.sem = EffectSemantics.nonIdempotent.code && r.scope.isEmpty then
    throw (.denied "<required>" "non_idempotent effects must declare an authorization scope on the wire")
  else if !r.businessKey.isEmpty && r.connector.isEmpty then
    throw (.msg "begin_effect: business_key requires connector (cross-run dedupe is per-(connector, business_key))")
  else if r.scope.isEmpty then admitted
  else
    let granted := ((← runState r.runId).map fun rs => scopesOf rs.scopes).getD []
    if granted.any (· = r.scope) then admitted
    else
      let seq := (← attempt (nextSeq r.runId)).getD 0
      let _ ← attempt (journal r.runId seq "policy" (.obj
        [("tool", .str r.toolName), ("decision_index", .int r.decisionIndex), ("required_scope", .str r.scope),
          ("granted_scopes", .arr (granted.map .str)), ("violation", .str "scope_not_granted")]) ts)
      throw (.denied r.scope ("effect " ++ r.toolName ++ " requires scope " ++ r.scope.quote ++ " not present on run " ++
        r.runId))
where
  /-- After the checks. -/
  admitted : BigtableM EffectRecord := do
    match ← readRow (rkEffect r.key) with
    | some m => return effectFrom r.key m
    | none =>
      if !r.businessKey.isEmpty && !r.connector.isEmpty then
        let bkRow := rkBusinessKey r.connector r.businessKey
        match ← pointed bkRow with
        | some other => return other
        | none =>
          let claimed ← checkAndMutate bkRow (colHasNonempty "effect_key") [] [set "effect_key" r.key, set "ts" (iv ts)]
          if claimed then
            match ← pointed bkRow with
            | some other => return other
            | none => create
          else create
      else create
  /-- The effect that the row of the business key points to. -/
  pointed (bkRow : String) : BigtableM (Option EffectRecord) := do
    let pointer := ((← readRow bkRow).map fun m => gs m "effect_key").getD ""
    if pointer = "" then return none
    else getEffect pointer
  create : BigtableM EffectRecord := do
    let seq ← nextSeq r.runId
    writeRow (rkEffect r.key)
      [set "run" r.runId, set "seq" (iv seq), set "decision_index" (iv r.decisionIndex), set "tool" r.toolName,
        set "status" (iv EffectStatus.pending.code), set "request" r.requestJson, set "ts" (iv ts),
        set "semantics" (iv r.sem), set "dispatch_mode" (iv r.dmode), set "business_key" r.businessKey,
        set "connector" r.connector,
        set "next_dispatch_at_ms" (iv (if r.dmode = EffectDispatchMode.outbox.code then ts else 0)), set "scope" r.scope]
    journal r.runId seq "effect" (.obj
      [("tool", .str r.toolName), ("decision_index", .int r.decisionIndex), ("idempotency_key", .str r.key),
        ("status", .str "pending"), ("semantics", .int r.sem), ("dispatch_mode", .int r.dmode),
        ("business_key", .str r.businessKey), ("connector", .str r.connector), ("scope", .str r.scope)]) ts
    return freshEffect r seq ts

/-- An effect that can be dispatched: pending, due, not claimed or no longer, and of the connector if one is named. -/
def awaitsDispatch (now : Int) (connector : String) (er : EffectRecord) : Bool :=
  er.status = EffectStatus.pending.code && er.dispatchMode = EffectDispatchMode.outbox.code && er.nextDispatchAtMs ≤ now &&
    (er.dispatchClaimedBy = "" || 0 < er.dispatchClaimExpiresAtMs && er.dispatchClaimExpiresAtMs ≤ now) &&
      (connector = "" || er.connector = connector)

def listEffectsToDispatch (nowMs : Int) (connector : String) (limit clock : Int) : BigtableM (List EffectRecord) := do
  let now := RunStore.claimTime nowMs clock
  let cap := if 0 < limit then limit else 200
  let rows : List (String × RowMap) ← perform (.readPrefix "e#" (satMulI64 cap 32).toNat)
  let found := (rows.map fun row => effectFrom (trimKey "e#" row.1) row.2).filter (awaitsDispatch now connector)
  return (found.take cap.toNat).insertionSort fun a b =>
    a.nextDispatchAtMs < b.nextDispatchAtMs || a.nextDispatchAtMs = b.nextDispatchAtMs && a.tsMs ≤ b.tsMs

/-- An effect that is not settled. -/
def unsettled (olderThanMs : Int) (includePending includeUnknown : Bool) (m : RowMap) : Bool :=
  let both := !includePending && !includeUnknown
  (both || includeUnknown) && asI32 (gi m "status") = EffectStatus.unknown.code ||
    (both || includePending) && asI32 (gi m "status") = EffectStatus.pending.code &&
      (olderThanMs = 0 || gi m "ts" < olderThanMs)

def listPendingEffects (olderThanMs : Int) (includePending includeUnknown : Bool) (limit : Int) :
    BigtableM (List EffectRecord) := do
  let rows : List (String × RowMap) ← perform (.readPrefix "e#" (mulI64 (max limit 1) 32).toNat)
  let found := (rows.filter fun row => unsettled olderThanMs includePending includeUnknown row.2).map fun row =>
    effectFrom (trimKey "e#" row.1) row.2
  return (found.insertionSort fun a b => a.tsMs ≤ b.tsMs).take (max limit 1).toNat

end Tape.BigtableRunStore
