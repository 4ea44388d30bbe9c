import Tape.Sdk.Client

/-! # The reactors

`reactors/__init__.py` and `_recover.py`: the reconciler, the timer reactor and
the compensation drainer.  What the outside answers is a function handed to the
process: a connector's `observe`, a tool's status check, the inverse of an
obligation.
-/

namespace Tape.Sdk

/-! ## The reconciler -/

/-- A connector's `observe`; a raised exception is the status `"stuck"`. -/
structure Observation where
  status : String
  externalRef : String := ""
  responseJson : String := "{}"
  deriving DecidableEq, Repr

inductive CheckResult where
  | raised
  | found (responseJson : String)
  | absent
  deriving DecidableEq, Repr

/-- `_status_str_to_resolution`. -/
def statusStrToResolution (s : String) : EffectResolution :=
  if s = "confirmed" then .confirmed
  else if s = "absent" then .absent
  else if s = "duplicate" then .duplicate
  else if s = "failed" then .failed
  else .stuck

/-- One `reconcile_once` tick and its surroundings. -/
structure ReconcileJob where
  pendingAfterMs : Int := 0
  /-- `none`: no connector is registered for the effect. -/
  observe : EffectRecord → Option Observation := fun _ => none
  /-- `none`: the tool has no status check. -/
  check : EffectRecord → Option CheckResult := fun _ => none
  compensatorKind : String → String := fun _ => ""
  recordAt : EffectRecord → Int
  sdkNow : Int

def reconcileOne (job : ReconcileJob) (e : EffectRecord) : SdkM Unit := do
  match job.observe e with
  | some observation =>
    external (.observe e)
    let status := if observation.status.isEmpty then "absent" else observation.status
    let kind := if status = "duplicate" then job.compensatorKind e.toolName else ""
    let _ ← Client.recordExternalObservation e.runId e.idempotencyKey (statusStrToResolution status).code
      observation.externalRef observation.responseJson "" kind (job.recordAt e) (job.recordAt e)
    return ()
  | none =>
    match job.check e with
    | none => return ()
    | some result =>
      external (.statusCheck e.runId e.idempotencyKey)
      match result with
      | .raised => return ()
      | .found responseJson =>
        let _ ← Client.reconcileEffect e.runId e.idempotencyKey EffectStatus.confirmed.code responseJson ""
          (job.recordAt e)
        return ()
      | .absent =>
        -- a `PENDING` effect, and a `NON_IDEMPOTENT` one, is left for someone else
        if e.status = EffectStatus.unknown.code && e.semantics ≠ EffectSemantics.nonIdempotent.code then
          let _ ← Client.reconcileEffect e.runId e.idempotencyKey EffectStatus.failed.code ""
            (Json.obj [("reconciled", .str "absent at counterparty")]).dumps (job.recordAt e)
          return ()
        else return ()

def reconcileAll (job : ReconcileJob) : List EffectRecord → SdkM Unit
  | [] => return ()
  | e :: rest => do
    reconcileOne job e
    reconcileAll job rest

def reconcileOnce (job : ReconcileJob) : SdkM Unit := do
  let includePending := decide (0 < job.pendingAfterMs)
  let older := if includePending then job.sdkNow - job.pendingAfterMs else 0
  let effects ← Client.listPendingEffects older includePending true 500
  reconcileAll job effects

/-! ## The timer reactor -/

/-- One `fire_due_timers_once` tick and its surroundings. -/
structure TimerJob where
  now : Int
  /-- A runner or a `redrive_fn` was given. -/
  canRedrive : Bool := false
  onTimer : Bool := false
  check : TimerRecord → EffectRecord → Option CheckResult := fun _ _ => none
  recordAt : TimerRecord → Int

def reconcileTimer (job : TimerJob) (t : TimerRecord) : SdkM Unit := do
  let key := t.payload.strAt "key"
  match ← Client.getEffect t.runId key with
  | none => return ()
  | some eff =>
    if eff.status = EffectStatus.pending.code || eff.status = EffectStatus.unknown.code then
      match job.check t eff with
      | none => return ()
      | some result =>
        external (.statusCheck t.runId key)
        match result with
        | .raised => throw (.internal "status check raised")
        | .found responseJson =>
          let _ ← Client.reconcileEffect t.runId key EffectStatus.confirmed.code responseJson "" (job.recordAt t)
          return ()
        | .absent =>
          let _ ← Client.reconcileEffect t.runId key EffectStatus.failed.code "{}" "" (job.recordAt t)
          return ()
    else return ()

/-- `{"timed_out": True, **(resolution or {})}`; what is neither falsy nor an object cannot be unpacked. -/
def timeoutResolution : Option Json → Option Json
  | some (.obj members) => some (.obj (Json.dictUpdate [("timed_out", .bool true)] members))
  | none | some .null | some (.bool false) | some (.int 0) | some (.str "") | some (.arr []) =>
    some (.obj [("timed_out", .bool true)])
  | _ => none

/-- The gate of a `gate_timeout` and what to resolve it with.  Only an object has a `get`, and only a text names a
    gate. -/
def timeoutSignal (payload : Json) : Option (String × Json) :=
  match payload with
  | .obj _ =>
    match payload.get? "gate" with
    | none | some .null => (timeoutResolution (payload.get? "resolution")).map ("", ·)
    | some (.str gate) => (timeoutResolution (payload.get? "resolution")).map (gate, ·)
    | _ => none
  | _ => none

def fireTimer (job : TimerJob) (t : TimerRecord) : SdkM Unit := do
  if t.kind = "gate_timeout" then
    match timeoutSignal t.payload with
    | none => throw (.internal "no signal can be made of the payload")
    | some (gate, resolution) =>
      let _ ← Client.sendSignal t.runId gate resolution.dumps (job.recordAt t)
      return ()
  else if t.kind = "redrive" && job.canRedrive then
    let _ ← Client.getRun t.runId
    external (.redrive t.runId)
  else if t.kind = "reconcile" then reconcileTimer job t
  else if job.onTimer then external (.onTimer t)
  else return ()

def fireTimers (job : TimerJob) : List TimerRecord → SdkM Unit
  | [] => return ()
  | t :: rest => do
    swallow (fireTimer job t)
    fireTimers job rest

def fireDueTimersOnce (job : TimerJob) : SdkM Unit := do
  let timers ← Client.listDueTimers job.now 500 true
  fireTimers job timers

/-! ## The compensation drainer -/

/-- What invoking an inverse came to. -/
inductive InverseOutcome where
  | returned (resultJson : String)
  | raised (error : String)
  deriving DecidableEq, Repr

/-- The surroundings of a drainer.  The first argument of each answer counts the
    passes of `compensate_run`. -/
structure Drainer where
  claimer : String
  leaseTtlMs : Int := 60000
  /-- `_resolve_compensator` finds an inverse. -/
  resolves : ObligationRecord → Bool := fun _ => true
  inverse : Nat → ObligationRecord → InverseOutcome := fun _ _ => .returned "null"
  claimAt : Nat → ObligationRecord → Int
  recordAt : Nat → ObligationRecord → Int
  sdkNow : Nat → Int

inductive CompensateOutcome where
  | skipped
  | compensated (kind : String)
  | scheduled (kind : String)
  | stuck (kind : String)
  deriving DecidableEq, Repr

namespace CompensateOutcome

def compensated? : CompensateOutcome → Option String
  | compensated kind => some kind
  | _ => none

def scheduled? : CompensateOutcome → Option String
  | scheduled kind => some kind
  | _ => none

def stuck? : CompensateOutcome → Option String
  | stuck kind => some kind
  | _ => none

end CompensateOutcome

/-- `_recover._backoff_ms`. -/
def compensateBackoffMs (attempts : Int) : Int := min (1000 * 2 ^ (attempts - 1).toNat) 300000

/-- `!r` quotes the two names; names that need escapes inside the quotes are not distinguished. -/
def noCompensator (ob : ObligationRecord) : Json := .obj [("error", .str ("no compensator registered for kind='" ++
  ob.kind ++ "' (compensator_ref='" ++ ob.compensatorRef ++ "')"))]

/-- The part of `compensate_one` after the claim. -/
def runInverse (d : Drainer) (pass : Nat) (current : ObligationRecord) : SdkM CompensateOutcome := do
  if !d.resolves current then
    let _ ← Client.resolveObligation current.runId current.seq ObligationStatus.stuck.code
      (noCompensator current).dumps (d.recordAt pass current)
    return .stuck current.kind
  else
    external (.compensator current)
    match d.inverse pass current with
    | .raised error =>
      let nextAttempts := current.attempts + 1
      let nextAt :=
        if max 1 current.maxAttempts ≤ nextAttempts then 0
        else d.sdkNow pass + compensateBackoffMs nextAttempts
      let updated ← Client.recordObligationAttempt current.runId current.seq error nextAt
        (d.recordAt pass current)
      return if updated.status = ObligationStatus.stuck.code then .stuck current.kind
        else .scheduled current.kind
    | .returned resultJson =>
      let _ ← Client.resolveObligation current.runId current.seq ObligationStatus.compensated.code resultJson
        (d.recordAt pass current)
      return .compensated current.kind

def compensateOne (d : Drainer) (pass : Nat) (ob : ObligationRecord) : SdkM CompensateOutcome := do
  let (acquired, row) ← Client.claimObligation ob.runId ob.seq d.claimer d.leaseTtlMs (d.claimAt pass ob)
  if !acquired then return .skipped
  else
    match row with
    | none => return .skipped
    | some current => runInverse d pass current

def compensateAll (d : Drainer) (pass : Nat) : List ObligationRecord → SdkM (List CompensateOutcome)
  | [] => return []
  | ob :: rest => do
    let outcome ← compensateOne d pass ob
    let outcomes ← compensateAll d pass rest
    return outcome :: outcomes

def compensateOnce (d : Drainer) (now limit : Int) (includeCommittedExpired : Bool) :
    SdkM (List CompensateOutcome) := do
  let rows ← Client.listUnresolvedObligations now true false includeCommittedExpired limit
  compensateAll d 0 rows

/-- The passes of `compensate_run`: `fuel` of them are left. -/
def compensatePasses (d : Drainer) (runId : String) (pass : Nat) : Nat → SdkM (List CompensateOutcome)
  | 0 => return []
  | fuel + 1 => do
    let obs ← Client.listObligations runId true 0
    let due := obs.filter fun ob =>
      ob.status = ObligationStatus.pending.code && ob.nextAttemptAtMs ≤ d.sdkNow pass
    if due.isEmpty then return []
    else
      let outcomes ← compensateAll d pass due
      let later ← compensatePasses d runId (pass + 1) fuel
      return outcomes ++ later

structure CompensateRunJob where
  runId : String
  drainer : Drainer
  server : Nat := 0
  maxPasses : Nat := 32
  startAt : Int
  finishAt : Int

/-- The status `compensate_run` leaves the run in. -/
def finalStatus (outcomes : List CompensateOutcome) (leftover : List ObligationRecord) : RunStatus :=
  if (outcomes.filterMap CompensateOutcome.stuck?).isEmpty then
    if leftover.isEmpty then .failed else .compensating
  else .stuck

def compensationReport (outcomes : List CompensateOutcome) (leftover : List ObligationRecord) : Json := .obj
  [("compensated", .arr ((outcomes.filterMap CompensateOutcome.compensated?).map .str)),
    ("stuck", .arr ((outcomes.filterMap CompensateOutcome.stuck?).map .str)),
    ("scheduled", .arr ((outcomes.filterMap CompensateOutcome.scheduled?).map .str)),
    ("leftover", .int leftover.length)]

def compensateRun (job : CompensateRunJob) : SdkM RunStatus := do
  let _ ← Client.endRun job.server job.runId RunStatus.compensating.code "" job.startAt
  let outcomes ← compensatePasses job.drainer job.runId 0 (max 1 job.maxPasses)
  let obs ← Client.listObligations job.runId true 0
  let leftover := obs.filter fun ob => ob.status = ObligationStatus.pending.code
  let final := finalStatus outcomes leftover
  let _ ← Client.endRun job.server job.runId final.code
    (compensationReport outcomes leftover).dumps job.finishAt
  if final = .stuck then throw (.internal ("compensation stuck for " ++ job.runId ++ " — needs a human"))
  else return final

end Tape.Sdk
