import Tape.Embedded.Schemas

/-! # `TapeSessionService`

The methods of `tape_adk/service.py`.  The write lock lets one mutating method run at a time, and
an exception rolls its transaction back, so a method is a function of the store: it answers with a
value and what it leaves, or it raises and leaves the store alone.  What it reads from `_now_ms()`
is an argument.
-/

namespace Tape.Embedded

open Sql

/-! ## Exceptions -/

inductive ServiceError where
  | valueError (text : String)
  | integrityError (text : String)
  deriving DecidableEq, Repr

/-- What a method answers and leaves. -/
abbrev Result (α : Type) : Type := Except ServiceError (α × Store)

/-- What a call leaves: a method that raises has changed nothing. -/
def leaves {α : Type} (result : Result α) (s : Store) : Store :=
  match result with
  | .ok (_, left) => left
  | .error _ => s

@[simp] theorem leaves_ok {α : Type} (value : α) (left s : Store) : leaves (.ok (value, left)) s = left := rfl

@[simp] theorem leaves_error {α : Type} (e : ServiceError) (s : Store) : leaves (.error e : Result α) s = s := rfl

/-- `value or other`, of a text. -/
def orNone (text : Option String) : Option String := text.filter fun t => t ≠ ""

/-- `now_ms or _now_ms()`. -/
def orNow (nowMs clock : Int) : Int := if nowMs = 0 then clock else nowMs

/-- `if value`, of a JSON value. -/
def truthy : Json → Bool
  | .null => false
  | .bool value => value
  | .int value => value ≠ 0
  | .str value => value ≠ ""
  | .arr items => !items.isEmpty
  | .obj members => !members.isEmpty

/-- `repr`; texts that need escapes inside the quotes are not distinguished. -/
def pyRepr : Option String → String
  | none => "None"
  | some text => "'" ++ text ++ "'"

mutual

/-- `repr` of a JSON value; texts that need escapes inside the quotes are not distinguished. -/
def reprJson : Json → String
  | .null => "None"
  | .bool value => if value then "True" else "False"
  | .int value => toString value
  | .str text => "'" ++ text ++ "'"
  | .arr items => "[" ++ ", ".intercalate (reprItems items) ++ "]"
  | .obj members => "\x7b" ++ ", ".intercalate (reprMembers members) ++ "\x7d"

def reprItems : List Json → List String
  | [] => []
  | item :: items => reprJson item :: reprItems items

def reprMembers : List (String × Json) → List String
  | [] => []
  | member :: members => reprMember member :: reprMembers members

def reprMember : String × Json → String
  | (name, value) => "'" ++ name ++ "': " ++ reprJson value

end

/-- `str` of a JSON value. -/
def pyStr : Json → String
  | .str text => text
  | value => reprJson value

/-! ## Effect ledger -/

/-- The arguments of `begin_effect`. -/
structure BeginEffect where
  session : SessionKey
  invocationId : String
  decisionIndex : Int := 0
  toolName : String := ""
  callIndex : Int := 0
  requestJson : Json := .null
  customKey : String := ""
  semantics : EffectSemantics := .idempotent
  dispatchMode : EffectDispatchMode := .inline
  businessKey : Option String := none
  connector : Option String := none

namespace BeginEffect

def key (r : BeginEffect) : String :=
  if r.customKey = "" then
    r.invocationId ++ "/decision-" ++ toString r.decisionIndex ++ "/" ++ r.toolName ++ "/" ++ toString r.callIndex
  else r.customKey

/-- The contract that `begin_effect` checks before it looks anything up. -/
def refusal (r : BeginEffect) : Option ServiceError :=
  if r.semantics = .nonIdempotent ∧ r.dispatchMode = .inline then
    some (.valueError "begin_effect: NON_IDEMPOTENT effects must use OUTBOX dispatch")
  else if r.dispatchMode = .outbox ∧ orNone r.connector = none then
    some (.valueError "begin_effect: OUTBOX dispatch requires a `connector` name")
  else none

/-- The row `begin_effect` inserts. -/
def freshRow (r : BeginEffect) (now : Int) : StorageEffect where
  session := r.session
  idempotencyKey := r.key
  invocationId := r.invocationId
  decisionIndex := r.decisionIndex
  toolName := r.toolName
  callIndex := r.callIndex
  status := .pending
  semantics := r.semantics
  dispatchMode := r.dispatchMode
  businessKey := orNone r.businessKey
  connector := orNone r.connector
  externalRef := none
  dispatchAttempts := 0
  nextDispatchAtMs := 0
  dispatchClaimedBy := none
  dispatchClaimExpiresAtMs := 0
  lastDispatchError := none
  requestJson := r.requestJson
  responseJson := .null
  errorJson := .null
  tsMs := now

/-- The violated constraint is taken for that of the business key. -/
def clashError (r : BeginEffect) : ServiceError := .valueError
  ("begin_effect: business_key already exists for connector=" ++ pyRepr r.connector ++
    ": UNIQUE constraint failed: tape_effects.connector, tape_effects.business_key")

end BeginEffect

/-- The record that is made of a snapshot's entry. -/
def CapturedEffect.record (c : CapturedEffect) (session : SessionKey) : StorageEffect where
  session := session
  idempotencyKey := c.idempotencyKey
  invocationId := c.invocationId
  decisionIndex := c.decisionIndex
  toolName := c.toolName
  callIndex := c.callIndex
  status := c.status
  semantics := c.semantics
  dispatchMode := c.dispatchMode
  businessKey := c.businessKey
  connector := c.connector
  externalRef := c.externalRef
  dispatchAttempts := 0
  nextDispatchAtMs := 0
  dispatchClaimedBy := none
  dispatchClaimExpiresAtMs := 0
  lastDispatchError := none
  requestJson := c.requestJson
  responseJson := c.responseJson
  errorJson := c.errorJson
  tsMs := c.tsMs

def beginEffect (r : BeginEffect) (now : Int) (s : Store) : Result StorageEffect :=
  match r.refusal with
  | some refused => .error refused
  | none =>
    match s.effect r.session r.key with
    | some existing => .ok (existing, s)
    | none =>
      -- the live row may have been pruned: the snapshot is the durable record then
      match s.captured r.session r.key with
      | some captured => .ok (captured.record r.session, s)
      | none =>
        match s.effects.insert (sameBusinessKey (r.freshRow now)) (r.freshRow now) with
        | some inserted => .ok (r.freshRow now, { s with effects := inserted })
        | none => .error r.clashError

/-- The `set` of `complete_effect`; the dispatch lease is cleared. -/
def completion (status : EffectStatus) (responseJson errorJson : Json) (now : Int) : Update StorageEffect.pk where
  apply row := { row with
    status, responseJson, errorJson, tsMs := now, dispatchClaimedBy := none, dispatchClaimExpiresAtMs := 0 }
  key_apply _ := rfl

def EffectStatus.text : EffectStatus → String
  | pending => "pending"
  | confirmed => "confirmed"
  | failed => "failed"
  | unknown => "unknown"

def completeEffect (session : SessionKey) (key : String) (status : EffectStatus) (responseJson errorJson : Json)
    (now : Int) (s : Store) : Result (Option StorageEffect) :=
  if status = .pending then .error (.valueError ("complete_effect: invalid status " ++ pyRepr (some status.text)))
  else
    match s.effect session key with
    | none => .ok (none, s)
    | some row =>
      -- already terminal: returned as it is
      if row.status ≠ .pending then .ok (some row, s)
      else
        let u := completion status responseJson errorJson now
        .ok (some (u.apply row), s.writeEffect session key u)

/-! ## Outbox -/

/-- `PENDING + OUTBOX + due`, with a free or expired lease. -/
def StorageEffect.dispatchable (now : Int) (row : StorageEffect) : Bool :=
  row.status = .pending && row.dispatchMode = .outbox && row.nextDispatchAtMs ≤ now &&
    (orNone row.dispatchClaimedBy = none || row.dispatchClaimExpiresAtMs ≤ now)

def claim (claimer : String) (expires : Int) : Update StorageEffect.pk where
  apply row := { row with dispatchClaimedBy := some claimer, dispatchClaimExpiresAtMs := expires }
  key_apply _ := rfl

/-- One conditional `UPDATE`, and the row as it is afterwards. -/
def claimEffectDispatch (session : SessionKey) (key claimer : String) (leaseTtlMs nowMs clock : Int) (s : Store) :
    Result (Bool × Option StorageEffect) :=
  let now := orNow nowMs clock
  let acquired := (s.effect session key).any (StorageEffect.dispatchable now)
  let left := if acquired then s.writeEffect session key (claim claimer (now + leaseTtlMs)) else s
  .ok ((acquired, left.effect session key), left)

/-- The `set` of `record_dispatch_attempt`: without a time for a retry the reconciler takes over. -/
def dispatchAttempt (error : String) (nextDispatchAtMs now : Int) : Update StorageEffect.pk where
  apply row := { row with
    dispatchAttempts := row.dispatchAttempts + 1
    lastDispatchError := some error
    dispatchClaimedBy := none
    dispatchClaimExpiresAtMs := 0
    status := if nextDispatchAtMs ≤ 0 then .unknown else row.status
    nextDispatchAtMs := if nextDispatchAtMs ≤ 0 then 0 else nextDispatchAtMs
    tsMs := now }
  key_apply _ := rfl

def recordDispatchAttempt (session : SessionKey) (key error : String) (nextDispatchAtMs now : Int) (s : Store) :
    Result (Option StorageEffect) :=
  match s.effect session key with
  | none => .ok (none, s)
  | some row =>
    let u := dispatchAttempt error nextDispatchAtMs now
    .ok (some (u.apply row), s.writeEffect session key u)

/-! ## Observations -/

/-- The arguments of `record_external_observation`, the effect apart. -/
structure Observation where
  resolution : EffectResolution
  externalRef : String := ""
  responseJson : Json := .null
  errorJson : Json := .null
  compensateOnDuplicateKind : String := ""

/-- `external_ref or row.external_ref`. -/
def orRef (externalRef : String) (recorded : Option String) : Option String :=
  if externalRef = "" then recorded else some externalRef

def stuckError : Json := .obj [("resolution", .str "stuck"), ("detail", .str "reconciler couldn't resolve")]

/-- What the resolution makes of the row; `none`, an unknown resolution. -/
def Observation.apply (o : Observation) (row : StorageEffect) : Option StorageEffect :=
  match o.resolution with
  | .confirmed | .duplicate => some { row with
      status := .confirmed, externalRef := orRef o.externalRef row.externalRef, responseJson := o.responseJson }
  | .failed => some { row with status := .failed, errorJson := o.errorJson }
  | .absent => some { row with
      status := if row.semantics = .nonIdempotent then .unknown else row.status
      errorJson := if o.errorJson matches .null then row.errorJson else o.errorJson }
  | .stuck => some { row with status := .failed, errorJson := if truthy o.errorJson then o.errorJson else stuckError }
  | .other _ => none

/-- The `set` of a resolution that is known. -/
def Observation.update (o : Observation) (now : Int) : Update StorageEffect.pk where
  apply row := { (o.apply row).getD row with session := row.session, idempotencyKey := row.idempotencyKey, tsMs := now }
  key_apply _ := rfl

/-- SQLite hands out the number after the largest. -/
def nextObligationSeq (s : Store) : Int := (s.obligations.rows.map StorageObligation.seq).foldl max 0 + 1

/-- The obligation that a duplicate leaves, with the observation or not at all. -/
def duplicateObligation (o : Observation) (row : StorageEffect) (now : Int) (s : Store) : StorageObligation where
  seq := nextObligationSeq s
  session := row.session
  invocationId := row.invocationId
  effectKey := row.idempotencyKey
  kind := o.compensateOnDuplicateKind
  payloadJson := .obj
    [("external_ref", ((orRef o.externalRef row.externalRef).map Json.str).getD .null),
      ("reason", .str "duplicate observed by reconciler")]
  status := .pending
  attempts := 0
  maxAttempts := 5
  nextAttemptAtMs := now
  tsMs := now

/-- The observation registers an inverse. -/
def Observation.compensates (o : Observation) : Bool :=
  o.resolution = .duplicate && o.compensateOnDuplicateKind ≠ ""

def obligationClash : ServiceError := .integrityError
  ("UNIQUE constraint failed: tape_obligations.app_name, tape_obligations.user_id, tape_obligations.session_id, " ++
    "tape_obligations.effect_key, tape_obligations.kind")

def unknownResolution (o : Observation) : ServiceError := .valueError
  ("unknown resolution: " ++ pyRepr (match o.resolution with | .other text => some text | _ => none))

def recordExternalObservation (session : SessionKey) (key : String) (o : Observation) (now : Int) (s : Store) :
    Result (Option StorageEffect) :=
  match s.effect session key with
  | none => .ok (none, s)
  | some row =>
    if (o.apply row).isNone then .error (unknownResolution o)
    else
      let seen := s.writeEffect session key (o.update now)
      let answer := some ((o.update now).apply row)
      if o.compensates then
        let obligation := duplicateObligation o row now s
        match s.obligations.insert (sameObligation obligation) obligation with
        | some registered => .ok (answer, { seen with obligations := registered })
        | none => .error obligationClash
      else .ok (answer, seen)

/-! ## Obligation ledger -/

/-- The arguments of `register_compensation`. -/
structure RegisterCompensation where
  session : SessionKey
  invocationId : String := ""
  effectKey : String
  kind : String
  payloadJson : Json := .null
  compensatorRef : Option String := none
  maxAttempts : Int := 5

/-- The row of an obligation's session, effect and kind. -/
def StorageObligation.isOf (session : SessionKey) (effectKey kind : String) (o : StorageObligation) : Bool :=
  o.session = session && o.effectKey = effectKey && o.kind = kind

/-- The row `register_compensation` inserts. -/
def RegisterCompensation.row (r : RegisterCompensation) (now : Int) (s : Store) : StorageObligation where
  seq := nextObligationSeq s
  session := r.session
  invocationId := r.invocationId
  effectKey := r.effectKey
  kind := r.kind
  payloadJson := r.payloadJson
  status := .pending
  attempts := 0
  maxAttempts := if r.maxAttempts = 0 then 5 else r.maxAttempts
  nextAttemptAtMs := now
  compensatorRef := r.compensatorRef
  tsMs := now

/-- A second call returns the existing row. -/
def registerCompensation (r : RegisterCompensation) (now : Int) (s : Store) : Result StorageObligation :=
  match s.obligations.rows.find? (StorageObligation.isOf r.session r.effectKey r.kind) with
  | some existing => .ok (existing, s)
  | none =>
    match s.obligations.insert (sameObligation (r.row now s)) (r.row now s) with
    | some registered => .ok (r.row now s, { s with obligations := registered })
    | none => .error obligationClash

/-! ## Snapshots -/

/-- What `take_snapshot` keeps of a row. -/
def StorageEffect.capture (r : StorageEffect) : CapturedEffect where
  idempotencyKey := r.idempotencyKey
  status := r.status
  semantics := r.semantics
  dispatchMode := r.dispatchMode
  businessKey := r.businessKey
  connector := r.connector
  externalRef := r.externalRef
  requestJson := r.requestJson
  responseJson := r.responseJson
  errorJson := r.errorJson
  invocationId := r.invocationId
  decisionIndex := r.decisionIndex
  toolName := r.toolName
  callIndex := r.callIndex
  tsMs := r.tsMs

/-- The terminal effects of the session up to the watermark. -/
def capturedRows (session : SessionKey) (watermark : Int) (s : Store) : List CapturedEffect :=
  (s.effects.rows.filter fun row =>
    row.session = session && row.status.isTerminal && row.tsMs ≤ watermark).map StorageEffect.capture

structure SnapshotReport where
  captured : Nat
  mergedTotal : Nat
  upToTsMs : Int
  deriving DecidableEq, Repr

/-- The snapshot's row after `take_snapshot`: a new one, or the old one with the rows merged in. -/
def mergedSnapshot (session : SessionKey) (watermark now : Int) (rows : List CapturedEffect)
    (old : Option StorageEffectSnapshot) :
    StorageEffectSnapshot :=
  let merged := ((old.map StorageEffectSnapshot.effectsJson).getD .empty).putAll rows
  { session
    effectsJson := merged
    upToTsMs := (old.map fun snap => max snap.upToTsMs watermark).getD watermark
    effectsCount := merged.rows.length
    createdAtMs := (old.map StorageEffectSnapshot.createdAtMs).getD now
    updatedAtMs := now }

/-- `clock` is read for the default watermark, `now` for the stamps. -/
def takeSnapshot (session : SessionKey) (upToTsMs clock now : Int) (s : Store) : Result SnapshotReport :=
  let watermark := orNow upToTsMs clock
  let rows := capturedRows session watermark s
  let snap := mergedSnapshot session watermark now rows (s.snapshots.find? session)
  .ok (⟨rows.length, snap.effectsCount, watermark⟩, { s with snapshots := s.snapshots.put snap })

/-! ## Continue as new -/

/-- An obligation that is still open names the effect.  The subquery compares the session's id alone. -/
def pinned (s : Store) (row : StorageEffect) : Bool :=
  s.obligations.rows.any fun o =>
    o.session.sessionId = row.session.sessionId && o.effectKey = row.idempotencyKey && o.status.isActive

structure Continuation where
  effectsPruned : Nat
  stateWritten : Bool
  obligationsKept : Nat
  deriving DecidableEq, Repr

/-- The terminal effects of the old invocation that no obligation pins. -/
def retired (session : SessionKey) (oldInvocationId : String) (s : Store) (row : StorageEffect) : Bool :=
  row.session = session && row.invocationId = oldInvocationId && row.status.isTerminal && !pinned s row

/-- The open obligations that keep effects of the old invocation. -/
def keptObligations (session : SessionKey) (oldInvocationId : String) (effects : Table StorageEffect.pk) (s : Store) :
    List StorageObligation :=
  s.obligations.rows.filter fun o => o.session = session && o.status.isActive &&
    effects.rows.any fun row =>
      row.session = session && row.invocationId = oldInvocationId && row.idempotencyKey = o.effectKey

/-- The row of `tape_values` that carries the state over, new or written over the old one. -/
def carriedValue (session : SessionKey) (newInvocationId : String) (carriedState : Json) (now : Int)
    (values : Table StorageValue.pk) : StorageValue :=
  let «namespace» := "tape:continue-as-new:" ++ session.sessionId
  { «namespace», key := newInvocationId, valueJson := carriedState
    version := ((values.find? («namespace», newInvocationId)).map StorageValue.version).getD 0 + 1
    tsMs := now, writer := some "continue_as_new", deleted := false }

def continueAsNew (session : SessionKey) (oldInvocationId newInvocationId : String) (carriedState : Json) (pruneOld : Bool)
    (now : Int) (s : Store) : Result Continuation :=
  let effects := if pruneOld then s.effects.delete (retired session oldInvocationId s) else s.effects
  let kept := if pruneOld then (keptObligations session oldInvocationId effects s).length else 0
  let written := !(carriedState matches .null)
  let values := if written then s.values.put (carriedValue session newInvocationId carriedState now s.values) else s.values
  .ok (⟨s.effects.rows.length - effects.rows.length, written, kept⟩, { s with effects, values })

end Tape.Embedded
