import Tape.Embedded.Ledger
import Tape.Interleave.Run

/-! # The Go service

The writers of the effect ledger in `embedded/service.go`, over the same tables.  There is no write
lock here: a method is a program over single statements, between two of which the methods of other
goroutines run.  The writes of `RecordExternalObservation`'s transaction are seen by the others when
it commits, so they are one statement.
-/

namespace Tape.Embedded.Go

open Sql Interleave

/-! ## Statements -/

/-- The columns that the `UPDATE` of an observation sets. -/
structure ObservedColumns where
  status : EffectStatus
  externalRef : Option String
  responseJson : Json
  errorJson : Json

inductive Stmt where
  | getEffect (session : SessionKey) (key : String)
  | setCompletion (session : SessionKey) (key : String) (status : EffectStatus) (responseJson errorJson : Json) (now : Int)
  | claimDispatch (session : SessionKey) (key claimer : String) (expires now : Int)
  | setAttempt (session : SessionKey) (key : String) (attempts : Int) (error : Option String) (status : EffectStatus)
      (nextDispatchAtMs now : Int)
  | commitObservation (session : SessionKey) (key : String) (columns : ObservedColumns)
      (obligation : Option StorageObligation) (now : Int)

namespace Stmt

def Value : Stmt → Type
  | getEffect .. => Option StorageEffect
  | claimDispatch .. => Nat
  | setCompletion .. | setAttempt .. | commitObservation .. => Unit

abbrev Res (stmt : Stmt) : Type := Except String stmt.Value

/-- `jsonOrNil`: an empty text is stored as `NULL`, as nothing is. -/
def jsonOrNil (value : Json) : Json :=
  match value with
  | .str "" => .null
  | _ => value

/-- The `SET` clause of the statement's `UPDATE`. -/
def set : Stmt → Update StorageEffect.pk
  | setCompletion _ _ status responseJson errorJson now =>
    completion status (jsonOrNil responseJson) (jsonOrNil errorJson) now
  | claimDispatch _ _ claimer expires _ => claim claimer expires
  | setAttempt _ _ attempts error status nextDispatchAtMs now =>
    { apply := fun row => { row with
        dispatchAttempts := attempts, lastDispatchError := error, dispatchClaimedBy := none
        dispatchClaimExpiresAtMs := 0, status, nextDispatchAtMs, tsMs := now }
      key_apply := fun _ => rfl }
  | commitObservation _ _ columns _ now =>
    { apply := fun row => { row with
        status := columns.status, externalRef := columns.externalRef, responseJson := jsonOrNil columns.responseJson
        errorJson := jsonOrNil columns.errorJson, tsMs := now }
      key_apply := fun _ => rfl }
  | getEffect .. => ⟨id, fun _ => rfl⟩

def exec : (stmt : Stmt) → Store → stmt.Res × Store
  | getEffect session key, s => (.ok (s.effect session key), s)
  | setCompletion session key status responseJson errorJson now, s =>
    (.ok (), s.writeEffect session key (setCompletion session key status responseJson errorJson now).set)
  | claimDispatch session key claimer expires now, s =>
    if (s.effect session key).any (StorageEffect.dispatchable now) then
      (.ok (1 : Nat), s.writeEffect session key (claimDispatch session key claimer expires now).set)
    else (.ok (0 : Nat), s)
  | setAttempt session key attempts error status nextDispatchAtMs now, s =>
    (.ok (), s.writeEffect session key (setAttempt session key attempts error status nextDispatchAtMs now).set)
  | commitObservation session key columns obligation now, s =>
    let seen := s.writeEffect session key (commitObservation session key columns obligation now).set
    match obligation with
    | none => (.ok (), seen)
    | some o =>
      -- the database numbers the row when it is inserted
      let numbered := { o with seq := nextObligationSeq s }
      match s.obligations.insert (sameObligation numbered) numbered with
      | some registered => (.ok (), { seen with obligations := registered })
      | none => (.error "UNIQUE constraint failed: tape_obligations", s)

/-- Any statement may come back with an error instead. -/
def fault : (stmt : Stmt) → Option stmt.Res := fun _ => some (.error "driver: bad connection")

end Stmt

/-! ## Records -/

/-- `decodeJSON`.  `unmarshal` is what `encoding/json` reads of a stored text into an `any`, as it writes that again: a
    number goes through a `float64`. -/
def decodeJSON (unmarshal : Json → Json) : Json → Json
  | .null => .null
  | value => unmarshal value

/-- `scanEffect`: the record of a row, its JSON columns decoded. -/
def scanEffect (unmarshal : Json → Json) (row : StorageEffect) : StorageEffect := { row with
  requestJson := decodeJSON unmarshal row.requestJson
  responseJson := decodeJSON unmarshal row.responseJson
  errorJson := decodeJSON unmarshal row.errorJson }

/-! ## Methods -/

abbrev GoM (α : Type) : Type := ExceptT String (Prog Stmt Stmt.Res) α

def query (stmt : Stmt) : GoM stmt.Value := ExceptT.mk (Prog.perform stmt)

section Methods

variable (unmarshal : Json → Json)

def getEffect (session : SessionKey) (key : String) : GoM (Option StorageEffect) := do
  let row : Option StorageEffect ← query (.getEffect session key)
  return row.map (scanEffect unmarshal)

def completeEffect (session : SessionKey) (key : String) (status : EffectStatus) (responseJson errorJson : Json)
    (now : Int) : GoM (Option StorageEffect) := do
  if status = .pending then throw ("CompleteEffect: invalid status " ++ status.text.quote)
  else
    match ← getEffect unmarshal session key with
    | none => return none
    | some existing =>
      if existing.status ≠ .pending then return some existing
      else
        query (.setCompletion session key status responseJson errorJson now)
        getEffect unmarshal session key

def defaultLeaseMs : Int := 60000

def claimEffectDispatch (session : SessionKey) (key claimer : String) (leaseTtlMs nowOverrideMs clock : Int) :
    GoM (Bool × Option StorageEffect) := do
  let now := orNow nowOverrideMs clock
  let ttl := if leaseTtlMs ≤ 0 then defaultLeaseMs else leaseTtlMs
  let affected : Nat ← query (.claimDispatch session key claimer (addI64 now ttl) now)
  let row ← getEffect unmarshal session key
  return (affected = 1, row)

def recordDispatchAttempt (session : SessionKey) (key errMsg : String) (nextDispatchAtMs now : Int) :
    GoM (Option StorageEffect) := do
  match ← getEffect unmarshal session key with
  | none => return none
  | some existing =>
    let status := if nextDispatchAtMs ≤ 0 then .unknown else existing.status
    let next := if nextDispatchAtMs ≤ 0 then 0 else nextDispatchAtMs
    query (.setAttempt session key (existing.dispatchAttempts + 1) (orNone (some errMsg)) status next now)
    getEffect unmarshal session key

/-- The columns that the switch over the resolution computes; `none`, an unknown resolution. -/
def observedColumns (o : Observation) (existing : StorageEffect) : Option ObservedColumns :=
  let kept : ObservedColumns := ⟨existing.status, existing.externalRef, existing.responseJson, existing.errorJson⟩
  match o.resolution with
  | .confirmed | .duplicate => some { kept with
      status := .confirmed, externalRef := orRef o.externalRef existing.externalRef, responseJson := o.responseJson }
  | .failed => some { kept with status := .failed, errorJson := o.errorJson }
  | .absent => some { kept with
      status := if existing.semantics = .nonIdempotent then .unknown else existing.status
      errorJson := if o.errorJson matches .null then existing.errorJson else o.errorJson }
  | .stuck => some { kept with
      status := .failed, errorJson := if o.errorJson matches .null then stuckError else o.errorJson }
  | .other _ => none

def recordExternalObservation (session : SessionKey) (key : String) (o : Observation) (now : Int) :
    GoM (Option StorageEffect) := do
  match ← getEffect unmarshal session key with
  | none => return none
  | some existing =>
    match observedColumns o existing with
    | none => throw "RecordExternalObservation: unknown resolution"
    | some columns =>
      let obligation := if o.compensates then some (duplicateObligation o existing now .empty) else none
      query (.commitObservation session key columns obligation now)
      getEffect unmarshal session key

end Methods

/-! ## The service -/

inductive Call where
  | completeEffect (session : SessionKey) (key : String) (status : EffectStatus) (responseJson errorJson : Json) (now : Int)
  | claimEffectDispatch (session : SessionKey) (key claimer : String) (leaseTtlMs nowOverrideMs clock : Int)
  | recordDispatchAttempt (session : SessionKey) (key errMsg : String) (nextDispatchAtMs now : Int)
  | recordExternalObservation (session : SessionKey) (key : String) (observation : Observation) (now : Int)

namespace Call

def Out : Call → Type
  | claimEffectDispatch .. => Except String (Bool × Option StorageEffect)
  | completeEffect .. | recordDispatchAttempt .. | recordExternalObservation .. => Except String (Option StorageEffect)

def body (unmarshal : Json → Json) : (call : Call) → Prog Stmt Stmt.Res call.Out
  | completeEffect session key status responseJson errorJson now =>
    Go.completeEffect unmarshal session key status responseJson errorJson now
  | claimEffectDispatch session key claimer leaseTtlMs nowOverrideMs clock =>
    Go.claimEffectDispatch unmarshal session key claimer leaseTtlMs nowOverrideMs clock
  | recordDispatchAttempt session key errMsg nextDispatchAtMs now =>
    Go.recordDispatchAttempt unmarshal session key errMsg nextDispatchAtMs now
  | recordExternalObservation session key observation now =>
    Go.recordExternalObservation unmarshal session key observation now

end Call

/-- The methods of any number of goroutines, one statement at a time. -/
def service (unmarshal : Json → Json) : System Store Stmt Stmt.Res Call Call.Out :=
  ⟨Stmt.exec, Stmt.fault, Call.body unmarshal⟩

abbrev ServiceConfig : Type := Config Store Stmt Stmt.Res Call Call.Out

/-- A database without any method running. -/
def quiet (s : Store) : ServiceConfig where
  state := s
  log := []
  pool := []

end Tape.Embedded.Go
