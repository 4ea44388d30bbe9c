import Tape.Embedded.Service
import Tape.Interleave.Run

/-! # The outbox dispatcher

`dispatch_outbox_once`, `tape_adk/reactors.py`.  A tick is a program over calls of the service, each
of which is atomic; a connector's `dispatch` begins and ends, and anything may happen between the two.
Time passes between any two steps.

A service call that raises ends the tick, as a tick that is never scheduled again has ended.
-/

namespace Tape.Embedded

open Sql Interleave

/-! ## Connectors -/

/-- The `status` of a dispatch result; the dispatcher knows three texts. -/
inductive DispatchStatus where
  | confirmed | unknown | failed
  | other (text : String)
  deriving DecidableEq, Repr

structure DispatchResult where
  status : DispatchStatus
  externalRef : String := ""
  response : Json := .null
  error : Json := .null
  retryAfterMs : Int := 0

/-- What a call of `dispatch` comes to. -/
inductive DispatchOutcome where
  | returned (result : DispatchResult)
  | raised (error : String)

/-- A tick calls a connector at most once for a row, so what comes of the call is a function of it. -/
abbrev Connector : Type := StorageEffect → DispatchOutcome

/-! ## Operations -/

/-- The database, and the clock that all processes read. -/
structure Clocked where
  store : Store
  clock : Int

namespace Outbox

inductive Act where
  | readClock
  | listEffectsToDispatch (nowMs limit : Int)
  | claimEffectDispatch (session : SessionKey) (key claimer : String) (leaseTtlMs nowMs : Int)
  | getEffect (session : SessionKey) (key : String)
  | dispatchBegins (row : StorageEffect)
  | dispatchEnds (row : StorageEffect) (outcome : DispatchOutcome)
  | recordDispatchAttempt (session : SessionKey) (key error : String) (nextDispatchAtMs : Int)
  | completeEffect (session : SessionKey) (key : String) (status : EffectStatus) (responseJson errorJson : Json)
  | attachExternalRef (session : SessionKey) (key externalRef : String)
  | beginEffect (request : BeginEffect)
  | recordExternalObservation (session : SessionKey) (key : String) (observation : Observation)
  | pass (ms : Nat)

/-- `list_effects_to_dispatch`, of all connectors. -/
def listEffectsToDispatch (nowMs limit clock : Int) (s : Store) : List StorageEffect :=
  limitRows limit (orderBy StorageEffect.tsMs (s.effects.rows.filter (StorageEffect.dispatchable (orNow nowMs clock))))

/-- The direct `UPDATE` of the dispatcher. -/
def attachment (externalRef : String) : Update StorageEffect.pk where
  apply row := { row with externalRef := some externalRef }
  key_apply _ := rfl

namespace Act

def Res : Act → Type
  | readClock => Int
  | listEffectsToDispatch .. => List StorageEffect
  | claimEffectDispatch .. => Except ServiceError (Bool × Option StorageEffect)
  | getEffect .. => Option StorageEffect
  | recordDispatchAttempt .. | completeEffect .. | recordExternalObservation .. =>
    Except ServiceError (Option StorageEffect)
  | beginEffect .. => Except ServiceError StorageEffect
  | dispatchBegins .. | dispatchEnds .. | attachExternalRef .. | pass .. => Unit

/-- A method of the service: its value or exception, and what it leaves. -/
def ofResult {α : Type} (result : Result α) (s : Clocked) : Except ServiceError α × Clocked :=
  (result.map Prod.fst, { s with store := leaves result s.store })

def exec : (act : Act) → Clocked → act.Res × Clocked
  | readClock, s => (s.clock, s)
  | listEffectsToDispatch nowMs limit, s => (Outbox.listEffectsToDispatch nowMs limit s.clock s.store, s)
  | claimEffectDispatch session key claimer leaseTtlMs nowMs, s =>
    ofResult (Embedded.claimEffectDispatch session key claimer leaseTtlMs nowMs s.clock s.store) s
  | getEffect session key, s => (s.store.effect session key, s)
  | recordDispatchAttempt session key error nextDispatchAtMs, s =>
    ofResult (Embedded.recordDispatchAttempt session key error nextDispatchAtMs s.clock s.store) s
  | completeEffect session key status responseJson errorJson, s =>
    ofResult (Embedded.completeEffect session key status responseJson errorJson s.clock s.store) s
  | attachExternalRef session key externalRef, s =>
    ((), { s with store := s.store.writeEffect session key (attachment externalRef) })
  | beginEffect r, s => ofResult (Embedded.beginEffect r s.clock s.store) s
  | recordExternalObservation session key o, s =>
    ofResult (Embedded.recordExternalObservation session key o s.clock s.store) s
  | pass ms, s => ((), { s with clock := s.clock + ms })
  | dispatchBegins _, s => ((), s)
  | dispatchEnds _ _, s => ((), s)

end Act

/-! ## One tick -/

abbrev TickM (α : Type) : Type := ExceptT ServiceError (Prog Act Act.Res) α

def perform (act : Act) : TickM act.Res := ExceptT.lift (Prog.perform act)

/-- A method that raises ends the tick. -/
def rpc {α : Type} (act : Act) (returns : act.Res = Except ServiceError α) : TickM α :=
  ExceptT.mk ((Prog.perform act).bind fun answer => .ret (returns ▸ answer))

/-- What a tick says about one effect. -/
inductive Audit where
  | skip (key reason : String)
  | exception (key : String) (backoffMs : Int)
  | confirmed (key externalRef : String)
  | unknown (key : String)
  | failedTerminal (key : String)
  | failedRetry (key : String) (backoffMs : Int)

structure Settings where
  connectors : String → Option Connector
  claimer : String
  limit : Int := 50
  leaseTtlMs : Int := 60000
  defaultBackoffMs : Int := 5000
  maxBackoffMs : Int := 300000

/-- `min(default_backoff_ms * 2 ** max(0, attempts - 1), max_backoff_ms)`. -/
def Settings.backoff (settings : Settings) (attempts : Int) : Int :=
  min (settings.defaultBackoffMs * 2 ^ (attempts - 1).toNat) settings.maxBackoffMs

/-- `str(error or default)`. -/
def errorText (error : Json) (default : String) : String := if truthy error then pyStr error else default

/-- What is recorded of the call; `none`, a status that the dispatcher does not know. -/
def record (settings : Settings) (now : Int) (fresh : StorageEffect) : DispatchOutcome → TickM (Option Audit)
  | .raised error => do
    let backoff := settings.backoff (fresh.dispatchAttempts + 1)
    let _ ← rpc (.recordDispatchAttempt fresh.session fresh.idempotencyKey error (now + backoff)) rfl
    return some (.exception fresh.idempotencyKey backoff)
  | .returned result =>
    match result.status with
    | .confirmed => do
      let _ ← rpc (.completeEffect fresh.session fresh.idempotencyKey .confirmed result.response .null) rfl
      if result.externalRef ≠ "" then
        let () ← perform (.attachExternalRef fresh.session fresh.idempotencyKey result.externalRef)
      return some (.confirmed fresh.idempotencyKey result.externalRef)
    | .unknown => do
      let _ ← rpc (.recordDispatchAttempt fresh.session fresh.idempotencyKey (errorText result.error "ack lost") 0) rfl
      return some (.unknown fresh.idempotencyKey)
    | .failed =>
      if result.retryAfterMs < 0 then do
        let _ ← rpc (.completeEffect fresh.session fresh.idempotencyKey .failed .null result.error) rfl
        return some (.failedTerminal fresh.idempotencyKey)
      else do
        let backoff := if result.retryAfterMs ≠ 0 then result.retryAfterMs
          else settings.backoff (fresh.dispatchAttempts + 1)
        let _ ← rpc (.recordDispatchAttempt fresh.session fresh.idempotencyKey
          (errorText result.error "dispatch failed") (now + backoff)) rfl
        return some (.failedRetry fresh.idempotencyKey backoff)
    | .other _ => return none

/-- The tick holds the lease and has read the effect again. -/
def dispatchFresh (settings : Settings) (now : Int) (connector : Connector) (key : String) :
    Option StorageEffect → TickM (Option Audit)
  | none => return some (.skip key "not PENDING after claim")
  | some fresh =>
    if fresh.status ≠ .pending then return some (.skip key "not PENDING after claim")
    else do
      let () ← perform (.dispatchBegins fresh)
      let outcome := connector fresh
      let () ← perform (.dispatchEnds fresh outcome)
      record settings now fresh outcome

/-- The body of the loop. -/
def dispatchOne (settings : Settings) (now : Int) (eff : StorageEffect) : TickM (Option Audit) :=
  match eff.connector.bind settings.connectors with
  | none => return some (.skip eff.idempotencyKey ("no connector for " ++ pyRepr eff.connector))
  | some connector => do
    let (acquired, _) ← rpc (.claimEffectDispatch eff.session eff.idempotencyKey settings.claimer settings.leaseTtlMs now) rfl
    if !acquired then return some (.skip eff.idempotencyKey "lost the claim")
    else
      let found ← perform (.getEffect eff.session eff.idempotencyKey)
      dispatchFresh settings now connector eff.idempotencyKey found

def dispatchEach (settings : Settings) (now : Int) : List StorageEffect → TickM (List Audit)
  | [] => return []
  | eff :: effects => do
    let audit ← dispatchOne settings now eff
    let audits ← dispatchEach settings now effects
    return audit.toList ++ audits

/-- The clock is read once, for all effects of the tick. -/
def dispatchOutboxOnce (settings : Settings) : TickM (List Audit) := do
  let now ← perform .readClock
  let effects ← perform (.listEffectsToDispatch now settings.limit)
  dispatchEach settings now effects

/-! ## The system -/

/-- What runs at a time: ticks, the other writers of the ledger, and the clock. -/
inductive Call where
  | dispatchOutboxOnce (settings : Settings)
  | beginEffect (request : BeginEffect)
  | completeEffect (session : SessionKey) (key : String) (status : EffectStatus) (responseJson errorJson : Json)
  | recordExternalObservation (session : SessionKey) (key : String) (observation : Observation)
  | pass (ms : Nat)

namespace Call

def Out : Call → Type
  | dispatchOutboxOnce _ => Except ServiceError (List Audit)
  | beginEffect _ => Except ServiceError StorageEffect
  | completeEffect .. | recordExternalObservation .. => Except ServiceError (Option StorageEffect)
  | pass _ => Unit

def body : (call : Call) → Prog Act Act.Res call.Out
  | dispatchOutboxOnce settings => Outbox.dispatchOutboxOnce settings
  | beginEffect r => Prog.perform (Act.beginEffect r)
  | completeEffect session key status responseJson errorJson =>
    Prog.perform (Act.completeEffect session key status responseJson errorJson)
  | recordExternalObservation session key o => Prog.perform (Act.recordExternalObservation session key o)
  | pass ms => Prog.perform (Act.pass ms)

end Call

def reactors : System Clocked Act Act.Res Call Call.Out := ⟨Act.exec, fun _ => none, Call.body⟩

abbrev ReactorEvent : Type := Event Act Act.Res

abbrev ReactorHist : Type := Hist Clocked Act Act.Res

/-- A database that nobody works on. -/
def quiet (s : Store) (clock : Int) : Config Clocked Act Act.Res Call Call.Out where
  state := ⟨s, clock⟩
  log := []
  pool := []

end Outbox

end Tape.Embedded
