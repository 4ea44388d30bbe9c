import Tape.Sql.Dict
import Tape.Store.World

/-! # The embedded ledger's tables

`tape_adk/schemas.py`: the effects, obligations, timers, snapshots and values that
`TapeSessionService` keeps beside ADK's own tables.  A session exists before anything is recorded
under it, so the foreign keys into `sessions` refuse nothing.

A JSON column holds `null` where Python has `None`.
-/

namespace Tape.Embedded

open Sql

/-! ## Enumerations -/

inductive EffectStatus where
  | pending | confirmed | failed | unknown
  deriving DecidableEq, Repr

inductive EffectSemantics where
  | idempotent | nonIdempotent | observeOnly
  deriving DecidableEq, Repr

inductive EffectDispatchMode where
  | inline | outbox
  deriving DecidableEq, Repr

/-- What the counterparty said about an effect.  The service takes any text, and knows five. -/
inductive EffectResolution where
  | confirmed | failed | absent | duplicate | stuck
  | other (text : String)
  deriving DecidableEq, Repr

inductive ObligationStatus where
  | pending | committed | compensated | stuck
  deriving DecidableEq, Repr

/-- `CONFIRMED` and `FAILED`: `_TERMINAL_EFFECT_STATUSES`. -/
def EffectStatus.isTerminal : EffectStatus → Bool
  | confirmed | failed => true
  | pending | unknown => false

/-- `_ACTIVE_OBLIGATION_STATUSES`. -/
def ObligationStatus.isActive : ObligationStatus → Bool
  | pending | committed => true
  | compensated | stuck => false

/-! ## Rows -/

/-- `(app_name, user_id, session_id)`. -/
structure SessionKey where
  appName : String
  userId : String
  sessionId : String
  deriving DecidableEq, Repr

/-- A row of `tape_effects`, and the `EffectRecord` that is made of it, column by column. -/
structure StorageEffect where
  session : SessionKey
  idempotencyKey : String
  invocationId : String
  decisionIndex : Int
  toolName : String
  callIndex : Int
  status : EffectStatus
  semantics : EffectSemantics
  dispatchMode : EffectDispatchMode
  businessKey : Option String
  connector : Option String
  externalRef : Option String
  dispatchAttempts : Int
  nextDispatchAtMs : Int
  dispatchClaimedBy : Option String
  dispatchClaimExpiresAtMs : Int
  lastDispatchError : Option String
  requestJson : Json
  responseJson : Json
  errorJson : Json
  tsMs : Int

abbrev StorageEffect.pk (row : StorageEffect) : SessionKey × String := (row.session, row.idempotencyKey)

structure StorageObligation where
  seq : Int
  session : SessionKey
  invocationId : String
  effectKey : String
  kind : String
  payloadJson : Json
  status : ObligationStatus
  attempts : Int
  maxAttempts : Int
  nextAttemptAtMs : Int
  lastError : Option String := none
  claimedBy : Option String := none
  claimExpiresAtMs : Int := 0
  compensatorRef : Option String := none
  tsMs : Int

abbrev StorageObligation.pk (row : StorageObligation) : Int := row.seq

structure StorageTimer where
  session : SessionKey
  timerId : String
  fireAtMs : Int := 0
  kind : String := ""
  payloadJson : Json := .null
  fired : Bool
  createdAtMs : Int

abbrev StorageTimer.pk (row : StorageTimer) : SessionKey × String := (row.session, row.timerId)

/-- What a snapshot keeps of one effect, under its idempotency key. -/
structure CapturedEffect where
  idempotencyKey : String
  status : EffectStatus
  semantics : EffectSemantics
  dispatchMode : EffectDispatchMode
  businessKey : Option String
  connector : Option String
  externalRef : Option String
  requestJson : Json
  responseJson : Json
  errorJson : Json
  invocationId : String
  decisionIndex : Int
  toolName : String
  callIndex : Int
  tsMs : Int

abbrev CapturedEffect.pk (captured : CapturedEffect) : String := captured.idempotencyKey

/-- A row of `tape_effect_snapshots`: `effects_json` is a map by idempotency key. -/
structure StorageEffectSnapshot where
  session : SessionKey
  effectsJson : Table CapturedEffect.pk
  upToTsMs : Int
  effectsCount : Nat
  createdAtMs : Int
  updatedAtMs : Int

abbrev StorageEffectSnapshot.pk (row : StorageEffectSnapshot) : SessionKey := row.session

structure StorageValue where
  «namespace» : String
  key : String
  valueJson : Json
  version : Int
  tsMs : Int
  writer : Option String
  deleted : Bool

abbrev StorageValue.pk (row : StorageValue) : String × String := (row.namespace, row.key)

/-! ## The database -/

structure Store where
  effects : Table StorageEffect.pk
  obligations : Table StorageObligation.pk
  timers : Table StorageTimer.pk
  snapshots : Table StorageEffectSnapshot.pk
  values : Table StorageValue.pk

def Store.empty : Store := ⟨.empty, .empty, .empty, .empty, .empty⟩

/-- The constraint `uq_tape_effects_connector_business_key`; `NULL`s are distinct. -/
def sameBusinessKey (a b : StorageEffect) : Bool :=
  a.connector.isSome && a.businessKey.isSome && a.connector = b.connector && a.businessKey = b.businessKey

/-- The constraint `uq_tape_obligations_effect_kind_per_session`. -/
def sameObligation (a b : StorageObligation) : Bool :=
  a.session = b.session && a.effectKey = b.effectKey && a.kind = b.kind

namespace Store

variable (s : Store)

/-- The effect that `select … where` the primary key finds. -/
def effect (session : SessionKey) (key : String) : Option StorageEffect := s.effects.find? (session, key)

/-- The outcome a snapshot of the session holds for the key. -/
def captured (session : SessionKey) (key : String) : Option CapturedEffect :=
  (s.snapshots.find? session).bind fun snap => snap.effectsJson.find? key

/-- The ORM writes the changed attributes of one row back. -/
def writeEffect (session : SessionKey) (key : String) (u : Update StorageEffect.pk) : Store :=
  { s with effects := s.effects.update (fun row => row.pk = (session, key)) u }

theorem effect_writeEffect (session : SessionKey) (key : String) (u : Update StorageEffect.pk) (session' : SessionKey)
    (key' : String) : (s.writeEffect session key u).effect session' key' =
      (s.effect session' key').map fun row => if row.pk = (session, key) then u.apply row else row := by
  simp [effect, writeEffect, Table.find?_update]

/-- The row that was written. -/
theorem effect_writeEffect_self {session : SessionKey} {key : String} {row : StorageEffect}
    (found : s.effect session key = some row) (u : Update StorageEffect.pk) :
    (s.writeEffect session key u).effect session key = some (u.apply row) := by
  rw [effect_writeEffect, found, Option.map_some, if_pos (Table.key_of_find? found)]

/-- The rows that were not. -/
theorem effect_writeEffect_ne {session session' : SessionKey} {key key' : String} (u : Update StorageEffect.pk)
    (ne : (session', key') ≠ (session, key)) :
    (s.writeEffect session key u).effect session' key' = s.effect session' key' := by
  rw [effect_writeEffect]
  cases found : s.effect session' key' with
  | none => rfl
  | some row =>
    have other : row.pk ≠ (session, key) := fun same => ne ((Table.key_of_find? found).symm.trans same)
    rw [Option.map_some, if_neg other]

@[simp] theorem captured_writeEffect (session : SessionKey) (key : String) (u : Update StorageEffect.pk) :
    (s.writeEffect session key u).captured = s.captured := rfl

end Store

end Tape.Embedded
