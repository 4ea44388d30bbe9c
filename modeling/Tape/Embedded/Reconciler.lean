import Tape.Embedded.GoService

/-! # The reconciler

`list_pending_effects` and `reconcile_once`, `tape_adk/reactors.py`, with their twins
`ListPendingEffects` and `ReconcileOnce`, `embedded/reactors.go`.  The two ticks are one loop; they
differ in the method that records an observation and in what a limit that is not positive means.
Nothing else writes to the ledger while a tick runs.
-/

namespace Tape.Embedded

open Sql Interleave

namespace Reconciler

/-- What a call of `observe` comes to. -/
inductive ObserveOutcome where
  | returned (observation : Observation)
  | raised (error : String)

/-- A tick calls `observe` at most once for a row, so what comes of the call is a function of it. -/
abbrev Connector : Type := StorageEffect → ObserveOutcome

structure Settings where
  connectors : String → Option Connector
  stalePendingMs : Int := 0
  limit : Int := 50

/-- What a tick says about one effect; the two languages word a skip differently. -/
inductive Audit where
  | noConnector (key : String) (connector : Option String)
  | observeRaised (key error : String)
  | outcome (key : String) (resolution : EffectResolution) (externalRef : String)

/-! ## The hot set -/

/-- The `WHERE` clause of `list_pending_effects`: age bounds the `PENDING` rows alone. -/
def isHot (olderThanMs : Int) (includePending includeUnknown : Bool) (row : StorageEffect) : Bool :=
  let selected := includePending && row.status = .pending || includeUnknown && row.status = .unknown
  if 0 < olderThanMs ∧ includePending ∧ !includeUnknown then selected && row.tsMs < olderThanMs
  else if 0 < olderThanMs ∧ includePending then
    selected && (row.status = .unknown || row.status = .pending && row.tsMs < olderThanMs)
  else selected

def listPendingEffects (olderThanMs : Int) (includePending includeUnknown : Bool) (limit : Int) (s : Store) :
    List StorageEffect :=
  limitRows limit (orderBy StorageEffect.tsMs (s.effects.rows.filter (isHot olderThanMs includePending includeUnknown)))

/-- The effects that a tick reads at `clock`. -/
def window (settings : Settings) (clock : Int) (s : Store) : List StorageEffect :=
  let cutoff := if 0 < settings.stalePendingMs then clock - settings.stalePendingMs else 0
  listPendingEffects cutoff (0 < settings.stalePendingMs) true settings.limit s

/-! ## The loop -/

/-- A method that records observations: what it answers, and the store it leaves. -/
abbrev Recorder (ε : Type) : Type :=
  SessionKey → String → Observation → Int → Store → Except ε (Option StorageEffect) × Store

variable {ε : Type}

/-- `connectors.get(eff.connector or "")`. -/
def Settings.connector (settings : Settings) (eff : StorageEffect) : Option Connector :=
  settings.connectors (eff.connector.getD "")

/-- The body of the loop; a method that raises ends the tick. -/
def reconcileOne (record : Recorder ε) (settings : Settings) (now : Int) (eff : StorageEffect) (s : Store) :
    Except ε Audit × Store :=
  match settings.connector eff with
  | none => (.ok (.noConnector eff.idempotencyKey eff.connector), s)
  | some observe =>
    match observe eff with
    | .raised error => (.ok (.observeRaised eff.idempotencyKey error), s)
    | .returned o =>
      let (answer, left) := record eff.session eff.idempotencyKey o now s
      (answer.map fun _ => .outcome eff.idempotencyKey o.resolution o.externalRef, left)

/-- `recordAt` is the clock that the method reads when it records the effect's observation. -/
def reconcileEach (record : Recorder ε) (settings : Settings) (recordAt : StorageEffect → Int) :
    List StorageEffect → Store → Except ε (List Audit) × Store
  | [], s => (.ok [], s)
  | eff :: effects, s =>
    match reconcileOne record settings (recordAt eff) eff s with
    | (.error e, left) => (.error e, left)
    | (.ok audit, left) =>
      let (audits, final) := reconcileEach record settings recordAt effects left
      (audits.map (audit :: ·), final)

/-! ## The ticks -/

/-- `record_external_observation`. -/
def recordPython : Recorder ServiceError := fun session key o now s =>
  let result := recordExternalObservation session key o now s
  (result.map Prod.fst, leaves result s)

/-- `RecordExternalObservation`. -/
def recordGo (unmarshal : Json → Json) : Recorder String := fun session key o now s =>
  (Go.service unmarshal).alone (Go.recordExternalObservation unmarshal session key o now) s

def reconcileOnce (settings : Settings) (clock : Int) (recordAt : StorageEffect → Int) (s : Store) :
    Except ServiceError (List Audit) × Store :=
  reconcileEach recordPython settings recordAt (window settings clock s) s

/-- `if o.Limit <= 0 { o.Limit = 50 }`; a connector is shown the record of the row. -/
def Settings.go (unmarshal : Json → Json) (settings : Settings) : Settings := { settings with
  limit := if settings.limit ≤ 0 then 50 else settings.limit
  connectors := fun name => (settings.connectors name).map fun observe eff => observe (Go.scanEffect unmarshal eff) }

/-- `ReconcileOnce`. -/
def goReconcileOnce (unmarshal : Json → Json) (settings : Settings) (clock : Int) (recordAt : StorageEffect → Int)
    (s : Store) : Except String (List Audit) × Store :=
  reconcileEach (recordGo unmarshal) (settings.go unmarshal) recordAt (window (settings.go unmarshal) clock s) s

end Reconciler

end Tape.Embedded
