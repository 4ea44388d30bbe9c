import Tape.Interleave.Rely
import Tape.Store.Act

/-! # Sessions

The tables `tape_sessions` and `tape_events` and the session methods of `store/sql.rs`.
They share nothing with the tables of the runs, so they are a machine of their own: one
operation is one statement, or the one transaction of `append_event`.

Documents are kept as text and read with `serde_json`, which is a parameter.
-/

namespace Tape.Sessions

open Sql Interleave

/-! ## Documents -/

/-- What `merge_json` uses of `serde_json`. -/
structure SerdeJson where
  Value : Type
  /-- `from_str`; `none` when the text does not parse. -/
  fromStr : String → Option Value
  toString : Value → String
  /-- `as_object`: the members in the order of their keys. -/
  asObject : Value → Option (List (String × Value))
  object : List (String × Value) → Value
  isNull : Value → Bool

namespace SerdeJson

variable {V : Type}

/-- `Map::insert`. -/
def insert (key : String) (value : V) : List (String × V) → List (String × V)
  | [] => [(key, value)]
  | member :: members =>
    if member.1 = key then (key, value) :: members
    else if key < member.1 then (key, value) :: member :: members
    else member :: insert key value members

/-- `Map::remove`. -/
def remove (key : String) (members : List (String × V)) : List (String × V) :=
  members.filter fun member => member.1 ≠ key

variable (serde : SerdeJson)

/-- One member of a delta; a `null` deletes. -/
def mergeMember (base : List (String × serde.Value)) (member : String × serde.Value) : List (String × serde.Value) :=
  if serde.isNull member.2 then remove member.1 base else insert member.1 member.2 base

def mergeJson (base delta : String) : String :=
  let b := (serde.fromStr base).getD (serde.object [])
  let d := (serde.fromStr delta).getD (serde.object [])
  match serde.asObject b, serde.asObject d with
  | some members, some changes => serde.toString (serde.object (changes.foldl serde.mergeMember members))
  | _, _ => serde.toString b

end SerdeJson

/-! ## Tables -/

/-- Application, user and session. -/
abbrev Key : Type := String × String × String

/-- An event as a caller hands it in and gets it back. -/
structure EventRecord where
  id : String
  invocationId : String
  author : String
  branch : String
  contentJson : String
  actionsJson : String
  timestampMs : Int
  deriving DecidableEq, Repr

/-- A row of `tape_events`. -/
structure EventRow where
  session : Key
  ord : Int
  event : EventRecord
  deriving DecidableEq, Repr

/-- A row of `tape_sessions`. -/
structure SessionRow where
  session : Key
  stateJson : String
  lastUpdateTimeMs : Int
  deriving DecidableEq, Repr

/-- `PRIMARY KEY (app_name, user_id, session_id, ord)`. -/
abbrev EventRow.pk (row : EventRow) : Key × Int := (row.session, row.ord)

abbrev SessionRow.pk (row : SessionRow) : Key := row.session

structure Database where
  sessions : Table SessionRow.pk
  events : Table EventRow.pk

namespace Database

def empty : Database where
  sessions := .empty
  events := .empty

/-- The events of a session, in the order they were stored. -/
def eventsOf (db : Database) (session : Key) : List EventRow := db.events.rows.filter fun row => row.session = session

/-- `SELECT COALESCE(MAX(ord), -1) + 1`. -/
def nextOrd (db : Database) (session : Key) : Int := ((db.eventsOf session).map EventRow.ord).max?.getD (-1) + 1

/-- `INSERT … ON CONFLICT(app_name, user_id, session_id) DO UPDATE`. -/
def upsertSession (db : Database) (row : SessionRow) : Table SessionRow.pk :=
  db.sessions.upsert row
    ⟨fun old => { old with stateJson := row.stateJson, lastUpdateTimeMs := row.lastUpdateTimeMs }, fun _ => rfl⟩

end Database

/-! ## Operations -/

inductive Op where
  | nextOrd (session : Key)
  | readState (session : Key)
  /-- The transaction of `append_event`: insert the event, upsert the session. -/
  | append (row : EventRow) (updated : SessionRow)
  | upsertSession (row : SessionRow)
  | readSession (session : Key)
  | readEvents (session : Key) (limit : Int)
  | deleteSession (session : Key)
  | deleteEvents (session : Key)

namespace Op

/-- What the operation returns when it succeeds. -/
def Ok : Op → Type
  | nextOrd _ => Int
  | readState _ => Option String
  | append .. => Unit
  | upsertSession _ | deleteSession _ | deleteEvents _ => Nat
  | readSession _ => Option (String × Int)
  | readEvents .. => List EventRecord

def Res (op : Op) : Type := Except StoreError op.Ok

def exec : (op : Op) → Database → op.Res × Database
  | nextOrd session, db => (.ok (db.nextOrd session), db)
  | readState session, db => (.ok ((db.sessions.find? session).map SessionRow.stateJson), db)
  | append row updated, db =>
    match db.events.insert (fun _ => false) row with
    | some events => (.ok (), { sessions := db.upsertSession updated, events })
    | none => (.error (constraintFailed "tape_events"), db)
  | upsertSession row, db => (.ok (1 : Nat), { db with sessions := db.upsertSession row })
  | readSession session, db =>
    (.ok ((db.sessions.find? session).map fun row => (row.stateJson, row.lastUpdateTimeMs)), db)
  | readEvents session limit, db =>
    (.ok ((limitRows limit (orderBy EventRow.ord (db.eventsOf session))).map EventRow.event), db)
  | deleteSession session, db =>
    let selected (row : SessionRow) : Bool := row.session = session
    (.ok (db.sessions.count selected), { db with sessions := db.sessions.delete selected })
  | deleteEvents session, db =>
    let selected (row : EventRow) : Bool := row.session = session
    (.ok (db.events.count selected), { db with events := db.events.delete selected })

/-- A statement or a transaction that fails leaves nothing behind. -/
def fault (op : Op) : Option op.Res := some (.error Act.statementFailed)

end Op

/-! ## Methods -/

abbrev SessionM (α : Type) : Type := ExceptT StoreError (Prog Op Op.Res) α

def Op.query (op : Op) : SessionM op.Ok := ExceptT.mk (Prog.perform op)

/-- What `get_session` returns. -/
structure Session where
  session : Key
  stateJson : String
  events : List EventRecord
  lastUpdateTimeMs : Int

def createSession (app user sessionId stateJson : String) (ts : Int) (newId : String) : SessionM Session := do
  let session := (app, user, if sessionId.isEmpty then newId else sessionId)
  let state := if stateJson.isEmpty then "{}" else stateJson
  let _ ← (Op.upsertSession { session, stateJson := state, lastUpdateTimeMs := ts }).query
  return { session, stateJson := state, events := [], lastUpdateTimeMs := ts }

def getSession (session : Key) (maxEvents : Int) : SessionM (Option Session) := do
  let found : Option (String × Int) ← (Op.readSession session).query
  match found with
  | none => return none
  | some (stateJson, lastUpdateTimeMs) =>
    -- without a maximum the limit is `i64::MAX`
    let events : List EventRecord ← (Op.readEvents session (if 0 < maxEvents then maxEvents else i64Max)).query
    return some { session, stateJson, events, lastUpdateTimeMs }

def deleteSession (session : Key) : SessionM Bool := do
  let deleted : Nat ← (Op.deleteSession session).query
  let _ ← (Op.deleteEvents session).query
  return 0 < deleted

/-- An empty delta stands for the empty object. -/
def effectiveDelta (stateDeltaJson : String) : String := if stateDeltaJson.isEmpty then "{}" else stateDeltaJson

def eventTime (event : EventRecord) (now : Int) : Int := if 0 < event.timestampMs then event.timestampMs else now

def appendEvent (serde : SerdeJson) (session : Key) (event : EventRecord) (stateDeltaJson : String) (now : Int) :
    SessionM (EventRecord × Int) := do
  let ts := eventTime event now
  let ord : Int ← (Op.nextOrd session).query
  let current : Option String ← (Op.readState session).query
  let merged := serde.mergeJson (current.getD "{}") (effectiveDelta stateDeltaJson)
  let _ ← (Op.append { session, ord, event := { event with timestampMs := ts } }
    { session, stateJson := merged, lastUpdateTimeMs := ts }).query
  return ({ event with timestampMs := ts }, ts)

inductive Call where
  | createSession (app user sessionId stateJson : String) (ts : Int) (newId : String)
  | getSession (session : Key) (maxEvents : Int)
  | deleteSession (session : Key)
  | appendEvent (session : Key) (event : EventRecord) (stateDeltaJson : String) (now : Int)

namespace Call

def Out : Call → Type
  | createSession .. => Except StoreError Session
  | getSession .. => Except StoreError (Option Session)
  | deleteSession _ => Except StoreError Bool
  | appendEvent .. => Except StoreError (EventRecord × Int)

def body (serde : SerdeJson) : (call : Call) → Prog Op Op.Res call.Out
  | createSession app user sessionId stateJson ts newId => Sessions.createSession app user sessionId stateJson ts newId
  | getSession session maxEvents => Sessions.getSession session maxEvents
  | deleteSession session => Sessions.deleteSession session
  | appendEvent session event stateDeltaJson now => Sessions.appendEvent serde session event stateDeltaJson now

end Call

/-- Any number of server processes over the two tables. -/
def store (serde : SerdeJson) : System Database Op Op.Res Call Call.Out where
  exec := Op.exec
  fault := Op.fault
  body := Call.body serde

end Tape.Sessions
