import Mathlib.Algebra.BigOperators.Group.List.Basic
import Mathlib.Algebra.Group.Int.Defs
import Tape.Bigtable.Keys
import Tape.Bigtable.Rewrites
import Tape.Sessions.Append
import Tape.Store.ReactionStore

/-! # Counters that are read and then written

`charge_budget`, `write_value`, `delete_value` and `append_event` of `store/bigtable.rs` read a row and write it with
one more, in two requests.  The comment on `charge_budget` relies on there being one writer.  `create_session` also
writes back the count that it has read, and `delete_session` takes the row away.
-/

namespace Tape.BigtableRunStore

open Interleave Bigtable

/-! ## Budgets -/

/-- The doubles of the amounts, and their texts. -/
structure Doubles (F : Type) where
  zero : F
  add : F → F → F
  toText : F → String
  parse : String → Option F

variable {F : Type} (doubles : Doubles F)

def fv (x : F) : String := doubles.toText x

def gf (m : RowMap) (qualifier : String) : F := (doubles.parse (gs m qualifier)).getD doubles.zero

structure BudgetState (F : Type) where
  runId : String
  usdCap : F
  tokenCap : Int
  usdSpent : F
  tokensSpent : Int

def getBudget (runId : String) : BigtableM (BudgetState F) := do
  let row ← readRow (rkBudget runId)
  let m := row.getD []
  return { runId, usdCap := gf doubles m "usd_cap", tokenCap := gi m "tok_cap", usdSpent := gf doubles m "usd_spent"
           tokensSpent := gi m "tok_spent" }

def setBudget (runId : String) (usdCap : F) (tokenCap : Int) : BigtableM (BudgetState F) := do
  writeRow (rkBudget runId) [set "usd_cap" (fv doubles usdCap), set "tok_cap" (iv tokenCap)]
  getBudget doubles runId

def chargeBudget (runId : String) (usd : F) (tokens : Int) : BigtableM (BudgetState F) := do
  let row ← readRow (rkBudget runId)
  let m := row.getD []
  writeRow (rkBudget runId)
    [set "usd_spent" (fv doubles (doubles.add (gf doubles m "usd_spent") usd)),
      set "tok_spent" (iv (addI64 (gi m "tok_spent") tokens))]
  getBudget doubles runId

/-! ## Values -/

def getValue (ns key : String) : BigtableM (Option ValueRecord) := do
  let row ← readRow (rkValue ns key)
  return row.map fun m =>
    { «namespace» := ns, key, valueJson := gs m "value", version := gi m "version", tsMs := gi m "ts"
      writer := gs m "writer", deleted := gi m "deleted" ≠ 0 }

/-- The part of `write_value` after the version check. -/
def putValue (ns key valueJson writer : String) (ts : Int) : BigtableM ValueRecord := do
  let row ← readRow (rkValue ns key)
  let next := addI64 ((row.map fun m => gi m "version").getD 0) 1
  writeRow (rkValue ns key)
    [set "ns" ns, set "k" key, set "value" valueJson, set "version" (iv next), set "ts" (iv ts), set "writer" writer,
      set "deleted" (iv 0)]
  let subject := Subjects.derive "value" (.obj [("namespace", .str ns), ("key", .str key)])
  let _ ← attempt (journalFull "" 0 "value" subject (Text.ofJson (RunStore.valuePayload ns key valueJson writer next)) ts 1
    "" "" "")
  return { «namespace» := ns, key, valueJson, version := next, tsMs := ts, writer, deleted := false }

def writeValue (ns key valueJson : String) (ifVersion : Int) (writer : String) (ts : Int) : BigtableM ValueRecord := do
  if 0 ≤ ifVersion then
    let row ← readRow (rkValue ns key)
    let version := (row.map fun m => gi m "version").getD 0
    if version ≠ ifVersion then
      throw (.msg ("write_value: version conflict (have " ++ toString version ++ ", expected " ++ toString ifVersion ++ ")"))
    else putValue ns key valueJson writer ts
  else putValue ns key valueJson writer ts

def deleteValue (ns key : String) (ts : Int) : BigtableM (Bool × Int) := do
  match ← readRow (rkValue ns key) with
  | none => return (false, 0)
  | some m =>
    let next := addI64 (gi m "version") 1
    writeRow (rkValue ns key) [set "value" "", set "version" (iv next), set "ts" (iv ts), set "deleted" (iv 1)]
    let subject := Subjects.derive "value" (.obj [("namespace", .str ns), ("key", .str key), ("deleted", .bool true)])
    let _ ← attempt (journalFull "" 0 "value" subject (Text.ofJson (RunStore.deletedPayload ns key next)) ts 1 "" "" "")
    return (true, next)

/-! ## Sessions and their events -/

open Sessions (EventRecord Session SerdeJson effectiveDelta eventTime)

/-- `newId` is the `Uuid::new_v4` of the call. -/
def createSession (app user session stateJson : String) (ts : Int) (newId : String) : BigtableM Session := do
  let sessionId := if session = "" then newId else session
  let state := if stateJson = "" then "{}" else stateJson
  -- a session that is there keeps its events and gets the state
  let row ← readRow (rkSession app user sessionId)
  let existingCount := (row.map fun m => gi m "event_count").getD 0
  writeRow (rkSession app user sessionId)
    [set "state" state, set "last_update" (iv ts), set "event_count" (iv existingCount)]
  return { session := (app, user, sessionId), stateJson := state, events := [], lastUpdateTimeMs := ts }

def deleteRows : List String → BigtableM Unit
  | [] => return
  | key :: keys => do
    deleteRow key
    deleteRows keys

def deleteSession (app user session : String) : BigtableM Bool := do
  let row ← readRow (rkSession app user session)
  let events : List (String × RowMap) ← perform (.readPrefix ("ev#" ++ app ++ "#" ++ user ++ "#" ++ session ++ "#") 1000000)
  deleteRows (events.map Prod.fst)
  deleteRow (rkSession app user session)
  return row.isSome

/-- The state of a session that has no row is the empty object. -/
def currentState (text : Option String) : String := text.getD "{}"

def appendEvent (serde : SerdeJson) (app user session : String) (event : EventRecord) (stateDeltaJson : String) (now : Int) :
    BigtableM (EventRecord × Int) := do
  let ts := eventTime event now
  let row ← readRow (rkSession app user session)
  let m := row.getD []
  let ord := gi m "event_count"
  let merged := serde.mergeJson (currentState (m.get? "state")) (effectiveDelta stateDeltaJson)
  -- the row of the session first, then that of the event
  writeRow (rkSession app user session)
    [set "state" merged, set "last_update" (iv ts), set "event_count" (iv (addI64 ord 1))]
  writeRow (rkEvent app user session ord)
    [set "event_id" event.id, set "inv" event.invocationId, set "author" event.author, set "branch" event.branch,
      set "content" event.contentJson, set "actions" event.actionsJson, set "ts" (iv ts)]
  let subject := Subjects.derive "event" (.obj [("app", .str app), ("user", .str user), ("session", .str session)])
  let _ ← attempt (journalFull "" 0 "event" subject (Text.ofJson (.obj
    [("app", .str app), ("user", .str user), ("session", .str session), ("event_id", .str event.id),
      ("invocation_id", .str event.invocationId), ("author", .str event.author)])) ts 1 "" "" "")
  return ({ event with timestampMs := ts }, ts)

end Tape.BigtableRunStore

namespace Tape.BigtableRunStore.Counters

open Interleave Bigtable
open Sessions (EventRecord Session SerdeJson effectiveDelta eventTime)

/-! ## Calls -/

inductive Call (F : Type) where
  | setBudget (runId : String) (usdCap : F) (tokenCap : Int)
  | getBudget (runId : String)
  | chargeBudget (runId : String) (usd : F) (tokens : Int)
  | getValue (ns key : String)
  | writeValue (ns key valueJson : String) (ifVersion : Int) (writer : String) (ts : Int)
  | deleteValue (ns key : String) (ts : Int)
  | createSession (app user session stateJson : String) (ts : Int) (newId : String)
  | deleteSession (app user session : String)
  | appendEvent (app user session : String) (event : EventRecord) (stateDeltaJson : String) (now : Int)

variable {F : Type}

abbrev Out : Call F → Type
  | .setBudget .. | .getBudget .. | .chargeBudget .. => Except StoreError (BudgetState F)
  | .getValue .. => Except StoreError (Option ValueRecord)
  | .writeValue .. => Except StoreError ValueRecord
  | .deleteValue .. => Except StoreError (Bool × Int)
  | .createSession .. => Except StoreError Session
  | .deleteSession .. => Except StoreError Bool
  | .appendEvent .. => Except StoreError (EventRecord × Int)

def body (doubles : Doubles F) (serde : SerdeJson) : (call : Call F) → Prog Op Reply (Out call)
  | .setBudget runId usdCap tokenCap => BigtableRunStore.setBudget doubles runId usdCap tokenCap
  | .getBudget runId => BigtableRunStore.getBudget doubles runId
  | .chargeBudget runId usd tokens => BigtableRunStore.chargeBudget doubles runId usd tokens
  | .getValue ns key => BigtableRunStore.getValue ns key
  | .writeValue ns key valueJson ifVersion writer ts => BigtableRunStore.writeValue ns key valueJson ifVersion writer ts
  | .deleteValue ns key ts => BigtableRunStore.deleteValue ns key ts
  | .createSession app user session stateJson ts newId => BigtableRunStore.createSession app user session stateJson ts newId
  | .deleteSession app user session => BigtableRunStore.deleteSession app user session
  | .appendEvent app user session event stateDeltaJson now =>
    BigtableRunStore.appendEvent serde app user session event stateDeltaJson now

abbrev counters (doubles : Doubles F) (serde : SerdeJson) : System Contents Op Reply (Call F) Out :=
  machine requestFailed (body doubles serde)

abbrev CounterConfig (F : Type) : Type := Config Contents Op Reply (Call F) Out

/-- A table without any process running, and nothing executed yet. -/
def quiet (c : Contents) : CounterConfig F where
  state := c
  log := []
  pool := []

/-! ## The columns of the calls -/

/-- The call deletes rows, with all their columns. -/
def Call.deletesRows : Call F → Bool
  | deleteSession .. => true
  | _ => false

/-- The columns that a call writes, if it deletes no rows. -/
def Call.columns : Call F → List String
  | setBudget .. => ["usd_cap", "tok_cap"]
  | getBudget .. | getValue .. | deleteSession .. => []
  | chargeBudget .. => ["usd_spent", "tok_spent"]
  | writeValue .. | deleteValue .. => ["ns", "k", "value", "version", "ts", "writer", "deleted"] ++ journalColumns
  | createSession .. => ["state", "last_update", "event_count"]
  | appendEvent .. =>
    ["state", "last_update", "event_count", "event_id", "inv", "author", "branch", "content", "actions", "ts"] ++ journalColumns

section Spared

variable {doubles : Doubles F} {serde : SerdeJson} {qualifier : String} {α β : Type}

theorem allSpare_getBudget (runId : String) : AllSpareColumn qualifier (getBudget doubles runId) :=
  .bind (.perform trivial) fun _ => .pure _

theorem allSpare_putValue {ns key valueJson writer : String} {ts : Int}
    (foreign : qualifier ∉ (Call.deleteValue (F := F) ns key ts).columns) :
    AllSpareColumn qualifier (putValue ns key valueJson writer ts) := by
  simp only [Call.columns, List.mem_append, not_or] at foreign
  obtain ⟨own, ofJournal⟩ := foreign
  simp only [List.mem_cons, List.not_mem_nil, or_false, not_or] at own
  refine .bind (.perform trivial) fun row => .bind (.writeRow ?_) fun _ =>
    allSpare_journaled ofJournal ..
  simp [set, Mutation.spares, Ne.symm, own]

/-- A call that deletes no rows spares the columns that are not its own. -/
theorem allSpare_body (call : Call F) (foreign : qualifier ∉ call.columns) (keeps : call.deletesRows = false) :
    (body doubles serde call).All (SparesColumn qualifier) := by
  cases call with
  | deleteSession => cases keeps
  | createSession app user session stateJson ts newId =>
    refine AllSpareColumn.bind (.perform trivial) fun row => AllSpareColumn.bind (.writeRow ?_) fun _ => .pure _
    simp only [Call.columns, List.mem_cons, List.not_mem_nil, or_false, not_or] at foreign
    simp [set, Mutation.spares, Ne.symm, foreign]
  | getBudget runId => exact allSpare_getBudget runId
  | getValue ns key => exact AllSpareColumn.bind (.perform trivial) fun _ => .pure _
  | setBudget runId usdCap tokenCap =>
    refine AllSpareColumn.bind (.writeRow ?_) fun _ => allSpare_getBudget runId
    simp only [Call.columns, List.mem_cons, List.not_mem_nil, or_false, not_or] at foreign
    simp [set, Mutation.spares, Ne.symm, foreign]
  | chargeBudget runId usd tokens =>
    refine AllSpareColumn.bind (.perform trivial) fun _ => AllSpareColumn.bind (.writeRow ?_) fun _ => allSpare_getBudget runId
    simp only [Call.columns, List.mem_cons, List.not_mem_nil, or_false, not_or] at foreign
    simp [set, Mutation.spares, Ne.symm, foreign]
  | writeValue ns key valueJson ifVersion writer ts =>
    change AllSpareColumn qualifier (writeValue ns key valueJson ifVersion writer ts)
    have put : AllSpareColumn qualifier (putValue ns key valueJson writer ts) := allSpare_putValue (F := F) foreign
    unfold writeValue
    split
    next =>
      refine .bind (.perform trivial) fun row => ?_
      dsimp only
      split
      -- a mismatch of the version ends the call before it writes
      next => exact trivial
      next => exact put
    next => exact put
  | deleteValue ns key ts =>
    simp only [Call.columns, List.mem_append, not_or] at foreign
    obtain ⟨own, ofJournal⟩ := foreign
    simp only [List.mem_cons, List.not_mem_nil, or_false, not_or] at own
    refine AllSpareColumn.bind (.perform trivial) fun row => ?_
    cases row with
    -- there is nothing to delete
    | none => exact .pure _
    | some m =>
      refine AllSpareColumn.bind (.writeRow ?_) fun _ => allSpare_journaled ofJournal ..
      simp [set, Mutation.spares, Ne.symm, own]
  | appendEvent app user session event stateDeltaJson now =>
    simp only [Call.columns, List.mem_append, not_or] at foreign
    obtain ⟨own, ofJournal⟩ := foreign
    simp only [List.mem_cons, List.not_mem_nil, or_false, not_or] at own
    refine AllSpareColumn.bind (.perform trivial) fun row => .bind (.writeRow ?_) fun _ => .bind (.writeRow ?_) fun _ =>
      allSpare_journaled ofJournal ..
    · simp [set, Mutation.spares, Ne.symm, own]
    · simp [set, Mutation.spares, Ne.symm, own]

end Spared

section Derived

variable {doubles : Doubles F} {serde : SerdeJson} {row qualifier : String} {tid : Nat} {known : Option (Option String)}

/-! ### Rows that are deleted -/

/-- The call deletes the row. -/
def Call.deletes (row : String) : Call F → Bool
  | deleteSession app user session =>
    rkSession app user session = row || ("ev#" ++ app ++ "#" ++ user ++ "#" ++ session ++ "#").toList.isPrefixOf row.toList
  | _ => false

theorem not_deletes_rkBudget (runId : String) (call : Call F) : call.deletes (rkBudget runId) = false := by
  cases call <;> simp [Call.deletes, rkSession, rkBudget, String.ext_iff, List.isPrefixOf]

theorem not_deletes_rkValue (ns key : String) (call : Call F) : call.deletes (rkValue ns key) = false := by
  cases call <;> simp [Call.deletes, rkSession, rkValue, String.ext_iff, List.isPrefixOf]

/-- Deleting other rows leaves the column as it is. -/
theorem follows_deleteRows {f : Option String → Option String} {post : Except StoreError Unit → Option (Option String) → Prop}
    {keys : List String} (others : ∀ key ∈ keys, key ≠ row) (returns : ∀ value, post value known) :
    ((column requestFailed (body doubles serde) row qualifier).protocol f tid).Follows post known (deleteRows keys).run := by
  induction keys with
  | nil => exact returns _
  | cons key keys inductionHypothesis =>
    have differs : key ≠ row := others key List.mem_cons_self
    refine Protocol.Follows.exceptBind (And.intro (fun res b' wrote => ?_) fun res _ => ?_)
    · cases res with
      | error e => cases wrote
      | ok => simp [column, columnWrote, differs] at wrote
    · cases res with
      | error e => exact returns _
      | ok => exact inductionHypothesis fun other member => others other (List.mem_cons_of_mem _ member)

theorem derives_deleteSession {f : Option String → Option String} {app user session : String}
    (kept : (Call.deleteSession (F := F) app user session).deletes row = false) :
    Derives (body doubles serde) row qualifier f tid known (deleteSession app user session) := by
  simp only [Call.deletes, Bool.or_eq_false_iff, decide_eq_false_iff_not] at kept
  obtain ⟨otherSession, otherEvents⟩ := kept
  refine .readRow fun found => ?_
  rw [if_neg otherSession]
  refine Protocol.Follows.exceptBind (And.intro (fun res b' wrote => by cases wrote) fun res listed => ?_)
  cases res with
  | error e => trivial
  | ok events =>
    refine Protocol.Follows.exceptBind (follows_deleteRows (fun key member => ?_) fun value => ?_)
    · rintro rfl
      obtain ⟨event, isEvent, rfl⟩ := List.mem_map.mp member
      exact Bool.false_ne_true (otherEvents.symm.trans (listed event isEvent))
    · cases value with
      | error e => trivial
      | ok => exact Derives.writeRow (fun own => absurd own otherSession) (.pure _)

/-! ### Versions -/

theorem derives_putValue (ns key valueJson writer : String) (ts : Int) :
    Derives (body doubles serde) row "version" (increased 1) tid known (putValue ns key valueJson writer ts) := by
  refine .readRow fun found => .writeRow (fun own b' left => ?_) (.of_spares (allSpare_journaled (by decide) ..))
  refine ⟨found.bind fun m => m.get? "version", if_pos own, ?_⟩
  rw [map_gi_getD] at left
  simpa [Mutation.leaves, set, Mutation.spares, Mutation.apply, increased, eq_comm] using left

theorem derives_writeValue (ns key valueJson : String) (ifVersion : Int) (writer : String) (ts : Int) :
    Derives (body doubles serde) row "version" (increased 1) tid known (writeValue ns key valueJson ifVersion writer ts) := by
  unfold writeValue
  split
  next =>
    refine .readRow fun found => ?_
    generalize (if rkValue ns key = row then some (found.bind fun m => m.get? "version") else known) = seen
    dsimp only
    split
    next => exact .throw _
    next => exact derives_putValue ..
  next => exact derives_putValue ..

theorem derives_deleteValue (ns key : String) (ts : Int) :
    Derives (body doubles serde) row "version" (increased 1) tid known (deleteValue ns key ts) := by
  refine .readRow fun found => ?_
  cases found with
  | none => exact .pure _
  | some m =>
    refine .writeRow (fun own b' left => ⟨m.get? "version", if_pos own, ?_⟩) (.of_spares (allSpare_journaled (by decide) ..))
    simpa [Mutation.leaves, set, Mutation.spares, Mutation.apply, increased, gi_eq_cellI64, eq_comm] using left

theorem follows_version (call : Call F) (kept : call.deletes row = false) :
    ((column requestFailed (body doubles serde) row "version").protocol (increased 1) tid).Follows (fun _ _ => True) known
      (body doubles serde call) := by
  cases call with
  | writeValue ns key valueJson ifVersion writer ts => exact derives_writeValue ..
  | deleteValue ns key ts => exact derives_deleteValue ..
  | deleteSession app user session => exact derives_deleteSession kept
  | setBudget | getBudget | chargeBudget | getValue | createSession | appendEvent =>
    exact follows_of_spares (allSpare_body _ (by simp [Call.columns, journalColumns]) rfl)

/-! ### Amounts -/

/-- What a charge makes of the tokens spent. -/
def spendTokens : Call F → Option String → Option String
  | .chargeBudget _ _ tokens => increased tokens
  | _ => id

/-- What a charge makes of the dollars spent. -/
def spendUsd (doubles : Doubles F) : Call F → Option String → Option String
  | .chargeBudget _ usd _ => fun text =>
    some (fv doubles (doubles.add ((doubles.parse (text.getD "")).getD doubles.zero) usd))
  | _ => id

theorem gf_getD (doubles : Doubles F) (found : Option RowMap) (qualifier : String) :
    gf doubles (found.getD []) qualifier =
      (doubles.parse ((found.bind fun m => m.get? qualifier).getD "")).getD doubles.zero := by
  cases found <;> rfl

theorem follows_tokens (call : Call F) (kept : call.deletes row = false) :
    ((column requestFailed (body doubles serde) row "tok_spent").protocol (spendTokens call) tid).Follows
      (fun _ _ => True) known (body doubles serde call) := by
  cases call with
  | chargeBudget runId usd tokens =>
    refine Derives.readRow fun found => .writeRow (fun own b' left => ?_) (.of_spares (allSpare_getBudget runId))
    refine ⟨found.bind fun m => m.get? "tok_spent", if_pos own, ?_⟩
    rw [gi_getD] at left
    simpa [Mutation.leaves, set, Mutation.spares, Mutation.apply, spendTokens, increased, eq_comm] using left
  | deleteSession app user session => exact derives_deleteSession kept
  | setBudget | getBudget | getValue | writeValue | deleteValue | createSession | appendEvent =>
    exact follows_of_spares (allSpare_body _ (by simp [Call.columns, journalColumns]) rfl)

theorem follows_usd (call : Call F) (kept : call.deletes row = false) :
    ((column requestFailed (body doubles serde) row "usd_spent").protocol (spendUsd doubles call) tid).Follows
      (fun _ _ => True) known (body doubles serde call) := by
  cases call with
  | chargeBudget runId usd tokens =>
    refine Derives.readRow fun found => .writeRow (fun own b' left => ?_) (.of_spares (allSpare_getBudget runId))
    refine ⟨found.bind fun m => m.get? "usd_spent", if_pos own, ?_⟩
    rw [gf_getD] at left
    simpa [Mutation.leaves, set, Mutation.spares, Mutation.apply, spendUsd, eq_comm] using left
  | deleteSession app user session => exact derives_deleteSession kept
  | setBudget | getBudget | getValue | writeValue | deleteValue | createSession | appendEvent =>
    exact follows_of_spares (allSpare_body _ (by simp [Call.columns, journalColumns]) rfl)

/-! ### Sessions -/

/-- The call creates or deletes the session of the row. -/
def Call.resets (row : String) : Call F → Bool
  | createSession app user session _ _ newId => rkSession app user (if session = "" then newId else session) = row
  | call => call.deletes row

/-- Creating another session leaves the column as it is. -/
theorem derives_createSession {f : Option String → Option String} {app user session stateJson newId : String} {ts : Int}
    (other : (Call.createSession (F := F) app user session stateJson ts newId).resets row = false) :
    Derives (body doubles serde) row qualifier f tid known (createSession app user session stateJson ts newId) := by
  have differs : rkSession app user (if session = "" then newId else session) ≠ row := of_decide_eq_false other
  refine .readRow fun found => .writeRow (fun own => absurd own differs) (.pure _)

/-- What an event makes of the state of its session. -/
def mergeState (serde : SerdeJson) : Call F → Option String → Option String
  | .appendEvent _ _ _ _ stateDeltaJson _ => fun text =>
    some (serde.mergeJson (currentState text) (effectiveDelta stateDeltaJson))
  | _ => id

theorem follows_count (call : Call F) (kept : call.resets row = false) :
    ((column requestFailed (body doubles serde) row "event_count").protocol (increased 1) tid).Follows
      (fun _ _ => True) known (body doubles serde call) := by
  cases call with
  | appendEvent app user session event stateDeltaJson now =>
    refine Derives.readRow fun found => .writeRow (fun own b' left => ?_) (.of_spares ?_)
    · refine ⟨found.bind fun m => m.get? "event_count", if_pos own, ?_⟩
      rw [gi_getD] at left
      simpa [Mutation.leaves, set, Mutation.spares, Mutation.apply, increased, eq_comm] using left
    · exact AllSpareColumn.bind (.writeRow (by simp [set, Mutation.spares])) fun _ => allSpare_journaled (by decide) ..
  | createSession app user session stateJson ts newId => exact derives_createSession kept
  | deleteSession app user session => exact derives_deleteSession kept
  | setBudget | getBudget | chargeBudget | getValue | writeValue | deleteValue =>
    exact follows_of_spares (allSpare_body _ (by simp [Call.columns, journalColumns]) rfl)

theorem follows_state (call : Call F) (kept : call.resets row = false) :
    ((column requestFailed (body doubles serde) row "state").protocol (mergeState serde call) tid).Follows
      (fun _ _ => True) known (body doubles serde call) := by
  cases call with
  | appendEvent app user session event stateDeltaJson now =>
    refine Derives.readRow fun found => .writeRow (fun own b' left => ?_) (.of_spares ?_)
    · refine ⟨found.bind fun m => m.get? "state", if_pos own, ?_⟩
      have same : (found.getD []).get? "state" = found.bind fun m => m.get? "state" := by cases found <;> rfl
      rw [same] at left
      simpa [Mutation.leaves, set, Mutation.spares, Mutation.apply, mergeState, eq_comm] using left
    · exact AllSpareColumn.bind (.writeRow (by simp [set, Mutation.spares])) fun _ => allSpare_journaled (by decide) ..
  | createSession app user session stateJson ts newId => exact derives_createSession kept
  | deleteSession app user session => exact derives_deleteSession kept
  | setBudget | getBudget | chargeBudget | getValue | writeValue | deleteValue =>
    exact follows_of_spares (allSpare_body _ (by simp [Call.columns, journalColumns]) rfl)

end Derived

/-! ## Columns that are written together -/

/-- The operation touches both columns or none. -/
def Together (qualifier other : String) : Op → Prop
  | .mutateRow _ mutations => mutations.all (Mutation.spares qualifier) = mutations.all (Mutation.spares other)
  | .checkAndMutateRow _ _ trueMutations falseMutations => ∀ matched,
    (Op.taken trueMutations falseMutations matched).all (Mutation.spares qualifier) =
      (Op.taken trueMutations falseMutations matched).all (Mutation.spares other)
  | _ => True

section Together

variable {doubles : Doubles F} {serde : SerdeJson} {row qualifier other : String}

theorem together_of_spares {α : Type} {program : Prog Op Reply α} (all : program.All (SparesColumn qualifier))
    (also : program.All (SparesColumn other)) : program.All (Together qualifier other) := by
  induction program with
  | ret value => trivial
  | call op next inductionHypothesis =>
    refine ⟨?_, fun res => inductionHypothesis res (all.2 res) (also.2 res)⟩
    have spares : SparesColumn qualifier op := all.1
    have spares' : SparesColumn other op := also.1
    cases op with
    | mutateRow key mutations => exact Eq.trans spares (Eq.symm spares')
    | checkAndMutateRow key predicate trueMutations falseMutations =>
      intro matched
      cases matched with
      | true => exact Eq.trans spares.1 (Eq.symm spares'.1)
      | false => exact Eq.trans spares.2 (Eq.symm spares'.2)
    | readRow | readPrefix | readRange | increment => trivial

theorem together_deleteRows (keys : List String) : (deleteRows keys).run.All (Together qualifier other) := by
  induction keys with
  | nil => trivial
  | cons key keys inductionHypothesis =>
    refine Prog.All.exceptBind ⟨?_, fun _ => trivial⟩ fun _ => inductionHypothesis
    simp [Together, Mutation.spares]

theorem together_deleteSession (app user session : String) :
    (deleteSession app user session).run.All (Together qualifier other) := by
  refine Prog.All.exceptBind ⟨trivial, fun _ => trivial⟩ fun found =>
    Prog.All.exceptBind ⟨trivial, fun _ => trivial⟩ fun events =>
      Prog.All.exceptBind (together_deleteRows _) fun _ => Prog.All.exceptBind ⟨?_, fun _ => trivial⟩ fun _ => trivial
  simp [Together, Mutation.spares]

theorem together_amounts (call : Call F) : (body doubles serde call).All (Together "tok_spent" "usd_spent") := by
  cases call with
  | chargeBudget runId usd tokens =>
    refine Prog.All.exceptBind ⟨trivial, fun _ => trivial⟩ fun found => Prog.All.exceptBind ⟨?_, fun _ => trivial⟩ fun _ => ?_
    · simp [Together, set, Mutation.spares]
    · exact together_of_spares (allSpare_getBudget runId) (allSpare_getBudget runId)
  | deleteSession app user session => exact together_deleteSession app user session
  | setBudget | getBudget | getValue | writeValue | deleteValue | createSession | appendEvent =>
    exact together_of_spares (allSpare_body _ (by simp [Call.columns, journalColumns]) rfl)
      (allSpare_body _ (by simp [Call.columns, journalColumns]) rfl)

theorem together_sessions (call : Call F) : (body doubles serde call).All (Together "event_count" "state") := by
  cases call with
  | appendEvent app user session event stateDeltaJson now =>
    refine Prog.All.exceptBind ⟨trivial, fun _ => trivial⟩ fun found => Prog.All.exceptBind ⟨?_, fun _ => trivial⟩ fun _ =>
      Prog.All.exceptBind ⟨?_, fun _ => trivial⟩ fun _ => ?_
    · simp [Together, set, Mutation.spares]
    · simp [Together, set, Mutation.spares]
    · exact together_of_spares (allSpare_journaled (by decide) ..) (allSpare_journaled (by decide) ..)
  | createSession app user session stateJson ts newId =>
    refine Prog.All.exceptBind ⟨trivial, fun _ => trivial⟩ fun found => Prog.All.exceptBind ⟨?_, fun _ => trivial⟩ fun _ =>
      trivial
    simp [Together, set, Mutation.spares]
  | deleteSession app user session => exact together_deleteSession app user session
  | setBudget | getBudget | chargeBudget | getValue | writeValue | deleteValue =>
    exact together_of_spares (allSpare_body _ (by simp [Call.columns, journalColumns]) rfl)
      (allSpare_body _ (by simp [Call.columns, journalColumns]) rfl)

/-- Columns that are written together are raced together. -/
theorem unraced_together (together : ∀ call : Call F, (body doubles serde call).All (Together qualifier other))
    {table : Contents} {choices : List (Choice (Call F))}
    (unraced : (column requestFailed (body doubles serde) row qualifier).Unraced
      ((counters doubles serde).run (quiet table) choices).log) :
    (column requestFailed (body doubles serde) row other).Unraced ((counters doubles serde).run (quiet table) choices).log := by
  have logged := Register.log_of_all (S := counters doubles serde) together (c := quiet table) rfl rfl choices
  refine unraced.congr fun event member => ⟨?_, ?_⟩
  · have both := logged event member
    obtain ⟨tid, op, res⟩ := event
    cases op with
    | readRow | readPrefix | readRange | increment => rfl
    | checkAndMutateRow key predicate trueMutations falseMutations =>
      cases res with
      | error e => rfl
      | ok matched =>
        by_cases own : key = row
        · simp only [column, columnWrote, own, if_true, Mutation.leaves, both matched]
          split <;> rfl
        · simp [column, columnWrote, own]
    | mutateRow key mutations =>
      cases res with
      | error e => rfl
      | ok =>
        have same : mutations.all (Mutation.spares qualifier) = mutations.all (Mutation.spares other) := both
        by_cases own : key = row
        · simp only [column, columnWrote, own, if_true, Mutation.leaves, same]
          split <;> rfl
        · simp [column, columnWrote, own]
  · simp [column, columnRead]

end Together

/-! ## Nothing is lost while nobody races -/

section Runs

variable (doubles : Doubles F) (serde : SerdeJson) (table : Contents) (choices : List (Choice (Call F)))

abbrev counterRun : CounterConfig F := (counters doubles serde).run (quiet table) choices

/-- The tokens that a call charges. -/
def Call.tokens : Call F → Int
  | chargeBudget _ _ tokens => tokens
  | _ => 0

/-- The versions of a value. -/
abbrev versions (ns key : String) : Register (counters doubles serde) (Option String) :=
  column requestFailed (body doubles serde) (rkValue ns key) "version"

/-- The events of a session, as its row counts them. -/
abbrev eventCounts (app user session : String) : Register (counters doubles serde) (Option String) :=
  column requestFailed (body doubles serde) (rkSession app user session) "event_count"

/-- The tokens a run has spent. -/
abbrev tokensSpent (runId : String) : Register (counters doubles serde) (Option String) :=
  column requestFailed (body doubles serde) (rkBudget runId) "tok_spent"

/-- The version counts the writes of a value, and each write gets one of its own, exactly if nobody writes between a
    call's last read of the row and its write. -/
theorem value_versions_once (ns key : String)
    (few : ((versions doubles serde ns key).written (counterRun doubles serde table choices).log).length ≤ 2 ^ 64) :
    (((versions doubles serde ns key).written (counterRun doubles serde table choices).log).Nodup ↔
      (versions doubles serde ns key).Unraced (counterRun doubles serde table choices).log) ∧
    ((versions doubles serde ns key).Unraced (counterRun doubles serde table choices).log →
      gi ((counterRun doubles serde table choices).state.cells (rkValue ns key)) "version" =
        Int.bmod (gi (table.cells (rkValue ns key)) "version" +
          ((versions doubles serde ns key).written (counterRun doubles serde table choices).log).length) (2 ^ 64)) := by
  have follows : ∀ (tid : Nat) (call : Call F), True → ((versions doubles serde ns key).protocol (increased 1) tid).Follows
      (fun _ _ => True) none (body doubles serde call) := fun tid call _ => follows_version call (not_deletes_rkValue ns key call)
  constructor
  · exact Register.run_nodup_iff follows rfl rfl (System.along_free _ _ choices) fun i j less bound =>
      iterate_ne less (Nat.lt_of_lt_of_le bound few)
  · intro unraced
    have counted := Register.run_counted follows (c := quiet table) rfl rfl (System.along_free _ _ choices) unraced
    rw [gi_eq_cellI64, gi_eq_cellI64, ← cellI64_iterate]
    exact congrArg cellI64 counted

/-- Each event of a session that is neither created nor deleted meanwhile gets an ordinal of its own exactly if nobody
    appends between a call's read of the session and its write; and then all of them are counted, and the state has all
    their deltas, in the order of the ordinals. -/
theorem session_ordinals_once (app user session : String)
    (kept : (counters doubles serde).Along (System.Permits (fun call => call.resets (rkSession app user session) = false)
      fun _ _ _ _ => True) (quiet table) choices)
    (few : ((eventCounts doubles serde app user session).written (counterRun doubles serde table choices).log).length ≤ 2 ^ 64) :
    (((eventCounts doubles serde app user session).written (counterRun doubles serde table choices).log).Nodup ↔
      (eventCounts doubles serde app user session).Unraced (counterRun doubles serde table choices).log) ∧
    ((eventCounts doubles serde app user session).Unraced (counterRun doubles serde table choices).log →
      gi ((counterRun doubles serde table choices).state.cells (rkSession app user session)) "event_count" =
        Int.bmod (gi (table.cells (rkSession app user session)) "event_count" +
          ((eventCounts doubles serde app user session).written (counterRun doubles serde table choices).log).length) (2 ^ 64) ∧
      ((counterRun doubles serde table choices).state.cells (rkSession app user session)).get? "state" =
        ((column requestFailed (body doubles serde) (rkSession app user session) "state").writers
          (counterRun doubles serde table choices).callOf (counterRun doubles serde table choices).log).foldr
            (mergeState serde) ((table.cells (rkSession app user session)).get? "state")) := by
  have follows : ∀ (tid : Nat) (call : Call F), call.resets (rkSession app user session) = false →
      ((eventCounts doubles serde app user session).protocol (increased 1) tid).Follows (fun _ _ => True) none
        (body doubles serde call) := fun tid call isKept => follows_count call isKept
  constructor
  · exact Register.run_nodup_iff follows rfl rfl kept fun i j less bound => iterate_ne less (Nat.lt_of_lt_of_le bound few)
  · intro unraced
    have counted := Register.run_counted follows (c := quiet table) rfl rfl kept unraced
    constructor
    · rw [gi_eq_cellI64, gi_eq_cellI64, ← cellI64_iterate]
      exact congrArg cellI64 counted
    · exact Register.run_folded (fun tid call isKept => follows_state call isKept) (c := quiet table) rfl rfl kept
        (unraced_together together_sessions unraced)

theorem cellI64_spendTokens (call : Call F) (text : Option String) :
    cellI64 (spendTokens call text) = Int.bmod (cellI64 text + call.tokens) (2 ^ 64) := by
  cases call with
  | chargeBudget => exact cellI64_increased _ _
  | setBudget | getBudget | getValue | writeValue | deleteValue | createSession | deleteSession | appendEvent =>
    have nothing : cellI64 text + 0 = cellI64 text := Int.add_zero _
    simp only [spendTokens, Call.tokens, id_eq]
    rw [nothing, bmod_cellI64]

theorem cellI64_foldr_spendTokens (calls : List (Call F)) (text : Option String) :
    cellI64 (calls.foldr spendTokens text) = Int.bmod (cellI64 text + (calls.map Call.tokens).sum) (2 ^ 64) := by
  induction calls with
  | nil =>
    have nothing : cellI64 text + 0 = cellI64 text := Int.add_zero _
    rw [List.foldr_nil, List.map_nil, List.sum_nil, nothing, bmod_cellI64]
  | cons call calls inductionHypothesis =>
    rw [List.foldr_cons, cellI64_spendTokens, inductionHypothesis, Int.bmod_add_bmod, List.map_cons, List.sum_cons]
    congr 1
    omega

/-- No charge of a budget is lost while nobody charges between another's read and its write: the tokens add up, and the
    dollars are what the charges make of them, in the order of their writes. -/
theorem charges_add_up (runId : String)
    (unraced : (tokensSpent doubles serde runId).Unraced (counterRun doubles serde table choices).log) :
    gi ((counterRun doubles serde table choices).state.cells (rkBudget runId)) "tok_spent" =
      Int.bmod (gi (table.cells (rkBudget runId)) "tok_spent" +
        (((tokensSpent doubles serde runId).writers (counterRun doubles serde table choices).callOf
          (counterRun doubles serde table choices).log).map Call.tokens).sum) (2 ^ 64) ∧
    ((counterRun doubles serde table choices).state.cells (rkBudget runId)).get? "usd_spent" =
      ((column requestFailed (body doubles serde) (rkBudget runId) "usd_spent").writers
        (counterRun doubles serde table choices).callOf (counterRun doubles serde table choices).log).foldr
          (spendUsd doubles) ((table.cells (rkBudget runId)).get? "usd_spent") := by
  constructor
  · have folded := Register.run_folded (fun tid call _ => follows_tokens call (not_deletes_rkBudget runId call))
      (c := quiet table) rfl rfl (System.along_free _ _ choices) unraced
    rw [gi_eq_cellI64, gi_eq_cellI64, ← cellI64_foldr_spendTokens]
    exact congrArg cellI64 folded
  · exact Register.run_folded (fun tid call _ => follows_usd call (not_deletes_rkBudget runId call))
      (c := quiet table) rfl rfl (System.along_free _ _ choices)
      (unraced_together together_amounts unraced)

end Runs

/-! ## One after the other, and at once -/

/-- Whole dollars. -/
def wholeDollars : Doubles Int where
  zero := 0
  add := (· + ·)
  toText := toString
  parse := parseI64

abbrev dollarRun (choices : List (Choice (Call Int))) : CounterConfig Int :=
  counterRun wholeDollars Sessions.limitAndOwner .empty choices

/-- Each call executes so many of its requests, in turn. -/
def takeTurns (first second : Call Int) (steps : Nat) (rounds : Nat) : List (Choice (Call Int)) :=
  .spawn first :: .spawn second ::
    (List.replicate rounds (List.replicate steps (.exec 0) ++ List.replicate steps (.exec 1))).flatten

def modelCall (tokens : Int) : Call Int := .chargeBudget "r" 1 tokens

theorem charges_in_turn : gi ((dollarRun (takeTurns (modelCall 300) (modelCall 200) 3 1)).state.cells "b#r") "tok_spent" =
    500 := by
  have total := (charges_add_up wholeDollars Sessions.limitAndOwner .empty (takeTurns (modelCall 300) (modelCall 200) 3 1) "r"
    (by decide +kernel)).1
  exact total.trans (by decide +kernel)

/-- The first charge is lost to the second, which had read the budget before it. -/
example : gi ((dollarRun (takeTurns (modelCall 300) (modelCall 200) 1 3)).state.cells "b#r") "tok_spent" = 200 := by
  decide +kernel

/-- Both writers expect that there is no value yet. -/
def firstWrite (writer : String) : Call Int := .writeValue "ns" "k" "1" 0 writer 5

/-- Both succeed, with the same version. -/
theorem writers_at_once : ¬ (versions wholeDollars Sessions.limitAndOwner "ns" "k").Unraced
    (dollarRun (takeTurns (firstWrite "alice") (firstWrite "bob") 1 6)).log := by
  have once := (value_versions_once wholeDollars Sessions.limitAndOwner .empty
    (takeTurns (firstWrite "alice") (firstWrite "bob") 1 6) "ns" "k" (by decide +kernel)).1
  rw [← once]
  decide +kernel

def turn (author : String) (stateDelta : Sessions.Flat) : Call Int :=
  .appendEvent "app" "user" "chat"
    { id := author, invocationId := "i", author, branch := "", contentJson := "", actionsJson := "", timestampMs := 5 }
    stateDelta.text 5

def turns : List (Choice (Call Int)) :=
  takeTurns (turn "alice" (.members [("limit", "10")])) (turn "bob" (.members [("owner", "7")])) 6 1

theorem turns_in_turn : ((eventCounts wholeDollars Sessions.limitAndOwner "app" "user" "chat").written
    (dollarRun turns).log).Nodup := by
  have once := (session_ordinals_once wholeDollars Sessions.limitAndOwner .empty turns "app" "user" "chat" (by decide +kernel)
    (by decide +kernel)).1
  exact once.mpr (by decide +kernel)

end Tape.BigtableRunStore.Counters
