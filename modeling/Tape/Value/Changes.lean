import Tape.System

/-! # Value changes in the journal

`write_value` and `delete_value` bump the version of a value and then append a journal
entry of kind `value`, so that reactions and watchers see the change.  A value belongs
to no run: the entry goes under the empty run id and sequence number 0.  That pair is
the primary key of the journal, so there is room for one such entry, and the error of
every later append is swallowed.
-/

namespace Tape.Value

open Sql

/-- A call that changes a value. -/
inductive ValueCall where
  | write («namespace» key valueJson : String) (ifVersion : Int) (writer : String) (ts : Int)
  | delete («namespace» key : String) (ts : Int)

namespace ValueCall

def call : ValueCall → Call
  | write «namespace» key valueJson ifVersion writer ts =>
    .writeValue «namespace» key valueJson ifVersion writer ts
  | delete «namespace» key ts => .deleteValue «namespace» key ts

def pk : ValueCall → String × String
  | write «namespace» key .. | delete «namespace» key _ => («namespace», key)

end ValueCall

/-- The database after the call, with nobody else running and no statement failing of itself. -/
def serve (w : World) (call : ValueCall) : World := (tape.alone call.call.body w).2

def serveAll (w : World) (calls : List ValueCall) : World := calls.foldl serve w

/-- The version of a value; zero while there is none. -/
def versionOf (w : World) (pk : String × String) : Int := ((w.values.find? pk).map ValueRecord.version).getD 0

/-- By how much the call moves the version of its value. -/
def increment (w : World) (call : ValueCall) : Int := versionOf (serve w call) call.pk - versionOf w call.pk

/-- The version increments of a sequence of calls. -/
def increments : World → List ValueCall → Int
  | _, [] => 0
  | w, call :: calls => increment w call + increments (serve w call) calls

def valueEntries (w : World) : Nat := w.journal.rows.countP fun row => row.kind = "value"

/-- A value entry for this namespace, key and version. -/
def Carries (pk : String × String) (version : Int) (entry : EventEntry) : Prop :=
  entry.kind = "value" ∧ entry.payload.strAt "namespace" = pk.1 ∧ entry.payload.strAt "key" = pk.2 ∧
    entry.payload.intAt "version" = version

/-- The journal has one more entry than before, a value entry with the value's new version. -/
def Journaled (w : World) (call : ValueCall) : Prop :=
  ∃ entry, (serve w call).journal.rows = w.journal.rows ++ [entry] ∧
    Carries call.pk (versionOf (serve w call) call.pk) entry

/-- The counter has handed out every number in the journal. -/
def Counted (w : World) : Prop := ∀ row ∈ w.journal.rows, row.globalSeq ≤ w.globalSeq

/-- An entry holds the key under which value entries are appended. -/
def Taken (w : World) : Prop := ∃ row ∈ w.journal.rows, row.pk = ("", 0)

/-! ## One call -/

/-- The entry `journal_full` builds for a value. -/
def valueEntry (w : World) (subject : String) (payload : Json) (ts : Int) : EventEntry where
  runId := ""
  seq := 0
  kind := "value"
  payload := payload
  tsMs := ts
  globalSeq := w.globalSeq + 1
  subject := subject
  schemaVersion := 1
  traceId := ""
  spanId := ""
  parentSpanId := ""

/-- The database after a number was drawn and `entry` was appended, or refused. -/
def append (w : World) (entry : EventEntry) : World :=
  { w with
    journal := (insertRow "tape_journal" w.journal (fun old => old.globalSeq = entry.globalSeq) entry).2
    globalSeq := w.globalSeq + 1 }

theorem alone_journalValue (w : World) (subject : String) (payload : Json) (ts : Int) :
    tape.alone (orElse (RunStore.journalFull "" 0 "value" subject payload ts) ()).run w =
      (.ok (), append w (valueEntry w subject payload ts)) := by
  rw [alone_orElse]
  have appended : tape.alone (RunStore.journalFull "" 0 "value" subject payload ts).run w =
      ((insertRow "tape_journal" w.journal (fun old => old.globalSeq = w.globalSeq + 1)
        (valueEntry w subject payload ts)).1, append w (valueEntry w subject payload ts)) := rfl
  rw [appended]

section Calls

variable {«namespace» key valueJson writer : String} {ts : Int}

variable (valueJson writer ts) in
/-- The upsert leaves a value one version further. -/
theorem find?_upsertValue (w : World) :
    ∃ record, ((ValueStmt.upsertValue «namespace» key valueJson ts writer).exec w).2.find? («namespace», key) =
      some record ∧ record.version = versionOf w («namespace», key) + 1 := by
  simp only [ValueStmt.exec, Table.find?_upsert, if_pos]
  refine ⟨_, rfl, ?_⟩
  cases found : w.values.find? («namespace», key) <;> simp [versionOf, found]

variable (valueJson writer ts) in
theorem alone_putValue (w : World) :
    ∃ values record subject, tape.alone (RunStore.putValue «namespace» key valueJson writer ts).run w =
        (.ok record, append { w with values := values } (valueEntry w subject
          (RunStore.valuePayload «namespace» key valueJson writer record.version) ts)) ∧
      values.find? («namespace», key) = some record ∧
      record.version = versionOf w («namespace», key) + 1 := by
  obtain ⟨record, found, version⟩ := find?_upsertValue valueJson writer ts w
  refine ⟨_, record, Subjects.derive "value" (.obj [("namespace", .str «namespace»), ("key", .str key)]), ?_,
    found, version⟩
  refine (alone_query (s := .value (.upsertValue «namespace» key valueJson ts writer)) rfl).trans ?_
  refine (alone_query (s := .value (.getValue «namespace» key)) (congrArg Except.ok found)).trans ?_
  exact alone_seq (alone_journalValue _ _ _ _)

theorem carries_valuePayload (w : World) (subject : String) (version : Int) :
    Carries («namespace», key) version (valueEntry w subject
      (RunStore.valuePayload «namespace» key valueJson writer version) ts) := by
  simp [Carries, valueEntry, RunStore.valuePayload, Json.strAt, Json.intAt, Json.get?]

theorem carries_deletedPayload (w : World) (subject : String) (version : Int) :
    Carries («namespace», key) version
      (valueEntry w subject (RunStore.deletedPayload «namespace» key version) ts) := by
  simp [Carries, valueEntry, RunStore.deletedPayload, Json.strAt, Json.intAt, Json.get?]

/-- What a call does: nothing, or it bumps the version by one and appends an entry that says so. -/
def Bumps (w : World) (pk : String × String) (w' : World) : Prop :=
  ∃ values entry, w' = append { w with values := values } entry ∧ entry.pk = ("", 0) ∧
    entry.globalSeq = w.globalSeq + 1 ∧ versionOf { w with values := values } pk = versionOf w pk + 1 ∧
    Carries pk (versionOf w pk + 1) entry

theorem bumps_putValue (w : World) :
    Bumps w («namespace», key) (tape.alone (RunStore.putValue «namespace» key valueJson writer ts).run w).2 := by
  obtain ⟨values, record, subject, put, found, version⟩ :=
    alone_putValue valueJson writer ts w
  refine ⟨values, _, by rw [put], rfl, rfl, ?_, ?_⟩
  · simp [versionOf, found] at version ⊢
    exact version
  · rw [← version]
    exact carries_valuePayload w subject record.version

variable (ts) in
theorem alone_deleteValue {w : World} {record : ValueRecord}
    (found : w.values.find? («namespace», key) = some record) :
    ∃ values subject, tape.alone (RunStore.deleteValue «namespace» key ts).run w =
        (.ok (true, record.version + 1), append { w with values := values } (valueEntry w subject
          (RunStore.deletedPayload «namespace» key (record.version + 1)) ts)) ∧
      versionOf { w with values := values } («namespace», key) = record.version + 1 := by
  have dead : ((ValueStmt.tombstone «namespace» key ts).exec w).2.find? («namespace», key) = some
      { record with valueJson := "", version := record.version + 1, tsMs := ts, deleted := true } := by
    have same := Table.key_of_find? found
    simp only [ValueStmt.exec, Table.find?_update, found, Option.map_some, same, decide_true, if_pos]
  refine ⟨((ValueStmt.tombstone «namespace» key ts).exec w).2, Subjects.derive "value"
    (.obj [("namespace", .str «namespace»), ("key", .str key), ("deleted", .bool true)]), ?_, ?_⟩
  · refine (alone_query (s := .value (.getValue «namespace» key)) (congrArg Except.ok found)).trans ?_
    refine (alone_query (s := .value (.tombstone «namespace» key ts)) rfl).trans ?_
    refine (alone_query (s := .value (.getValue «namespace» key)) (congrArg Except.ok dead)).trans ?_
    exact alone_seq (alone_journalValue _ _ _ _)
  · simp only [versionOf, dead, Option.map_some, Option.getD_some]

theorem bumps_deleteValue {w : World} {record : ValueRecord}
    (found : w.values.find? («namespace», key) = some record) :
    Bumps w («namespace», key) (tape.alone (RunStore.deleteValue «namespace» key ts).run w).2 := by
  obtain ⟨values, subject, deleted, version⟩ := alone_deleteValue ts found
  have before : versionOf w («namespace», key) = record.version := by simp [versionOf, found]
  refine ⟨values, _, by rw [deleted], rfl, rfl, by rw [version, before], ?_⟩
  rw [before]
  exact carries_deletedPayload w subject (record.version + 1)

end Calls

theorem serve_cases (w : World) (call : ValueCall) : serve w call = w ∨ Bumps w call.pk (serve w call) := by
  cases call with
  | write «namespace» key valueJson ifVersion writer ts =>
    have serves : serve w (.write «namespace» key valueJson ifVersion writer ts) =
      (tape.alone (RunStore.writeValue «namespace» key valueJson ifVersion writer ts).run w).2 := rfl
    rw [serves, RunStore.writeValue]
    split
    next =>
      have read : tape.alone (RunStore.getValue «namespace» key).run w =
        (.ok (w.values.find? («namespace», key)), w) := rfl
      rw [alone_seq read]
      simp only
      split
      next => exact .inl rfl
      next => exact .inr (bumps_putValue w)
    next => exact .inr (bumps_putValue w)
  | delete «namespace» key ts =>
    cases found : w.values.find? («namespace», key) with
    | none =>
      refine .inl ?_
      have nothing : tape.alone (RunStore.deleteValue «namespace» key ts).run w = (.ok (false, 0), w) :=
        alone_query (s := .value (.getValue «namespace» key)) (congrArg Except.ok found)
      exact congrArg Prod.snd nothing
    | some record => exact .inr (bumps_deleteValue found)

/-! ## The journal -/

section Journal

variable {w w' : World} {pk : String × String}

theorem rows_append_of_free {entry : EventEntry} (counted : Counted w) (number : entry.globalSeq = w.globalSeq + 1)
    (free : ∀ row ∈ w.journal.rows, row.pk ≠ entry.pk) :
    (append w entry).journal.rows = w.journal.rows ++ [entry] := by
  have fresh : entry.pk ∉ w.journal.rows.map EventEntry.pk := by
    simpa only [List.mem_map, not_exists, not_and] using free
  have clear : ¬(w.journal.rows.any fun old => old.globalSeq = entry.globalSeq) := by
    simp only [List.any_eq_true, decide_eq_true_eq, not_exists, not_and]
    intro row member same
    have bound := counted row member
    omega
  simp only [append, insertRow, Table.insert, dif_pos fresh, if_neg clear]

theorem rows_append_of_taken {entry : EventEntry} (taken : ∃ row ∈ w.journal.rows, row.pk = entry.pk) :
    (append w entry).journal.rows = w.journal.rows := by
  have present : ¬(entry.pk ∉ w.journal.rows.map EventEntry.pk) := by
    simpa only [not_not, List.mem_map] using taken
  simp only [append, insertRow, Table.insert, dif_neg present]

/-- A bump appends its entry exactly if the key of value entries is free. -/
theorem Bumps.rows_iff (counted : Counted w) (bumps : Bumps w pk w') :
    (∃ entry, w'.journal.rows = w.journal.rows ++ [entry] ∧ Carries pk (versionOf w' pk) entry) ↔ ¬Taken w := by
  obtain ⟨values, entry, rfl, key, number, version, carries⟩ := bumps
  constructor
  · rintro ⟨other, grown, -⟩ taken
    rw [rows_append_of_taken (by rw [key]; exact taken)] at grown
    simp at grown
  · intro free
    refine ⟨entry, rows_append_of_free counted number ?_, ?_⟩
    · intro row member same
      exact free ⟨row, member, same.trans key⟩
    · rw [← version] at carries
      exact carries

theorem rows_append_cases (w : World) (entry : EventEntry) :
    (append w entry).journal.rows = w.journal.rows ∨ (append w entry).journal.rows = w.journal.rows ++ [entry] := by
  simp only [append, insertRow]
  split
  next inserted accepted => exact .inr (Table.rows_insert accepted)
  next => exact .inl rfl

theorem Counted.serve (counted : Counted w) (call : ValueCall) : Counted (serve w call) := by
  rcases serve_cases w call with same | ⟨values, entry, same, -, number, -⟩
  · rw [same]
    exact counted
  · rw [same]
    intro row member
    have bound : row.globalSeq ≤ w.globalSeq ∨ row = entry := by
      rcases rows_append_cases { w with values := values } entry with rows | rows
      · rw [rows] at member
        exact .inl (counted row member)
      · rw [rows, List.mem_append, List.mem_singleton] at member
        exact member.imp_left (counted row)
    have counter : (append { w with values := values } entry).globalSeq = w.globalSeq + 1 := rfl
    rcases bound with bound | rfl
    · omega
    · omega

theorem Bumps.versionOf (bumps : Bumps w pk w') : Value.versionOf w' pk = Value.versionOf w pk + 1 := by
  obtain ⟨values, entry, rfl, -, -, version, -⟩ := bumps
  exact version

theorem increment_cases (w : World) (call : ValueCall) :
    (increment w call = 0 ∧ Value.serve w call = w) ∨ (increment w call = 1 ∧ Bumps w call.pk (Value.serve w call)) := by
  rcases serve_cases w call with same | bumps
  · exact .inl ⟨by rw [increment, same]; omega, same⟩
  · refine .inr ⟨?_, bumps⟩
    rw [increment, bumps.versionOf]
    omega

theorem increments_nonneg (w : World) (calls : List ValueCall) : 0 ≤ increments w calls := by
  induction calls generalizing w with
  | nil => exact le_refl 0
  | cons call calls inductionHypothesis =>
    have rest := inductionHypothesis (Value.serve w call)
    rcases increment_cases w call with ⟨none, -⟩ | ⟨one, -⟩ <;> simp only [increments] <;> omega

/-- A database that has a value entry gets no second one. -/
theorem valueEntries_of_taken (taken : Taken w) (calls : List ValueCall) :
    valueEntries (serveAll w calls) = valueEntries w := by
  induction calls generalizing w with
  | nil => rfl
  | cons call calls inductionHypothesis =>
    have kept : (Value.serve w call).journal.rows = w.journal.rows := by
      rcases serve_cases w call with same | ⟨values, entry, same, key, -⟩
      · rw [same]
      · rw [same]
        exact rows_append_of_taken (by rw [key]; exact taken)
    have still : Taken (Value.serve w call) := by
      rw [Taken, kept]
      exact taken
    have rest : valueEntries (serveAll w (call :: calls)) = valueEntries (Value.serve w call) := inductionHypothesis still
    rw [rest, valueEntries, kept, valueEntries]

/-- The first bump takes the key of value entries. -/
theorem Bumps.first (bumps : Bumps w pk w') (counted : Counted w) (free : ¬Taken w) :
    valueEntries w' = valueEntries w + 1 ∧ Taken w' := by
  obtain ⟨values, entry, rfl, key, number, -, carries⟩ := bumps
  have rows := rows_append_of_free (w := { w with values := values }) counted number fun row member same =>
    free ⟨row, member, same.trans key⟩
  refine ⟨?_, entry, ?_, key⟩
  · rw [valueEntries, rows, List.countP_append, valueEntries]
    simp [carries.1]
  · rw [rows]
    exact List.mem_append_right _ (List.mem_singleton_self entry)

theorem valueEntries_serveAll (counted : Counted w) (free : ¬Taken w) (calls : List ValueCall) :
    (valueEntries (serveAll w calls) : Int) = valueEntries w + min 1 (increments w calls) := by
  induction calls generalizing w with
  | nil => simp [serveAll, increments]
  | cons call calls inductionHypothesis =>
    have unfolded : serveAll w (call :: calls) = serveAll (Value.serve w call) calls := rfl
    rw [unfolded, increments]
    rcases increment_cases w call with ⟨none, same⟩ | ⟨one, bumps⟩
    · rw [same, inductionHypothesis counted free, none, Int.zero_add]
    · -- from the first bump on nothing is appended
      obtain ⟨appended, taken⟩ := bumps.first counted free
      have rest := increments_nonneg (Value.serve w call) calls
      rw [valueEntries_of_taken taken, appended, one]
      push_cast
      omega

theorem Counted.serveAll (counted : Counted w) (calls : List ValueCall) : Counted (serveAll w calls) := by
  induction calls generalizing w with
  | nil => exact counted
  | cons call calls inductionHypothesis => exact inductionHypothesis (counted.serve call)

end Journal

/-- **Value changes reach the journal once.**  After every sequence of calls, from any database
    whose counter is past its journal: a call that bumps a version appends its value entry exactly
    if no entry is there under the empty run id and number 0; and from a database without such an
    entry, there are as many new value entries as version increments exactly if there is at most
    one increment. -/
theorem value_change_journaled_iff (w : World) (calls : List ValueCall) (counted : Counted w) :
    (∀ call, increment (serveAll w calls) call ≠ 0 →
      (Journaled (serveAll w calls) call ↔ ¬Taken (serveAll w calls))) ∧
    (¬Taken w → ((valueEntries (serveAll w calls) : Int) = valueEntries w + increments w calls ↔
      increments w calls ≤ 1)) := by
  constructor
  · intro call bumped
    rcases increment_cases (serveAll w calls) call with ⟨none, -⟩ | ⟨-, bumps⟩
    · exact absurd none bumped
    · exact bumps.rows_iff (counted.serveAll calls)
  · intro free
    rw [valueEntries_serveAll counted free calls]
    omega

/-! ## Two settings -/

/-- Two exchange rates, written one after the other. -/
def rateWrites : List ValueCall :=
  [.write "fx" "eur" "1.1" (-1) "feed" 10, .write "fx" "usd" "1.0" (-1) "feed" 20]

/-- The first write of a fresh database is journaled. -/
theorem first_rate_journaled :
    increment (World.empty .sqlite) (.write "fx" "eur" "1.1" (-1) "feed" 10) = 1 ∧
      Journaled (World.empty .sqlite) (.write "fx" "eur" "1.1" (-1) "feed" 10) := by
  have bumped : increment (World.empty .sqlite) (.write "fx" "eur" "1.1" (-1) "feed" 10) = 1 := by decide +kernel
  refine ⟨bumped, ?_⟩
  refine ((value_change_journaled_iff (World.empty .sqlite) [] ?_).1 _ ?_).mpr ?_
  · simp [Counted, World.empty, Table.empty]
  · intro none
    have zero : increment (World.empty .sqlite) (.write "fx" "eur" "1.1" (-1) "feed" 10) = 0 := none
    omega
  · simp [Taken, serveAll, World.empty, Table.empty]

/-- Two values are written, and the journal hears of one. -/
theorem second_rate_lost :
    increments (World.empty .sqlite) rateWrites = 2 ∧
      valueEntries (serveAll (World.empty .sqlite) rateWrites) = 1 := by
  decide +kernel

end Tape.Value
