import Mathlib.Data.List.Sort
import Tape.Sql.Table
import Tape.Subjects

/-! # The database

The tables of `migrations/0001_init` and `0002_event_bus` that the modelled
operations touch, the journal's sequence counter, and each server process's
in-memory scope cache.  Keys and unique indexes are those of the migrations; the
defaults of the columns are filled in by the statements that insert rows.
-/

namespace Tape

open Sql

abbrev RunRow.pk (row : RunRow) : String := row.runId

/-- `PRIMARY KEY (run_id, idempotency_key)`. -/
abbrev EffectRecord.pk (row : EffectRecord) : String × String := (row.runId, row.idempotencyKey)

/-- `PRIMARY KEY (run_id, decision_index)`. -/
abbrev DecisionRecord.pk (row : DecisionRecord) : String × Int := (row.runId, row.decisionIndex)

/-- `PRIMARY KEY (run_id, seq)`. -/
abbrev ObligationRecord.pk (row : ObligationRecord) : String × Int := (row.runId, row.seq)

abbrev SignalRow.pk (row : SignalRow) : String × String := (row.runId, row.gateName)

abbrev TimerRecord.pk (row : TimerRecord) : String × String := (row.runId, row.timerId)

/-- `PRIMARY KEY (run_id, seq)`. -/
abbrev EventEntry.pk (row : EventEntry) : String × Int := (row.runId, row.seq)

abbrev ValueRecord.pk (row : ValueRecord) : String × String := (row.namespace, row.key)

abbrev Reaction.pk (row : Reaction) : String := row.reactionId

abbrev ReactionCursor.pk (row : ReactionCursor) : String × Int := (row.reactionId, row.shard)

abbrev Task.pk (row : Task) : String := row.taskId

/-- `UNIQUE (reaction_id, shard, source_global_seq)`. -/
abbrev Task.slot (row : Task) : String × Int × Int := (row.reactionId, row.shard, row.sourceGlobalSeq)

structure World where
  dialect : Subjects.Dialect
  runs : Table RunRow.pk
  effects : Table EffectRecord.pk
  decisions : Table DecisionRecord.pk
  obligations : Table ObligationRecord.pk
  signals : Table SignalRow.pk
  timers : Table TimerRecord.pk
  journal : Table EventEntry.pk
  values : Table ValueRecord.pk
  reactions : Table Reaction.pk
  reactionCursors : Table ReactionCursor.pk
  tasks : UniqueTable Task.pk Task.slot
  /-- `tape_global_seq.v`. -/
  globalSeq : Int
  /-- `SqlRunStore::scope_cache`, one per server process. -/
  scopeCache : Nat → List (String × List String)

/-- A freshly migrated database. -/
def World.empty (dialect : Subjects.Dialect := .sqlite) : World where
  dialect := dialect
  runs := .empty
  effects := .empty
  decisions := .empty
  obligations := .empty
  signals := .empty
  timers := .empty
  journal := .empty
  values := .empty
  reactions := .empty
  reactionCursors := .empty
  tasks := .empty
  globalSeq := 0
  scopeCache := fun _ => []

/-- The error a violated key or unique index comes back as. -/
def constraintFailed (table : String) : StoreError := .msg ("UNIQUE constraint failed: " ++ table)

/-- `LIMIT n`; a negative limit is no limit. -/
def limitRows {ρ : Type} (n : Int) (rows : List ρ) : List ρ :=
  if n < 0 then rows else rows.take n.toNat

theorem mem_of_mem_limitRows {ρ : Type} {n : Int} {rows : List ρ} {row : ρ}
    (member : row ∈ limitRows n rows) : row ∈ rows := by
  unfold limitRows at member
  split at member
  · exact member
  · exact List.mem_of_mem_take member

/-- `ORDER BY key ASC`. -/
def orderBy {ρ : Type} (key : ρ → Int) (rows : List ρ) : List ρ :=
  rows.insertionSort fun a b => key a ≤ key b

theorem mem_of_mem_orderBy {ρ : Type} {key : ρ → Int} {rows : List ρ} {row : ρ} (member : row ∈ orderBy key rows) :
    row ∈ rows :=
  (List.mem_insertionSort _).mp member

/-- `ORDER BY first ASC, second ASC`. -/
def orderBy₂ {ρ : Type} (first second : ρ → Int) (rows : List ρ) : List ρ :=
  rows.insertionSort fun a b => first a < first b ∨ (first a = first b ∧ second a ≤ second b)

theorem mem_of_mem_orderBy₂ {ρ : Type} {first second : ρ → Int} {rows : List ρ} {row : ρ}
    (member : row ∈ orderBy₂ first second rows) : row ∈ rows :=
  (List.mem_insertionSort _).mp member

/-- `ORDER BY key LIMIT n` leaves out nothing that comes before a row it returns, when the key is
    unique. -/
theorem mem_limitRows_orderBy {ρ : Type} {n : Int} {key : ρ → Int} {rows : List ρ}
    (unique : ∀ a ∈ rows, ∀ b ∈ rows, key a = key b → a = b) {last row : ρ}
    (returned : last ∈ limitRows n (orderBy key rows)) (member : row ∈ rows) (before : key row ≤ key last) :
    row ∈ limitRows n (orderBy key rows) := by
  have sorted : (orderBy key rows).Pairwise fun a b => key a ≤ key b := by
    apply List.pairwise_insertionSort
  have listed : row ∈ orderBy key rows := (List.mem_insertionSort _).mpr member
  have lastMember : last ∈ rows := mem_of_mem_orderBy (mem_of_mem_limitRows returned)
  unfold limitRows at returned ⊢
  split at returned
  next unlimited => rw [if_pos unlimited]; exact listed
  next limited =>
    rw [if_neg limited]
    rw [← List.take_append_drop n.toNat (orderBy key rows)] at listed sorted
    rcases List.mem_append.mp listed with kept | dropped
    · exact kept
    · -- the row was cut off, so it is not before the last one: it is the last one
      have after := (List.pairwise_append.mp sorted).2.2 last returned row dropped
      rw [unique row member last lastMember (le_antisymm before after)]
      exact returned

/-- `insert`, as a statement's answer and the table it leaves. -/
def insertRow {κ ρ : Type} [DecidableEq κ] {key : ρ → κ} (name : String) (t : Table key)
    (clash : ρ → Bool) (row : ρ) : Except StoreError Unit × Table key :=
  match t.insert clash row with
  | some inserted => (.ok (), inserted)
  | none => (.error (constraintFailed name), t)

/-- A row that was there survives an insert. -/
theorem find?_insertRow_of_some {κ ρ : Type} [DecidableEq κ] {key : ρ → κ} {name : String}
    {t : Table key} {clash : ρ → Bool} {row old : ρ} {k : κ} (found : t.find? k = some old) :
    (insertRow name t clash row).2.find? k = some old := by
  unfold insertRow
  split
  next inserted accepted =>
    have absent := Table.find?_none_of_insert accepted
    rw [Table.find?_insert accepted, if_neg, found]
    rintro rfl
    simp [found] at absent
  next => exact found

/-- What an insert can leave under a key that was free. -/
theorem find?_insertRow_of_none {κ ρ : Type} [DecidableEq κ] {key : ρ → κ} {name : String}
    {t : Table key} {clash : ρ → Bool} {row new : ρ} {k : κ} (absent : t.find? k = none)
    (found : (insertRow name t clash row).2.find? k = some new) : key row = k ∧ new = row := by
  unfold insertRow at found
  split at found
  next inserted accepted =>
    rw [Table.find?_insert accepted, absent] at found
    split at found
    next same => exact ⟨same, (Option.some.inj found).symm⟩
    next => cases found
  next => simp [absent] at found

/-- A row that appears under a free key comes from an insert that was accepted. -/
theorem insertRow_accepted {κ ρ : Type} [DecidableEq κ] {key : ρ → κ} {name : String} {t : Table key}
    {clash : ρ → Bool} {row new : ρ} {k : κ} (absent : t.find? k = none)
    (found : (insertRow name t clash row).2.find? k = some new) : (insertRow name t clash row).1 = .ok () := by
  unfold insertRow at found ⊢
  split at found
  next => simp
  next => simp [absent] at found

/-- An insert that was accepted left its row. -/
theorem find?_insertRow_of_ok {κ ρ : Type} [DecidableEq κ] {key : ρ → κ} {name : String} {t : Table key}
    {clash : ρ → Bool} {row : ρ} {value : Unit} (accepted : (insertRow name t clash row).1 = .ok value) :
    t.find? (key row) = none ∧ (insertRow name t clash row).2.find? (key row) = some row := by
  cases inserted : t.insert clash row with
  | none => simp [insertRow, inserted] at accepted
  | some t' =>
    refine ⟨Table.find?_none_of_insert inserted, ?_⟩
    simp [insertRow, inserted, Table.find?_insert inserted]

end Tape
