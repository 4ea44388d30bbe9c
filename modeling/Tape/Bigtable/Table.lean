import Mathlib.Data.List.Sort
import Mathlib.Data.String.Basic
import Tape.Sql.Table

/-! # Rows of cells

A Bigtable keeps rows by key, and of each row the newest value of every column.  One row is read or mutated
atomically, also under a condition on what it holds; a scan reads rows in the order of their keys.  There
is no operation on two rows.

Values are text.  Counters, which a table keeps as eight bytes, are kept apart.
-/

namespace Tape.Bigtable

open Sql

/-! ## Cells -/

/-- The cells of a row, by column qualifier. -/
abbrev RowMap : Type := List (String × String)

namespace RowMap

def get? (m : RowMap) (qualifier : String) : Option String := (m.find? fun cell => cell.1 = qualifier).map Prod.snd

def set (m : RowMap) (qualifier value : String) : RowMap :=
  (qualifier, value) :: m.filter fun cell => cell.1 ≠ qualifier

@[simp] theorem get?_set (m : RowMap) (qualifier value other : String) :
    (m.set qualifier value).get? other = if qualifier = other then some value else m.get? other := by
  by_cases same : qualifier = other
  · simp [set, get?, same]
  · have kept : (fun cell : String × String => !decide (cell.1 = qualifier) && decide (cell.1 = other)) =
        fun cell => decide (cell.1 = other) := by
      funext ⟨name, value⟩
      by_cases own : name = other
      · simp [own, Ne.symm same]
      · simp [own]
    simp [set, get?, same, List.find?_filter, kept]

end RowMap

inductive Mutation where
  | setCell (qualifier value : String)
  | deleteFromRow

namespace Mutation

def apply (m : RowMap) : Mutation → RowMap
  | setCell qualifier value => m.set qualifier value
  | deleteFromRow => []

/-- The mutation sets a cell, and of another column. -/
def spares (qualifier : String) : Mutation → Bool
  | setCell other _ => other ≠ qualifier
  | deleteFromRow => false

/-- The mutation sets a cell of the column. -/
def sets (qualifier : String) : Mutation → Bool
  | setCell other _ => other = qualifier
  | deleteFromRow => false

/-- The mutations of one request, in their order. -/
def applyAll (mutations : List Mutation) (m : RowMap) : RowMap := mutations.foldl apply m

@[simp] theorem applyAll_nil (m : RowMap) : applyAll [] m = m := rfl

@[simp] theorem applyAll_cons (mutation : Mutation) (mutations : List Mutation) (m : RowMap) :
    applyAll (mutation :: mutations) m = applyAll mutations (mutation.apply m) := rfl

theorem get?_applyAll_of_spares {qualifier : String} {mutations : List Mutation}
    (spared : mutations.all (spares qualifier)) (m : RowMap) :
    RowMap.get? (applyAll mutations m) qualifier = m.get? qualifier := by
  induction mutations generalizing m with
  | nil => rfl
  | cons mutation mutations inductionHypothesis =>
    obtain ⟨first, rest⟩ := Bool.and_eq_true_iff.mp spared
    rw [applyAll_cons, inductionHypothesis rest]
    cases mutation with
    | deleteFromRow => cases first
    | setCell other value =>
      have differs : other ≠ qualifier := of_decide_eq_true first
      simp [apply, differs]

/-- Mutations that spare a column leave cells behind, unless there were none and there is nothing to set. -/
theorem applyAll_ne_nil {qualifier : String} {mutations : List Mutation} (spared : mutations.all (spares qualifier))
    {m : RowMap} (some_ : m ≠ []) : applyAll mutations m ≠ [] := by
  induction mutations generalizing m with
  | nil => exact some_
  | cons mutation mutations inductionHypothesis =>
    obtain ⟨first, rest⟩ := Bool.and_eq_true_iff.mp spared
    refine inductionHypothesis rest ?_
    cases mutation with
    | deleteFromRow => cases first
    | setCell other value => exact List.cons_ne_nil _ _

theorem any_sets_of_spares {qualifier : String} {mutations : List Mutation} (spared : mutations.all (spares qualifier)) :
    mutations.any (sets qualifier) = false := by
  rw [List.any_eq_false]
  intro mutation member
  have spares := List.all_eq_true.mp spared mutation member
  cases mutation with
  | deleteFromRow => exact Bool.false_ne_true
  | setCell other value => simpa [Mutation.sets, Mutation.spares] using spares

end Mutation

/-! ## Filters -/

/-- What a `ValueRegexFilter` asks of a value. -/
inductive ValueFilter where
  /-- `.+`: `.` is any byte but a newline. -/
  | nonempty
  /-- A text without special characters. -/
  | exact (value : String)
  /-- Any other expression, as what it matches. -/
  | pattern (accepts : String → Bool)

def ValueFilter.accepts : ValueFilter → String → Bool
  | nonempty, value => value ≠ "" && !value.toList.contains '\n'
  | exact expected, value => value = expected
  | pattern accepts, value => accepts value

/-- A filter on the newest cell of one column. -/
structure RowFilter where
  qualifier : String
  value : ValueFilter

def RowFilter.accepts (filter : RowFilter) (m : RowMap) : Bool := (m.get? filter.qualifier).any filter.value.accepts

/-! ## Tables -/

/-- A row has a cell. -/
structure Row where
  key : String
  cells : RowMap
  nonempty : cells ≠ []

structure Contents where
  rows : Table Row.key
  /-- The cells that `ReadModifyWriteRow` increments. -/
  counters : String → Int

namespace Contents

def empty : Contents := ⟨.empty, fun _ => 0⟩

def read (c : Contents) (key : String) : Option RowMap := (c.rows.find? key).map Row.cells

/-- The cells of the row: none if there is no such row. -/
def cells (c : Contents) (key : String) : RowMap := (c.read key).getD []

def write (c : Contents) (key : String) (cells : RowMap) : Contents where
  counters := c.counters
  rows :=
    if nonempty : cells ≠ [] then c.rows.upsert ⟨key, cells, nonempty⟩ ⟨fun row => ⟨row.key, cells, nonempty⟩, fun _ => rfl⟩
    else c.rows.delete fun row => row.key = key

def mutate (c : Contents) (key : String) (mutations : List Mutation) : Contents :=
  c.write key (Mutation.applyAll mutations (c.cells key))

/-- The rows whose keys are selected, in the order of their keys, and `limit` at most: 0 is no limit. -/
def scan (c : Contents) (selects : String → Bool) (limit : Nat) : List (String × RowMap) :=
  let found := ((c.rows.rows.filter fun row => selects row.key).insertionSort fun a b => a.key ≤ b.key).map
    fun row => (row.key, row.cells)
  if limit = 0 then found else found.take limit

theorem read_write (c : Contents) (key : String) (cells : RowMap) (other : String) :
    (c.write key cells).read other =
      if key = other then (if cells = [] then none else some cells) else c.read other := by
  unfold read write
  split
  next nonempty =>
    rw [Table.find?_upsert]
    by_cases own : key = other
    · cases c.rows.find? other <;> simp [own]
    · simp [own]
  next isEmpty =>
    rw [Table.find?_delete]
    cases found : c.rows.find? other with
    | none => simp [not_not.mp isEmpty]
    | some row =>
      have same := Table.key_of_find? found
      by_cases own : key = other
      · simp [Option.filter_some, same, own, not_not.mp isEmpty]
      · simp [Option.filter_some, same, own, Ne.symm own]

theorem ne_nil_of_read {c : Contents} {key : String} {m : RowMap} (found : c.read key = some m) : m ≠ [] := by
  obtain ⟨row, -, rfl⟩ := Option.map_eq_some_iff.mp found
  exact row.nonempty

theorem cells_of_read {c : Contents} {key : String} {m : RowMap} (found : c.read key = some m) : c.cells key = m := by
  rw [cells, found]
  rfl

theorem read_mutate_ne (c : Contents) {key other : String} (mutations : List Mutation) (differs : key ≠ other) :
    (c.mutate key mutations).read other = c.read other := by
  rw [mutate, read_write, if_neg differs]

theorem read_mutate_self {c : Contents} {key : String} {mutations : List Mutation}
    (some_ : Mutation.applyAll mutations (c.cells key) ≠ []) :
    (c.mutate key mutations).read key = some (Mutation.applyAll mutations (c.cells key)) := by
  rw [mutate, read_write, if_pos rfl, if_neg some_]

/-- To mutate by nothing changes nothing that can be read. -/
theorem read_mutate_nil (c : Contents) (key other : String) : (c.mutate key []).read other = c.read other := by
  rw [mutate, read_write, Mutation.applyAll_nil]
  by_cases own : key = other
  · subst own
    rw [if_pos rfl]
    cases found : c.read key with
    | none => simp [cells, found]
    | some m => rw [cells_of_read found, if_neg (ne_nil_of_read found)]
  · rw [if_neg own]

/-- A scan without a limit finds the rows that are selected. -/
theorem mem_scan_all {c : Contents} {selects : String → Bool} {key : String} {m : RowMap} :
    (key, m) ∈ c.scan selects 0 ↔ c.read key = some m ∧ selects key := by
  simp only [scan, if_pos, List.mem_map, List.mem_insertionSort, List.mem_filter, Prod.mk.injEq]
  constructor
  · rintro ⟨row, ⟨member, selected⟩, rfl, rfl⟩
    exact ⟨by simp [read, Table.find?_key_of_mem member], selected⟩
  · rintro ⟨found, selected⟩
    obtain ⟨row, isRow, rfl⟩ := Option.map_eq_some_iff.mp found
    obtain rfl := Table.key_of_find? isRow
    exact ⟨row, ⟨Table.mem_of_find? isRow, selected⟩, rfl, rfl⟩

theorem scan_prefix_all (c : Contents) (selects : String → Bool) (limit : Nat) :
    c.scan selects limit <+: c.scan selects 0 := by
  by_cases zero : limit = 0
  · have same : c.scan selects limit = c.scan selects 0 := by rw [zero]
    exact same ▸ List.prefix_refl _
  · have cut : c.scan selects limit = (c.scan selects 0).take limit := by simp [scan, zero]
    rw [cut]
    exact List.take_prefix _ _

theorem mem_scan {c : Contents} {selects : String → Bool} {limit : Nat} {row : String × RowMap}
    (member : row ∈ c.scan selects limit) : c.read row.1 = some row.2 ∧ selects row.1 :=
  mem_scan_all.mp ((scan_prefix_all c selects limit).mem member)

theorem scan_of_le {c : Contents} {selects : String → Bool} {limit : Nat} (fits : (c.scan selects 0).length ≤ limit) :
    c.scan selects limit = c.scan selects 0 := by
  by_cases zero : limit = 0
  · rw [zero]
  · rw [scan, if_neg zero]
    exact List.take_of_length_le fits

end Contents

/-! ## Single-row operations -/

inductive Op where
  | readRow (key : String)
  /-- `ReadRows` over the keys with a prefix. -/
  | readPrefix (start : String) (limit : Nat)
  /-- `ReadRows` from `start` to before `stop`. -/
  | readRange (start stop : String) (limit : Nat)
  | mutateRow (key : String) (mutations : List Mutation)
  | checkAndMutateRow (key : String) (predicate : RowFilter) (trueMutations falseMutations : List Mutation)
  /-- `ReadModifyWriteRow`, by one. -/
  | increment (key : String)

namespace Op

def Res : Op → Type
  | readRow _ => Option RowMap
  | readPrefix .. | readRange .. => List (String × RowMap)
  | mutateRow .. => Unit
  | checkAndMutateRow .. => Bool
  | increment _ => Int

/-- What a check came to: the mutations of the branch that was taken. -/
def taken (trueMutations falseMutations : List Mutation) (matched : Bool) : List Mutation :=
  if matched then trueMutations else falseMutations

def exec : (op : Op) → Contents → op.Res × Contents
  | readRow key, c => (c.read key, c)
  | readPrefix start limit, c => (c.scan (fun key => start.toList.isPrefixOf key.toList) limit, c)
  | readRange start stop limit, c => (c.scan (fun key => start ≤ key && key < stop) limit, c)
  | mutateRow key mutations, c => ((), c.mutate key mutations)
  | checkAndMutateRow key predicate trueMutations falseMutations, c =>
    let matched := predicate.accepts (c.cells key)
    (matched, c.mutate key (taken trueMutations falseMutations matched))
  | increment key, c =>
    (c.counters key + 1, { c with counters := fun other => if other = key then c.counters key + 1 else c.counters other })

section Check

variable {c : Contents} {key other : String} {m : RowMap} {predicate : RowFilter} {trueMutations falseMutations : List Mutation}

theorem read_check_self (found : c.read key = some m)
    (kept : Mutation.applyAll (taken trueMutations falseMutations (predicate.accepts m)) m ≠ []) :
    ((checkAndMutateRow key predicate trueMutations falseMutations).exec c).2.read key =
      some (Mutation.applyAll (taken trueMutations falseMutations (predicate.accepts m)) m) := by
  obtain rfl := Contents.cells_of_read found
  exact Contents.read_mutate_self kept

theorem read_check_ne (differs : key ≠ other) :
    ((checkAndMutateRow key predicate trueMutations falseMutations).exec c).2.read other = c.read other :=
  Contents.read_mutate_ne c _ differs

end Check

end Op

end Tape.Bigtable
