import Tape.Bigtable.Machine
import Tape.Interleave.Register

/-! # A column of a row as a register -/

namespace Tape.Bigtable

open Interleave

variable {ε ι : Type} {Out : ι → Type}

namespace Mutation

/-- What the mutations leave in the column, if they touch it. -/
def leaves (qualifier : String) (mutations : List Mutation) : Option (Option String) :=
  if mutations.all (spares qualifier) then none else some (RowMap.get? (applyAll mutations []) qualifier)

theorem leaves_eq_none_iff {qualifier : String} {mutations : List Mutation} :
    leaves qualifier mutations = none ↔ mutations.all (spares qualifier) := by
  unfold leaves
  split
  next spared => simp [spared]
  next touched => simp [touched]

/-- What is left in a column does not depend on what was there, if the column is touched at all. -/
theorem get?_applyAll_of_leaves {qualifier : String} {mutations : List Mutation} {value : Option String}
    (left : leaves qualifier mutations = some value) (m : RowMap) :
    RowMap.get? (applyAll mutations m) qualifier = value := by
  have same : ∀ m m' : RowMap, ¬ mutations.all (spares qualifier) →
      RowMap.get? (applyAll mutations m) qualifier = RowMap.get? (applyAll mutations m') qualifier := by
    clear left
    induction mutations with
    | nil => simp
    | cons mutation mutations inductionHypothesis =>
      intro m m' touched
      by_cases later : mutations.all (spares qualifier)
      · -- the first mutation is the last that touches the column
        rw [applyAll_cons, applyAll_cons, get?_applyAll_of_spares later, get?_applyAll_of_spares later]
        cases mutation with
        | deleteFromRow => rfl
        | setCell other value =>
          have own : other = qualifier := by
            by_contra differs
            simp_all [spares]
          simp [apply, own]
      · exact inductionHypothesis _ _ later
  unfold leaves at left
  split at left
  next => cases left
  next touched =>
    rw [same m [] touched]
    exact Option.some.inj left

end Mutation

theorem Contents.cells_mutate_self (c : Contents) (key : String) (mutations : List Mutation) :
    (c.mutate key mutations).cells key = Mutation.applyAll mutations (c.cells key) := by
  rw [cells, mutate, read_write, if_pos rfl]
  split
  next isEmpty => exact isEmpty.symm
  next => rfl

theorem Contents.cells_mutate_ne (c : Contents) {key other : String} (mutations : List Mutation) (differs : key ≠ other) :
    (c.mutate key mutations).cells other = c.cells other := by
  rw [cells, read_mutate_ne c mutations differs, cells]

/-- The text of the column, where the row was read. -/
def columnRead (key qualifier : String) (event : Event Op (Answer ε)) : Option (Option String) :=
  (readOf key event).map fun row => row.bind fun m => m.get? qualifier

def columnWrote (key qualifier : String) : Event Op (Answer ε) → Option (Option String)
  | ⟨_, .mutateRow k mutations, .ok _⟩ => if k = key then Mutation.leaves qualifier mutations else none
  | ⟨_, .checkAndMutateRow k _ trueMutations falseMutations, .ok matched⟩ =>
    if k = key then Mutation.leaves qualifier (Op.taken trueMutations falseMutations matched) else none
  | _ => none

section Register

variable {failed : ε} {body : (call : ι) → Prog Op (Answer ε) (Out call)} {key qualifier : String} {tid : Nat} {op : Op}
  {s c : Contents} {res : Answer ε op}

theorem get?_mutate_of_leaves {k : String} {mutations : List Mutation} {value : Option String}
    (left : (if k = key then Mutation.leaves qualifier mutations else none) = some value) :
    ((s.mutate k mutations).cells key).get? qualifier = value := by
  split at left
  next own =>
    rw [own, Contents.cells_mutate_self]
    exact Mutation.get?_applyAll_of_leaves left _
  next => cases left

theorem get?_mutate_of_spares {k : String} {mutations : List Mutation}
    (spared : (if k = key then Mutation.leaves qualifier mutations else none) = none) :
    ((s.mutate k mutations).cells key).get? qualifier = (s.cells key).get? qualifier := by
  split at spared
  next own =>
    rw [own, Contents.cells_mutate_self]
    exact Mutation.get?_applyAll_of_spares (Mutation.leaves_eq_none_iff.mp spared) _
  next differs => rw [Contents.cells_mutate_ne s mutations differs]

theorem columnWrote_of_error (e : ε) : columnWrote key qualifier ⟨tid, op, (.error e : Answer ε op)⟩ = none := by
  cases op <;> rfl

theorem get?_of_columnWrote {value : Option String} (answers : (machine failed body).Answers op s res c)
    (wrote : columnWrote key qualifier ⟨tid, op, res⟩ = some value) : (c.cells key).get? qualifier = value := by
  cases machine_answers answers with
  | inl ok =>
    obtain ⟨rfl, rfl⟩ := ok
    cases op with
    | readRow | readPrefix | readRange | increment => cases wrote
    | mutateRow k mutations => exact get?_mutate_of_leaves wrote
    | checkAndMutateRow k predicate trueMutations falseMutations => exact get?_mutate_of_leaves wrote
  | inr error =>
    rw [error.1, columnWrote_of_error] at wrote
    cases wrote

theorem get?_of_not_columnWrote (answers : (machine failed body).Answers op s res c)
    (unwritten : columnWrote key qualifier ⟨tid, op, res⟩ = none) :
    (c.cells key).get? qualifier = (s.cells key).get? qualifier := by
  cases machine_answers answers with
  | inl ok =>
    obtain ⟨rfl, rfl⟩ := ok
    cases op with
    | readRow | readPrefix | readRange | increment => rfl
    | mutateRow k mutations => exact get?_mutate_of_spares unwritten
    | checkAndMutateRow k predicate trueMutations falseMutations => exact get?_mutate_of_spares unwritten
  | inr error => rw [error.2]

theorem get?_of_columnRead {value : Option String} (answers : (machine failed body).Answers op s res c)
    (read : columnRead key qualifier ⟨tid, op, res⟩ = some value) :
    (s.cells key).get? qualifier = value ∧ columnWrote key qualifier ⟨tid, op, res⟩ = none := by
  obtain ⟨row, isRow, rfl⟩ := Option.map_eq_some_iff.mp read
  constructor
  · rw [Contents.cells, (readOf_answers answers isRow).1]
    cases row <;> rfl
  · cases op with
    | readRow | readPrefix | readRange | increment => cases res <;> rfl
    | mutateRow | checkAndMutateRow => cases isRow

/-- The rows of a prefix have keys with that prefix. -/
def rowsExpected : (op : Op) → Answer ε op → Prop
  | .readPrefix start _, .ok (rows : List (String × RowMap)) => ∀ row ∈ rows, start.toList.isPrefixOf row.1.toList
  | _, _ => True

theorem rowsExpected_of_answers (answers : (machine failed body).Answers op s res c) : rowsExpected op res := by
  cases machine_answers answers with
  | inr error =>
    rw [error.1]
    cases op <;> exact trivial
  | inl ok =>
    obtain ⟨rfl, -⟩ := ok
    cases op with
    | readPrefix start limit =>
      intro row member
      have found : row ∈ s.scan (fun key => start.toList.isPrefixOf key.toList) limit := member
      exact (Contents.mem_scan found).2
    | readRow | readRange | increment | mutateRow | checkAndMutateRow => trivial

variable (failed body) in
/-- The text in a column of a row. -/
def column (key qualifier : String) : Register (machine failed body) (Option String) where
  view c := (c.cells key).get? qualifier
  readOf := columnRead key qualifier
  wrote := columnWrote key qualifier
  reads := get?_of_columnRead
  writes := get?_of_columnWrote
  keeps := get?_of_not_columnWrote
  expects := rowsExpected
  expected := rowsExpected_of_answers

end Register

end Tape.Bigtable
