import Mathlib.Algebra.Group.Int.Defs
import Tape.Bigtable.Claim
import Tape.Bigtable.Column

/-! # Methods that read a cell and write it with more

What a method writes in a column follows from what it has last read there, or it spares the column.
-/

namespace Tape.BigtableRunStore

open Interleave Bigtable

/-! ## What the calls write in a column -/

section Columns

variable {ι : Type} {Out : ι → Type} {body : (call : ι) → Prog Op Reply (Out call)} {row qualifier : String}
  {f : Option String → Option String} {tid : Nat} {known : Option (Option String)} {α β : Type}

/-- A program of the column's protocol: each text it writes there is `f` of the text it last read there. -/
abbrev Derives (body : (call : ι) → Prog Op Reply (Out call)) (row qualifier : String) (f : Option String → Option String)
    (tid : Nat) (known : Option (Option String)) (program : BigtableM α) : Prop :=
  ((column requestFailed body row qualifier).protocol f tid).Follows (fun _ _ => True) known program.run

theorem Derives.pure (value : α) : Derives body row qualifier f tid known (Pure.pure value) := trivial

theorem Derives.throw (e : StoreError) :
    Derives body row qualifier f tid known (MonadExcept.throw e : BigtableM α) := trivial

/-- What a read has the thread know. -/
theorem after_readRow (key : String) (found : Option RowMap) :
    ((column requestFailed body row qualifier).protocol f tid).after known (.readRow key) (.ok found) =
      if key = row then some (found.bind fun m => m.get? qualifier) else known := by
  by_cases own : key = row <;> simp [Register.protocol, column, columnRead, readOf, own]

theorem Derives.readRow {key : String} {continuation : Option RowMap → BigtableM β}
    (rest : ∀ found : Option RowMap, Derives body row qualifier f tid
      (if key = row then some (found.bind fun m => m.get? qualifier) else known) (continuation found)) :
    Derives body row qualifier f tid known (BigtableRunStore.readRow key >>= continuation) := by
  refine Protocol.Follows.exceptBind (And.intro (fun res b' wrote => by cases wrote) fun res _ => ?_)
  cases res with
  | error e => trivial
  | ok found =>
    have next := rest found
    rw [← after_readRow key found] at next
    exact next

theorem Derives.writeRow {key : String} {mutations : List Mutation} {continuation : Unit → BigtableM β}
    (derived : key = row → ∀ b', Mutation.leaves qualifier mutations = some b' → ∃ b, known = some b ∧ b' = f b)
    (rest : Derives body row qualifier f tid known (continuation ())) :
    Derives body row qualifier f tid known (BigtableRunStore.writeRow key mutations >>= continuation) := by
  refine Protocol.Follows.exceptBind (And.intro (fun res b' wrote => ?_) fun res _ => ?_)
  · cases res with
    | error e => cases wrote
    | ok =>
      by_cases own : key = row
      · exact derived own b' (by simpa [column, columnWrote, own] using wrote)
      · simp [column, columnWrote, own] at wrote
  · cases res with
    | error e => trivial
    | ok => exact rest

/-- The operation leaves the column as it is, in any row. -/
def SparesColumn (qualifier : String) : Op → Prop
  | .mutateRow _ mutations => mutations.all (Mutation.spares qualifier)
  | .checkAndMutateRow _ _ trueMutations falseMutations =>
    trueMutations.all (Mutation.spares qualifier) ∧ falseMutations.all (Mutation.spares qualifier)
  | _ => True

/-- Who spares the column writes nothing in it. -/
theorem follows_of_spares {program : Prog Op Reply α} (all : program.All (SparesColumn qualifier)) :
    ((column requestFailed body row qualifier).protocol f tid).Follows (fun _ _ => True) known program := by
  refine Protocol.Follows.of_all (all.mono fun op spares known res b' wrote => ?_)
  have spared : columnWrote row qualifier ⟨tid, op, res⟩ = none := by
    cases op with
    | readRow | readPrefix | readRange | increment => rfl
    | checkAndMutateRow key predicate trueMutations falseMutations =>
      cases res with
      | error e => rfl
      | ok matched =>
        have left : Mutation.leaves qualifier (Op.taken trueMutations falseMutations matched) = none := by
          cases matched with
          | true => exact Mutation.leaves_eq_none_iff.mpr spares.1
          | false => exact Mutation.leaves_eq_none_iff.mpr spares.2
        simp [columnWrote, left]
    | mutateRow key mutations =>
      cases res with
      | error e => rfl
      | ok =>
        have left := Mutation.leaves_eq_none_iff.mpr spares
        simp [columnWrote, left]
  rw [show columnWrote row qualifier ⟨tid, op, res⟩ = some b' from wrote] at spared
  cases spared

theorem Derives.of_spares {program : BigtableM α} (all : program.run.All (SparesColumn qualifier)) :
    Derives body row qualifier f tid known program := follows_of_spares all

end Columns

/-! ## Columns that are spared -/

/-- The columns of an entry of the journal. -/
def journalColumns : List String :=
  ["kind", "payload", "ts", "global_seq", "subject", "schema_version", "trace_id", "span_id", "parent_span_id", "run_id", "seq"]

section Spared

variable {qualifier : String} {α β : Type}

abbrev AllSpareColumn (qualifier : String) (program : BigtableM α) : Prop := program.run.All (SparesColumn qualifier)

theorem AllSpareColumn.bind {program : BigtableM α} {continuation : α → BigtableM β} (first : AllSpareColumn qualifier program)
    (rest : ∀ value, AllSpareColumn qualifier (continuation value)) : AllSpareColumn qualifier (program >>= continuation) :=
  Prog.All.exceptBind first rest

theorem AllSpareColumn.pure (value : α) : AllSpareColumn qualifier (Pure.pure value : BigtableM α) := trivial

theorem AllSpareColumn.perform {op : Op} (spares : SparesColumn qualifier op) :
    AllSpareColumn qualifier (BigtableRunStore.perform op) :=
  ⟨spares, fun _ => trivial⟩

theorem AllSpareColumn.attempt {program : BigtableM α} (all : AllSpareColumn qualifier program) :
    AllSpareColumn qualifier (BigtableRunStore.attempt program) := Prog.All.bind all fun _ => trivial

theorem AllSpareColumn.writeRow {key : String} {mutations : List Mutation} (spared : mutations.all (Mutation.spares qualifier)) :
    AllSpareColumn qualifier (BigtableRunStore.writeRow key mutations) := .perform spared

theorem allSpare_journalFull (foreign : qualifier ∉ journalColumns) (kind subject payload : String) (ts : Int) :
    AllSpareColumn qualifier (journalFull "" 0 kind subject payload ts 1 "" "" "") := by
  simp only [journalColumns, List.mem_cons, List.not_mem_nil, or_false, not_or] at foreign
  refine .bind (.perform trivial) fun globalSeq => .writeRow ?_
  simp [set, Mutation.spares, Ne.symm, foreign]

/-- A method that ends with a journal entry, and does not ask what became of it. -/
theorem allSpare_journaled (foreign : qualifier ∉ journalColumns) (kind subject payload : String) (ts : Int) (value : α) :
    AllSpareColumn qualifier (do
      let _ ← BigtableRunStore.attempt (journalFull "" 0 kind subject payload ts 1 "" "" "")
      return value) := .bind (.attempt (allSpare_journalFull foreign ..)) fun _ => .pure _

end Spared

/-! ## One more -/

/-- What `gi` makes of a cell. -/
def cellI64 (text : Option String) : Int := (parseI64 (text.getD "")).getD 0

def increased (amount : Int) (text : Option String) : Option String := some (iv (addI64 (cellI64 text) amount))

section Increased

variable {m : RowMap} {qualifier : String} {text : Option String}

theorem gi_eq_cellI64 (m : RowMap) (qualifier : String) : gi m qualifier = cellI64 (m.get? qualifier) := rfl

theorem gi_getD (found : Option RowMap) (qualifier : String) :
    gi (found.getD []) qualifier = cellI64 (found.bind fun m => m.get? qualifier) := by
  cases found <;> rfl

theorem map_gi_getD (found : Option RowMap) (qualifier : String) :
    (found.map fun m => gi m qualifier).getD 0 = cellI64 (found.bind fun m => m.get? qualifier) := by
  cases found <;> rfl

theorem inI64_bmod (n : Int) : inI64 (Int.bmod n (2 ^ 64)) := by
  have low := Int.le_bmod (x := n) (m := 2 ^ 64) (by decide)
  have high := Int.bmod_lt (x := n) (m := 2 ^ 64) (by decide)
  constructor <;> omega

theorem cellI64_iv {n : Int} (bound : inI64 n) : cellI64 (some (iv n)) = n := by
  rw [cellI64, Option.getD_some, iv, parseI64_toString bound]
  rfl

theorem inI64_cellI64 (text : Option String) : inI64 (cellI64 text) := by
  have bound := inI64_gi [("cell", text.getD "")] "cell"
  simpa [gi, gs, RowMap.get?, cellI64] using bound

theorem bmod_cellI64 (text : Option String) : Int.bmod (cellI64 text) (2 ^ 64) = cellI64 text := by
  have bound := inI64_cellI64 text
  exact Int.bmod_eq_of_le_mul_two (by have := bound.1; omega) (by have := bound.2; omega)

@[simp] theorem cellI64_increased (amount : Int) (text : Option String) :
    cellI64 (increased amount text) = Int.bmod (cellI64 text + amount) (2 ^ 64) := cellI64_iv (inI64_bmod _)

theorem cellI64_iterate (k : Nat) (text : Option String) :
    cellI64 ((increased 1)^[k] text) = Int.bmod (cellI64 text + k) (2 ^ 64) := by
  induction k with
  | zero =>
    have isStart : cellI64 text + ((0 : Nat) : Int) = cellI64 text := Int.add_zero _
    rw [Function.iterate_zero_apply, isStart, bmod_cellI64]
  | succ k inductionHypothesis =>
    rw [Function.iterate_succ_apply', cellI64_increased, inductionHypothesis, Int.bmod_add_bmod]
    congr 1
    omega

/-- It takes `2 ^ 64` steps to come back. -/
theorem iterate_ne {text : Option String} {i j : Nat} (less : i < j) (few : j < 2 ^ 64) :
    (increased 1)^[i + 1] text ≠ (increased 1)^[j + 1] text := by
  intro same
  have numbers := congrArg cellI64 same
  rw [cellI64_iterate, cellI64_iterate, Int.bmod_eq_bmod_iff_bmod_sub_eq_zero] at numbers
  have divides := Int.dvd_of_bmod_eq_zero numbers
  omega

end Increased

end Tape.BigtableRunStore
