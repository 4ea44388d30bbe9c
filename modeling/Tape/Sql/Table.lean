import Mathlib.Data.List.Nodup

/-! # Keyed tables

A table is a list of rows, in insertion order, whose primary keys are distinct.
The operations are the statements a store issues: `find?` by primary key, `insert`
guarded by the key and by whatever else must be unique, `update … where`, and the
`insert … on conflict … do update` upsert.

An `Update` is the right-hand side of a `set` clause.  It carries the proof that it
leaves the key columns alone, so updating a table can never break its key.
`Table.find?_update` reads one row back through an update; it is the only fact
about updates that proofs above this module need.
-/

namespace Tape.Sql

variable {κ ρ : Type} [DecidableEq κ] {key : ρ → κ}

structure Table (key : ρ → κ) where
  rows : List ρ
  nodup : (rows.map key).Nodup

/-- A `set` clause: a change of the columns outside the key. -/
structure Update (key : ρ → κ) where
  apply : ρ → ρ
  key_apply : ∀ row, key (apply row) = key row

namespace Table

def empty : Table key := ⟨[], List.nodup_nil⟩

def find? (t : Table key) (k : κ) : Option ρ := t.rows.find? fun row => key row = k

/-- `update … set u where cond`. -/
def update (t : Table key) (cond : ρ → Bool) (u : Update key) : Table key where
  rows := t.rows.map fun row => if cond row then u.apply row else row
  nodup := by
    have same : (t.rows.map fun row => if cond row then u.apply row else row).map key =
        t.rows.map key := by
      rw [List.map_map]
      apply List.map_congr_left
      intro row _
      simp only [Function.comp_apply]
      split
      · exact u.key_apply row
      · rfl
    rw [same]
    exact t.nodup

/-- How many rows `update … where cond` touches. -/
def count (t : Table key) (cond : ρ → Bool) : Nat := (t.rows.filter cond).length

/-- `insert`, refused when the key is taken or `clash` finds a row in the way. -/
def insert (t : Table key) (clash : ρ → Bool) (row : ρ) : Option (Table key) :=
  if fresh : key row ∉ t.rows.map key then
    if t.rows.any clash then none
    else some ⟨t.rows ++ [row], by
      rw [List.map_append, List.map_singleton]
      exact List.Nodup.append t.nodup (List.nodup_singleton _) (by simpa using fresh)⟩
  else none

/-- `insert … on conflict (key) do update set u`. -/
def upsert (t : Table key) (row : ρ) (u : Update key) : Table key :=
  match t.insert (fun _ => false) row with
  | some inserted => inserted
  | none => t.update (fun old => key old = key row) u

/-- `delete … where cond`. -/
def delete (t : Table key) (cond : ρ → Bool) : Table key where
  rows := t.rows.filter fun row => !cond row
  nodup := t.nodup.sublist (List.Sublist.map key List.filter_sublist)

@[simp] theorem find?_empty (k : κ) : (empty : Table key).find? k = none := rfl

theorem mem_of_find? {t : Table key} {k : κ} {row : ρ} (found : t.find? k = some row) :
    row ∈ t.rows := List.mem_of_find?_eq_some found

theorem key_of_find? {t : Table key} {k : κ} {row : ρ} (found : t.find? k = some row) :
    key row = k := by
  have matched := List.find?_some found
  simpa using matched

theorem find?_key_of_mem {t : Table key} {row : ρ} (member : row ∈ t.rows) :
    t.find? (key row) = some row := by
  obtain ⟨rows, nodup⟩ := t
  simp only [find?] at *
  induction rows with
  | nil => cases member
  | cons head tail inductionHypothesis =>
    rw [List.map_cons, List.nodup_cons] at nodup
    rcases List.mem_cons.mp member with rfl | member
    · simp
    · have differs : key head ≠ key row := fun same =>
        nodup.1 (same ▸ List.mem_map_of_mem member)
      rw [List.find?_cons_of_neg (by simpa using differs)]
      exact inductionHypothesis nodup.2 member

theorem find?_update (t : Table key) (cond : ρ → Bool) (u : Update key) (k : κ) :
    (t.update cond u).find? k =
      (t.find? k).map fun row => if cond row then u.apply row else row := by
  obtain ⟨rows, nodup⟩ := t
  simp only [update, find?]
  clear nodup
  induction rows with
  | nil => rfl
  | cons head tail inductionHypothesis =>
    have same : key (if cond head then u.apply head else head) = key head := by
      split
      · exact u.key_apply head
      · rfl
    rw [List.map_cons]
    by_cases matched : key head = k
    · rw [List.find?_cons_of_pos (by simpa [same] using matched),
        List.find?_cons_of_pos (by simpa using matched)]
      rfl
    · rw [List.find?_cons_of_neg (by simpa [same] using matched),
        List.find?_cons_of_neg (by simpa using matched), inductionHypothesis]

theorem find?_insert {t t' : Table key} {clash : ρ → Bool} {row : ρ}
    (inserted : t.insert clash row = some t') (k : κ) :
    t'.find? k = if key row = k then some row else t.find? k := by
  unfold insert at inserted
  split at inserted
  next fresh =>
    split at inserted
    · cases inserted
    · cases inserted
      simp only [find?, List.find?_append]
      by_cases same : key row = k
      · subst same
        have absent : t.rows.find? (fun old => key old = key row) = none := by
          rw [List.find?_eq_none]
          intro old member
          simp only [decide_eq_true_eq]
          exact fun taken => fresh (taken ▸ List.mem_map_of_mem member)
        simp [absent]
      · cases t.rows.find? (fun old => key old = k) <;> simp [same]
  next => cases inserted

theorem find?_none_of_insert {t t' : Table key} {clash : ρ → Bool} {row : ρ}
    (inserted : t.insert clash row = some t') : t.find? (key row) = none := by
  unfold insert at inserted
  split at inserted
  next fresh =>
    simp only [find?, List.find?_eq_none, decide_eq_true_eq]
    exact fun old member same => fresh (same ▸ List.mem_map_of_mem member)
  next => cases inserted

/-- An insert is accepted if its key is free and nothing is in its way. -/
theorem insert_isSome_iff {t : Table key} {clash : ρ → Bool} {row : ρ} :
    (t.insert clash row).isSome ↔ t.find? (key row) = none ∧ t.rows.any clash = false := by
  have free : key row ∉ t.rows.map key ↔ t.find? (key row) = none := by
    simp [find?, List.find?_eq_none]
  rw [← free, insert]
  by_cases fresh : key row ∉ t.rows.map key
  · rw [dif_pos fresh]
    cases t.rows.any clash <;> simp [fresh]
  · rw [dif_neg fresh]
    exact ⟨fun isSome => (by cases isSome), fun both => absurd both.1 fresh⟩

theorem rows_insert {t t' : Table key} {clash : ρ → Bool} {row : ρ}
    (inserted : t.insert clash row = some t') : t'.rows = t.rows ++ [row] := by
  unfold insert at inserted
  split at inserted
  · split at inserted
    · cases inserted
    · cases inserted
      rfl
  · cases inserted

theorem not_clash_of_insert {t t' : Table key} {clash : ρ → Bool} {row : ρ}
    (inserted : t.insert clash row = some t') : ∀ old ∈ t.rows, clash old = false := by
  unfold insert at inserted
  split at inserted
  · split at inserted
    · cases inserted
    next clear => simpa using clear
  · cases inserted

theorem find?_upsert (t : Table key) (row : ρ) (u : Update key) (k : κ) :
    (t.upsert row u).find? k =
      if key row = k then some ((t.find? k).elim row u.apply) else t.find? k := by
  unfold upsert
  split
  next inserted accepted =>
    rw [find?_insert accepted]
    split
    next same => rw [← same, find?_none_of_insert accepted]; rfl
    next => rfl
  next refused =>
    rw [find?_update]
    -- without a clash, an insert is refused only for the key
    have present : ∃ old, t.find? (key row) = some old := by
      unfold insert at refused
      split at refused
      · simp at refused
      next taken =>
        simp only [not_not, List.mem_map] at taken
        obtain ⟨old, member, same⟩ := taken
        exact ⟨old, by rw [← same]; exact find?_key_of_mem member⟩
    obtain ⟨old, found⟩ := present
    by_cases same : key row = k
    · subst same
      simp [found, key_of_find? found]
    · cases other : t.find? k with
      | none => simp [same]
      | some other' =>
        have differs : key other' ≠ key row := fun equal => same (equal ▸ key_of_find? other)
        simp [same, differs]

theorem find?_delete (t : Table key) (cond : ρ → Bool) (k : κ) :
    (t.delete cond).find? k = (t.find? k).filter fun row => !cond row := by
  have rest : ∀ row, row ∈ (t.delete cond).rows ↔ row ∈ t.rows ∧ !cond row := fun row => List.mem_filter
  cases left : (t.delete cond).find? k with
  | none =>
    cases found : t.find? k with
    | none => rfl
    | some row =>
      have deleted : cond row := by
        by_contra kept
        have stays := find?_key_of_mem ((rest row).mpr ⟨mem_of_find? found, by simpa using kept⟩)
        rw [key_of_find? found, left] at stays
        cases stays
      rw [Option.filter_some, deleted]
      rfl
  | some row =>
    obtain ⟨member, kept⟩ := (rest row).mp (mem_of_find? left)
    have found := find?_key_of_mem member
    rw [key_of_find? left] at found
    rw [found, Option.filter_some, if_pos kept]

/-- An update whose condition fixes the key touches a row iff that row meets the condition. -/
theorem count_pos_iff (t : Table key) (cond : ρ → Bool) :
    0 < t.count cond ↔ ∃ row, t.find? (key row) = some row ∧ cond row := by
  simp only [count, List.length_pos_iff_exists_mem, List.mem_filter]
  constructor
  · rintro ⟨row, member, selected⟩
    exact ⟨row, find?_key_of_mem member, selected⟩
  · rintro ⟨row, found, selected⟩
    exact ⟨row, mem_of_find? found, selected⟩

theorem count_pos_of_find? {t : Table key} {cond : ρ → Bool} {k : κ} {row : ρ} (found : t.find? k = some row)
    (selected : cond row) : 0 < t.count cond :=
  (count_pos_iff t cond).mpr ⟨row, by rw [key_of_find? found]; exact found, selected⟩

end Table

/-- An update of one row touches at most one. -/
theorem Table.count_le_one {t : Table key} {cond : ρ → Bool} {k : κ} (one : ∀ row, cond row → key row = k) :
    t.count cond ≤ 1 := by
  have once := List.nodup_iff_count_le_one.mp t.nodup k
  rw [List.count_eq_countP, List.countP_map] at once
  rw [Table.count, ← List.countP_eq_length_filter]
  refine Nat.le_trans (List.countP_mono_left fun row _ selected => ?_) once
  simpa using one row selected

/-! ## A second unique key -/

/-- A table with a unique index besides its key. -/
structure UniqueTable {ι : Type} (key : ρ → κ) (index : ρ → ι) extends Table key where
  unique : (rows.map index).Nodup

namespace UniqueTable

variable {ι : Type} {index : ρ → ι}

def empty : UniqueTable key index where
  toTable := .empty
  unique := List.nodup_nil

@[simp] theorem find?_empty (k : κ) : (empty : UniqueTable key index).find? k = none := rfl

omit [DecidableEq κ] in
theorem eq_of_index {t : UniqueTable key index} {a b : ρ} (left : a ∈ t.rows) (right : b ∈ t.rows)
    (same : index a = index b) : a = b :=
  List.inj_on_of_nodup_map t.unique left right same

variable [DecidableEq ι]

/-- What a statement leaves, if it violates no constraint. -/
def check (t : Table key) : Option (UniqueTable key index) :=
  if unique : (t.rows.map index).Nodup then some ⟨t, unique⟩ else none

/-- `update … set u where cond`, refused when the index would be violated. -/
def update? (t : UniqueTable key index) (cond : ρ → Bool) (u : Update key) : Option (UniqueTable key index) :=
  check (t.toTable.update cond u)

/-- `insert`, refused when the key or the index is taken. -/
def insert? (t : UniqueTable key index) (row : ρ) : Option (UniqueTable key index) :=
  (t.toTable.insert (fun _ => false) row).bind check

omit [DecidableEq κ] in
theorem toTable_of_check {t : Table key} {t' : UniqueTable key index} (checked : check t = some t') :
    t'.toTable = t := by
  unfold check at checked
  split at checked
  · cases checked
    rfl
  · cases checked

omit [DecidableEq κ] in
/-- An update that leaves the index alone is never refused. -/
theorem update?_of_index {t : UniqueTable key index} {u : Update key} (cond : ρ → Bool)
    (keeps : ∀ row, index (u.apply row) = index row) :
    ∃ t', t.update? cond u = some t' ∧ t'.toTable = t.toTable.update cond u := by
  have same : (t.toTable.update cond u).rows.map index = t.rows.map index := by
    simp only [Table.update, List.map_map]
    apply List.map_congr_left
    intro row _
    simp only [Function.comp_apply]
    split
    · exact keeps row
    · rfl
  have unique : ((t.toTable.update cond u).rows.map index).Nodup := same ▸ t.unique
  exact ⟨⟨t.toTable.update cond u, unique⟩, by rw [update?, check, dif_pos unique], rfl⟩

/-- An insert is refused for the key or for the index. -/
theorem taken_of_insert?_none {t : UniqueTable key index} {row : ρ} (refused : t.insert? row = none) :
    (∃ old ∈ t.rows, key old = key row) ∨ ∃ old ∈ t.rows, index old = index row := by
  unfold insert? at refused
  cases isInsert : t.toTable.insert (fun _ => false) row with
  | none =>
    unfold Table.insert at isInsert
    split at isInsert
    · simp at isInsert
    next taken =>
      simp only [not_not, List.mem_map] at taken
      exact .inl taken
  | some table =>
    rw [isInsert, Option.bind_some, check] at refused
    split at refused
    · cases refused
    next duplicate =>
      rw [Table.rows_insert isInsert, List.map_append, List.map_singleton, List.nodup_append] at duplicate
      by_contra! free
      refine duplicate ⟨t.unique, List.nodup_singleton _, ?_⟩
      simpa using free.2

end UniqueTable

end Tape.Sql
