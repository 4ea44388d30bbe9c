import Tape.Sql.Table

/-! # Tables as dictionaries

`put` writes a row under its key, over whatever row has the key already.  `putAll` writes several,
the last one of a key winning: what Python's `dict.update` does.
-/

namespace Tape.Sql

variable {κ ρ : Type} [DecidableEq κ] {key : ρ → κ}

/-- The `set` clause that replaces the row of the same key. -/
def Update.replace (row : ρ) : Update key where
  apply old := if key old = key row then row else old
  key_apply old := by
    split
    next same => exact same.symm
    next => rfl

namespace Table

def put (t : Table key) (row : ρ) : Table key := t.upsert row (.replace row)

def putAll (t : Table key) (rows : List ρ) : Table key := rows.foldl put t

theorem find?_put (t : Table key) (row : ρ) (k : κ) :
    (t.put row).find? k = if key row = k then some row else t.find? k := by
  rw [put, find?_upsert]
  by_cases same : key row = k
  · subst same
    cases found : t.find? (key row) with
    | none => simp
    | some old => simp [Update.replace, key_of_find? found]
  · simp [same]

@[simp] theorem putAll_nil (t : Table key) : t.putAll [] = t := rfl

@[simp] theorem putAll_cons (t : Table key) (row : ρ) (rows : List ρ) :
    t.putAll (row :: rows) = (t.put row).putAll rows := rfl

/-- A key that none of the rows has keeps what it had. -/
theorem find?_putAll_of_absent (t : Table key) {rows : List ρ} {k : κ} (absent : ∀ row ∈ rows, key row ≠ k) :
    (t.putAll rows).find? k = t.find? k := by
  induction rows generalizing t with
  | nil => rfl
  | cons row rows inductionHypothesis =>
    have first : key row ≠ k := absent row List.mem_cons_self
    rw [putAll_cons, inductionHypothesis _ fun row member => absent row (List.mem_cons_of_mem _ member), find?_put,
      if_neg first]

/-- Of rows with different keys, each is found afterwards. -/
theorem find?_putAll_of_mem (t : Table key) {rows : List ρ} {row : ρ} (nodup : (rows.map key).Nodup)
    (member : row ∈ rows) : (t.putAll rows).find? (key row) = some row := by
  induction rows generalizing t with
  | nil => cases member
  | cons head rows inductionHypothesis =>
    rw [List.map_cons, List.nodup_cons] at nodup
    rw [putAll_cons]
    cases List.mem_cons.mp member with
    | inl same =>
      subst same
      -- no later row has the key, so the first write stays
      have later : ∀ other ∈ rows, key other ≠ key row := fun other isOther same =>
        nodup.1 (same ▸ List.mem_map_of_mem isOther)
      rw [find?_putAll_of_absent _ later, find?_put, if_pos rfl]
    | inr member => exact inductionHypothesis _ nodup.2 member

end Table

end Tape.Sql
