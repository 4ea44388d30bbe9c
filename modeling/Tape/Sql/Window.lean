import Mathlib.Data.List.Sort

/-! # `ORDER BY … LIMIT n`

A row is among the first `n` of a list in strict order exactly if fewer than `n` rows of the list
come before it.  Sorting does not change how many do.
-/

namespace Tape.Sql

section Rank

variable {ρ : Type} {before : ρ → ρ → Prop} [DecidableRel before]

/-- How many rows come before `row`. -/
def rank (before : ρ → ρ → Prop) [DecidableRel before] (rows : List ρ) (row : ρ) : Nat :=
  rows.countP fun other => before other row

theorem rank_perm {rows rows' : List ρ} (perm : rows.Perm rows') (row : ρ) : rank before rows row = rank before rows' row :=
  perm.countP_eq _

variable [Std.Asymm before]

theorem mem_take_iff {rows : List ρ} (sorted : rows.Pairwise before) (n : Nat) (row : ρ) :
    row ∈ rows.take n ↔ row ∈ rows ∧ rank before rows row < n := by
  induction rows generalizing n with
  | nil => simp
  | cons first rows inductionHypothesis =>
    obtain ⟨firstBefore, rest⟩ := List.pairwise_cons.mp sorted
    cases n with
    | zero => simp
    | succ n =>
      rw [List.take_succ_cons, List.mem_cons, List.mem_cons, inductionHypothesis rest, rank, rank,
        List.countP_cons]
      by_cases same : row = first
      · -- nothing comes before the first row
        subst same
        have none_ : rows.countP (fun other => before other row) = 0 := by
          rw [List.countP_eq_zero]
          intro other member after
          exact Std.Asymm.asymm _ _ (firstBefore other member) (of_decide_eq_true after)
        have notSelf : ¬ before row row := fun self => Std.Asymm.asymm _ _ self self
        simp [none_, notSelf]
      · by_cases member : row ∈ rows
        · simp [same, member, firstBefore row member]
        · simp [same, member]

end Rank

/-- Of a list in order the head is the row that no other one comes before. -/
theorem head?_of_least {ρ : Type} {before : ρ → ρ → Prop} {rows : List ρ} (sorted : rows.Pairwise before) {row : ρ}
    (member : row ∈ rows)
    (least : ∀ other ∈ rows, ¬ before other row) : rows.head? = some row := by
  cases rows with
  | nil => cases member
  | cons first rows =>
    rcases List.mem_cons.mp member with rfl | later
    · rfl
    · exact absurd ((List.pairwise_cons.mp sorted).1 row later) (least first List.mem_cons_self)

/-- A condition that drops a row of the other's selects fewer. -/
theorem countP_lt_countP {ρ : Type} {p q : ρ → Bool} {rows : List ρ} (weaker : ∀ row ∈ rows, p row → q row) {row : ρ}
    (member : row ∈ rows) (selected : q row) (dropped : ¬ p row) : rows.countP p < rows.countP q := by
  have split : rows.countP q = (rows.filter q).countP p + (rows.filter q).countP fun row => decide ¬p row := by
    rw [List.countP_eq_length_filter]
    exact List.length_eq_countP_add_countP p
  have same : (rows.filter q).countP p = rows.countP p := by
    rw [List.countP_filter]
    refine List.countP_congr fun other memberOther => ?_
    have implied := weaker other memberOther
    simp only [Bool.and_eq_true]
    tauto
  have some_ : 0 < (rows.filter q).countP fun row => decide ¬p row :=
    List.countP_pos_iff.mpr ⟨row, List.mem_filter.mpr ⟨member, selected⟩, by simpa using dropped⟩
  omega

/-- What one of two conditions selects is counted under one of them. -/
theorem countP_le_add {ρ : Type} {p q r : ρ → Bool} {rows : List ρ} (covered : ∀ row, p row → q row ∨ r row) :
    rows.countP p ≤ rows.countP q + rows.countP r := by
  induction rows with
  | nil => simp
  | cons row rows inductionHypothesis =>
    have one := covered row
    simp only [List.countP_cons]
    by_cases hp : p row <;> by_cases hq : q row <;> by_cases hr : r row <;> simp [hp, hq, hr] at one ⊢ <;> omega

/-- A unique column has a value at most once. -/
theorem countP_eq_le_one {ρ κ : Type} [DecidableEq κ] {column : ρ → κ} {rows : List ρ}
    (nodup : (rows.map column).Nodup) (value : κ) : rows.countP (fun row => column row = value) ≤ 1 := by
  have once := List.nodup_iff_count_le_one.mp nodup value
  rw [List.count_eq_countP, List.countP_map] at once
  simpa [Function.comp_def, beq_eq_decide] using once

/-! ## The largest value of a column -/

section Foldl

variable {ρ : Type} (column : ρ → Int)

/-- The largest value so far is the one at the start, or one of the rows has it. -/
theorem foldl_max_cases (start : Int) (rows : List ρ) :
    rows.foldl (fun largest row => max largest (column row)) start = start ∨
      ∃ row ∈ rows, rows.foldl (fun largest row => max largest (column row)) start = column row := by
  induction rows generalizing start with
  | nil => exact .inl rfl
  | cons row rows inductionHypothesis =>
    -- the first row raises the value or leaves it, the rest of the rows likewise
    rcases inductionHypothesis (max start (column row)) with stays | ⟨last, member, moves⟩
    · rcases le_total (column row) start with below | above
      · exact .inl (stays.trans (max_eq_left below))
      · exact .inr ⟨row, List.mem_cons_self, stays.trans (max_eq_right above)⟩
    · exact .inr ⟨last, List.mem_cons_of_mem row member, moves⟩

theorem le_foldl_max (start : Int) (rows : List ρ) :
    start ≤ rows.foldl (fun largest row => max largest (column row)) start := by
  induction rows generalizing start with
  | nil => exact le_refl start
  | cons row rows inductionHypothesis => exact (le_max_left _ _).trans (inductionHypothesis _)

theorem column_le_foldl_max (start : Int) {rows : List ρ} {row : ρ} (member : row ∈ rows) :
    column row ≤ rows.foldl (fun largest row => max largest (column row)) start := by
  induction rows generalizing start with
  | nil => cases member
  | cons first rows inductionHypothesis =>
    rcases List.mem_cons.mp member with rfl | later
    · exact (le_max_right _ _).trans (le_foldl_max column _ rows)
    · exact inductionHypothesis _ later

end Foldl

/-! ## A key of its own for every row -/

section Key

variable {ρ κ : Type} [LinearOrder κ] (key : ρ → κ)

/-- Sorted by a key that no two rows share, the rows are in strict order. -/
theorem pairwise_lt_insertionSort {rows : List ρ} (nodup : rows.Nodup)
    (unique : ∀ a ∈ rows, ∀ b ∈ rows, key a = key b → a = b) :
    (rows.insertionSort fun a b => key a ≤ key b).Pairwise fun a b => key a < key b := by
  have ordered : (rows.insertionSort fun a b => key a ≤ key b).Pairwise fun a b => key a ≤ key b := by
    apply List.pairwise_insertionSort
  have perm : (rows.insertionSort fun a b => key a ≤ key b).Perm rows := List.perm_insertionSort _ rows
  have distinct : (rows.insertionSort fun a b => key a ≤ key b).Pairwise (· ≠ ·) := perm.nodup_iff.mpr nodup
  refine (ordered.and distinct).imp_of_mem ?_
  rintro a b memberA memberB ⟨le, ne⟩
  refine lt_of_le_of_ne le fun same => ne ?_
  exact unique a (perm.mem_iff.mp memberA) b (perm.mem_iff.mp memberB) same

instance asymm_of_key : Std.Asymm fun a b : ρ => key a < key b := ⟨fun _ _ => lt_asymm⟩

instance isTrans_of_key : IsTrans ρ fun a b => key a < key b := ⟨fun _ _ _ => lt_trans⟩

/-! Where the key leaves ties, the rows of smaller keys come first, and the rows of larger ones last. -/

theorem mem_take_of_countP_le {rows : List ρ} (sorted : rows.Pairwise fun a b => key a ≤ key b) {n : Nat} {row : ρ}
    (member : row ∈ rows) (few : rows.countP (fun other => key other ≤ key row) ≤ n) : row ∈ rows.take n := by
  rw [← List.take_append_drop n rows] at member sorted few
  refine (List.mem_append.mp member).resolve_right fun dropped => ?_
  -- all the rows that are kept come before it, and it comes after them
  have kept : (rows.take n).countP (fun other => key other ≤ key row) = (rows.take n).length :=
    List.countP_eq_length.mpr fun other memberOther =>
      decide_eq_true ((List.pairwise_append.mp sorted).2.2 other memberOther row dropped)
  have self : 0 < (rows.drop n).countP fun other => key other ≤ key row :=
    List.countP_pos_iff.mpr ⟨row, dropped, decide_eq_true le_rfl⟩
  have long := List.length_pos_of_mem dropped
  rw [List.countP_append, kept, List.length_take] at few
  rw [List.length_drop] at long
  omega

/-- Whatever is cut off comes after what is kept. -/
theorem key_le_of_not_mem_take {rows : List ρ} (sorted : rows.Pairwise fun a b => key a ≤ key b) {n : Nat} {kept row : ρ}
    (isKept : kept ∈ rows.take n) (member : row ∈ rows) (dropped : row ∉ rows.take n) : key kept ≤ key row := by
  rw [← List.take_append_drop n rows] at member sorted
  have isDropped := (List.mem_append.mp member).resolve_left dropped
  exact (List.pairwise_append.mp sorted).2.2 kept isKept row isDropped

theorem not_mem_take_of_le_countP {rows : List ρ} (sorted : rows.Pairwise fun a b => key a ≤ key b) {n : Nat} {row : ρ}
    (many : n ≤ rows.countP fun other => key other < key row) : row ∉ rows.take n := by
  intro kept
  rw [← List.take_append_drop n rows] at sorted many
  have none_ : (rows.drop n).countP (fun other => key other < key row) = 0 := by
    refine List.countP_eq_zero.mpr fun other dropped => ?_
    simpa using (List.pairwise_append.mp sorted).2.2 row kept other dropped
  have some_ : (rows.take n).countP (fun other => key other < key row) < (rows.take n).length := by
    refine lt_of_le_of_ne List.countP_le_length fun all => ?_
    have self := List.countP_eq_length.mp all row kept
    simp at self
  have bound := List.length_take_le n rows
  rw [List.countP_append, none_] at many
  omega

theorem mem_take_insertionSort_iff {rows : List ρ} (nodup : rows.Nodup)
    (unique : ∀ a ∈ rows, ∀ b ∈ rows, key a = key b → a = b) (n : Nat) (row : ρ) :
    row ∈ (rows.insertionSort fun a b => key a ≤ key b).take n ↔
      row ∈ rows ∧ rows.countP (fun other => key other < key row) < n := by
  rw [mem_take_iff (pairwise_lt_insertionSort key nodup unique), List.mem_insertionSort,
    rank_perm (List.perm_insertionSort _ rows)]
  rfl

end Key

end Tape.Sql
