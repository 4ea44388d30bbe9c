import Mathlib.Data.List.Sort
import Tape.Sequential
import Tape.Sql.Table

/-! # A table that is polled through a window

A tick reads the first rows of a table in some order and takes them up one by one.  What it cannot
serve it skips, which leaves the row in its place; what it serves it moves out of the way.  A failure
ends the tick.

`Poll.within` says when a row of the table is served: fewer of the rows before it are skipped than the
window holds.  Then some row that can be served is in the window; the row itself, or one that is out of
its way afterwards.
-/

namespace Tape.Sql

open Tape.Sequential

/-! ## Windows -/

section Window

variable {ρ : Type} {before : ρ → ρ → Prop} [DecidableRel before]

/-- The first `limit` rows. -/
def window (before : ρ → ρ → Prop) [DecidableRel before] (limit : Nat) (rows : List ρ) : List ρ :=
  (rows.insertionSort before).take limit

theorem mem_of_mem_window {limit : Nat} {rows : List ρ} {row : ρ} (member : row ∈ window before limit rows) : row ∈ rows :=
  (List.mem_insertionSort before).mp (List.mem_of_mem_take member)

theorem nodup_window {κ : Type} {column : ρ → κ} {rows : List ρ} (limit : Nat) (nodup : (rows.map column).Nodup) :
    ((window before limit rows).map column).Nodup := by
  have sorted : ((rows.insertionSort before).map column).Nodup :=
    ((List.perm_insertionSort before rows).map column).nodup_iff.mpr nodup
  exact sorted.sublist ((List.take_sublist _ _).map _)

variable [Std.Total before] [IsTrans ρ before]

theorem sorted_window (limit : Nat) (rows : List ρ) : (window before limit rows).Pairwise before :=
  (List.pairwise_insertionSort before rows).sublist (List.take_sublist _ _)

/-- What is in the window comes before what is not. -/
theorem before_of_not_mem_window {limit : Nat} {rows : List ρ} {row first : ρ} (member : row ∈ rows)
    (missing : row ∉ window before limit rows) (isFirst : first ∈ window before limit rows) : before first row := by
  have sorted := List.pairwise_insertionSort before rows
  have listed := (List.mem_insertionSort before).mpr member
  rw [← List.take_append_drop limit (rows.insertionSort before)] at sorted listed
  cases List.mem_append.mp listed with
  | inl kept => exact absurd kept missing
  | inr dropped => exact (List.pairwise_append.mp sorted).2.2 first isFirst row dropped

omit [Std.Total before] [IsTrans ρ before] in
/-- A window that leaves out a row is full. -/
theorem length_window_of_not_mem {limit : Nat} {rows : List ρ} {row : ρ} (member : row ∈ rows)
    (missing : row ∉ window before limit rows) : (window before limit rows).length = limit := by
  rw [window, List.length_take, min_eq_left]
  by_contra short
  rw [window, List.take_of_length_le (by omega)] at missing
  exact missing ((List.mem_insertionSort before).mpr member)

/-- A row that as many rows come strictly before as the window holds is not in it. -/
theorem not_mem_window {limit : Nat} {rows : List ρ} {row : ρ}
    (full : limit ≤ rows.countP fun other => before other row && !before row other) : row ∉ window before limit rows := by
  intro member
  have sorted := List.pairwise_insertionSort before rows
  have self : before row row := (Std.Total.total (r := before) row row).elim id id
  rw [← List.take_append_drop limit (rows.insertionSort before)] at sorted
  -- the rows strictly before it are all in the window, and it is one more
  have none_ : ((rows.insertionSort before).drop limit).countP (fun other => before other row && !before row other) = 0 := by
    rw [List.countP_eq_zero]
    intro other dropped
    simp [(List.pairwise_append.mp sorted).2.2 row member other dropped]
  have some_ : ((rows.insertionSort before).take limit).countP (fun other => before other row && !before row other) <
      ((rows.insertionSort before).take limit).length := by
    refine lt_of_le_of_ne List.countP_le_length fun all => ?_
    have strictly := List.countP_eq_length.mp all row member
    simp [self] at strictly
  rw [← (List.perm_insertionSort before rows).countP_eq, ← List.take_append_drop limit (rows.insertionSort before),
    List.countP_append, none_] at full
  have bound := List.length_take_le limit (rows.insertionSort before)
  omega

/-- Where fewer rows are in the way of a row than the window holds, one that is not comes no later than it. -/
theorem exists_mem_window {limit : Nat} {rows : List ρ} {row : ρ} {skipped : ρ → Bool} (member : row ∈ rows)
    (free : skipped row = false) (few : (rows.countP fun other => skipped other && before other row) < limit) :
    ∃ first ∈ window before limit rows, skipped first = false ∧ before first row := by
  by_cases there : row ∈ window before limit rows
  · have self : before row row := (Std.Total.total (r := before) row row).elim id id
    exact ⟨row, there, free, self⟩
  · by_contra none_
    simp only [not_exists, not_and] at none_
    have allSkipped : ∀ first ∈ window before limit rows, (skipped first && decide (before first row)) = true := by
      intro first isFirst
      have earlier := before_of_not_mem_window member there isFirst
      have isSkipped : skipped first = true := by
        by_contra notSkipped
        exact none_ first isFirst (Bool.eq_false_iff.mpr notSkipped) earlier
      simp [isSkipped, earlier]
    have full := List.countP_eq_length.mpr allSkipped
    rw [length_window_of_not_mem member there] at full
    have bound := ((List.take_sublist limit (rows.insertionSort before)).countP_le
      (p := fun other => skipped other && before other row)).trans_eq ((List.perm_insertionSort before rows).countP_eq _)
    rw [window] at full
    omega

end Window

variable {κ ρ : Type} [DecidableEq κ] {key : ρ → κ}

/-! ## Rows that wait -/

/-- No row of `t'` waits that did not wait in `t`. -/
def NoneJoins (waits : ρ → Bool) (t t' : Table key) : Prop :=
  ∀ k new, t'.find? k = some new → waits new → ∃ old, t.find? k = some old ∧ waits old

namespace NoneJoins

variable {waits : ρ → Bool} {t t₁ t' : Table key}

theorem refl (t : Table key) : NoneJoins waits t t := fun _ new found waitsNew => ⟨new, found, waitsNew⟩

theorem trans (first : NoneJoins waits t t₁) (second : NoneJoins waits t₁ t') : NoneJoins waits t t' := by
  intro k new found waitsNew
  obtain ⟨between, foundBetween, waitsBetween⟩ := second k new found waitsNew
  exact first k between foundBetween waitsBetween

/-- The table has changed at one key, where a row waits now only if the old one did. -/
theorem of_others {k : κ} (others : ∀ k', k' ≠ k → t'.find? k' = t.find? k')
    (own : ∀ new, t'.find? k = some new → waits new → ∃ old, t.find? k = some old ∧ waits old) : NoneJoins waits t t' := by
  intro k' new found waitsNew
  by_cases same : k' = k
  · subst same
    exact own new found waitsNew
  · exact ⟨new, (others k' same).symm.trans found, waitsNew⟩

/-- The keys of the rows that wait. -/
def waiting (waits : ρ → Bool) (t : Table key) : List κ := (t.rows.filter waits).map key

omit [DecidableEq κ] in
theorem length_waiting (waits : ρ → Bool) (t : Table key) : (waiting waits t).length = t.count waits := List.length_map ..

theorem mem_waiting_iff {k : κ} : k ∈ waiting waits t ↔ ∃ row, t.find? k = some row ∧ waits row := by
  constructor
  · intro member
    obtain ⟨row, isWaiting, rfl⟩ := List.mem_map.mp member
    obtain ⟨isRow, waitsRow⟩ := List.mem_filter.mp isWaiting
    exact ⟨row, Table.find?_key_of_mem isRow, waitsRow⟩
  · intro ⟨row, found, waitsRow⟩
    rw [← Table.key_of_find? found]
    exact List.mem_map_of_mem (List.mem_filter.mpr ⟨Table.mem_of_find? found, waitsRow⟩)

omit [DecidableEq κ] in
theorem nodup_waiting (waits : ρ → Bool) (t : Table key) : (waiting waits t).Nodup :=
  t.nodup.sublist (List.filter_sublist.map key)

theorem waiting_subset (joins : NoneJoins waits t t') : waiting waits t' ⊆ waiting waits t := by
  intro k member
  obtain ⟨new, found, waitsNew⟩ := mem_waiting_iff.mp member
  exact mem_waiting_iff.mpr (joins k new found waitsNew)

theorem count_le (joins : NoneJoins waits t t') : t'.count waits ≤ t.count waits := by
  have bound := (List.subperm_of_subset (nodup_waiting waits t') joins.waiting_subset).length_le
  rwa [length_waiting, length_waiting] at bound

/-- A row that has stopped to wait is one less, as none has joined. -/
theorem count_lt (joins : NoneJoins waits t t') {row : ρ} (found : t.find? (key row) = some row) (waited : waits row)
    (gone : ∀ new, t'.find? (key row) = some new → waits new = false) : t'.count waits < t.count waits := by
  have notWaiting : key row ∉ waiting waits t' := by
    intro member
    obtain ⟨new, isNew, waitsNew⟩ := mem_waiting_iff.mp member
    rw [gone new isNew] at waitsNew
    cases waitsNew
  have subset : key row :: waiting waits t' ⊆ waiting waits t :=
    List.cons_subset.mpr ⟨mem_waiting_iff.mpr ⟨row, found, waited⟩, joins.waiting_subset⟩
  have nodup := List.nodup_cons.mpr ⟨notWaiting, nodup_waiting waits t'⟩
  have bound := (List.subperm_of_subset nodup subset).length_le
  rwa [List.length_cons, length_waiting, length_waiting] at bound

end NoneJoins

/-! ## One tick -/

section Pass

variable {σ : Type}

/-- The rows are taken up one by one: `one row s s' goesOn` takes one up, and unless it goes on the tick ends there. -/
inductive Pass (one : ρ → σ → σ → Bool → Prop) : List ρ → σ → σ → Prop
  | nil (s : σ) : Pass one [] s s
  | next {row : ρ} {rows : List ρ} {s s₁ s' : σ} : one row s s₁ true → Pass one rows s₁ s' → Pass one (row :: rows) s s'
  | ends {row : ρ} {rows : List ρ} {s s' : σ} : one row s s' false → Pass one (row :: rows) s s'

/-- What a tick makes of the rows that come no later than `row`.  `fit` is what serving a row takes of the state. -/
structure Serves (table : σ → Table key) (before : ρ → ρ → Prop) (row : ρ) (one : ρ → σ → σ → Bool → Prop)
    (hot skipped waits : ρ → Bool) (fit : σ → Prop) (served : ρ → ρ → Prop) : Prop where
  waiting : ∀ r, hot r → before r row → waits r
  others : ∀ r s s' goesOn, one r s s' goesOn → (table s).find? (key r) = some r → hot r →
    ∀ k, k ≠ key r → (table s').find? k = (table s).find? k
  fits : ∀ r s s' goesOn, one r s s' goesOn → (table s).find? (key r) = some r → hot r → before r row → fit s → fit s'
  skips : ∀ r s s' goesOn, one r s s' goesOn → skipped r → goesOn = true ∧ table s' = table s
  serves : ∀ r s s' goesOn, one r s s' goesOn → (table s).find? (key r) = some r → hot r → before r row → skipped r = false →
    fit s → ∃ new, (table s').find? (key r) = some new ∧ waits new = false ∧ served r new

namespace Serves

variable {table : σ → Table key} {before : ρ → ρ → Prop} {row : ρ} {one : ρ → σ → σ → Bool → Prop}
  {hot skipped waits : ρ → Bool} {fit : σ → Prop} {served : ρ → ρ → Prop}

/-- Taking up a row makes none wait, and one less if it is served. -/
theorem one_cases (contract : Serves table before row one hot skipped waits fit served) {r : ρ} {s s' : σ} {goesOn : Bool}
    (taken : one r s s' goesOn) (found : (table s).find? (key r) = some r) (isHot : hot r) (earlier : before r row)
    (isFit : fit s) :
    NoneJoins waits (table s) (table s') ∧
      (skipped r = false → (table s').count waits < (table s).count waits) := by
  cases isSkipped : skipped r with
  | true =>
    rw [(contract.skips r s s' goesOn taken isSkipped).2]
    exact ⟨.refl _, fun never => by cases never⟩
  | false =>
    obtain ⟨new, isNew, gone, -⟩ := contract.serves r s s' goesOn taken found isHot earlier isSkipped isFit
    have isGone : ∀ new', (table s').find? (key r) = some new' → waits new' = false := by
      intro new' isNew'
      rw [isNew, Option.some.injEq] at isNew'
      exact isNew' ▸ gone
    have joins : NoneJoins waits (table s) (table s') := by
      refine .of_others (contract.others r s s' goesOn taken found isHot) fun new' isNew' waitsNew => ?_
      rw [isGone new' isNew'] at waitsNew
      cases waitsNew
    exact ⟨joins, fun _ => joins.count_lt found (contract.waiting r isHot earlier) isGone⟩

/-- The rows are in the table as they were read, and hot. -/
structure Read (table : σ → Table key) (hot : ρ → Bool) (rows : List ρ) (s : σ) : Prop where
  found : ∀ r ∈ rows, (table s).find? (key r) = some r
  isHot : ∀ r ∈ rows, hot r
  distinct : (rows.map key).Nodup

theorem Read.next {first : ρ} {rows : List ρ} {s s' : σ} (read : Read table hot (first :: rows) s)
    (others : ∀ k, k ≠ key first → (table s').find? k = (table s).find? k) : Read table hot rows s' where
  found r member := by
    have ne : key r ≠ key first := by
      intro same
      exact (List.nodup_cons.mp read.distinct).1 (same ▸ List.mem_map_of_mem member)
    rw [others _ ne]
    exact read.found r (List.mem_cons_of_mem first member)
  isHot r member := read.isHot r (List.mem_cons_of_mem first member)
  distinct := (List.nodup_cons.mp read.distinct).2

/-- A pass leaves what it does not take up. -/
theorem untouched (contract : Serves table before row one hot skipped waits fit served) {rows : List ρ} {s s' : σ}
    (pass : Pass one rows s s') (read : Read table hot rows s) {k : κ} (notRead : k ∉ rows.map key) :
    (table s').find? k = (table s).find? k := by
  induction pass with
  | nil => rfl
  | @next first rows s s₁ s' taken _ inductionHypothesis =>
    simp only [List.map_cons, List.mem_cons, not_or] at notRead
    have others := contract.others _ _ _ _ taken (read.found first List.mem_cons_self) (read.isHot first List.mem_cons_self)
    exact (inductionHypothesis (read.next others) notRead.2).trans (others k notRead.1)
  | @ends first rows s s' taken =>
    simp only [List.map_cons, List.mem_cons, not_or] at notRead
    exact contract.others _ _ _ _ taken (read.found first List.mem_cons_self) (read.isHot first List.mem_cons_self) k notRead.1

/-- A pass over rows that come before `row` lets none join, and where one of them can be served fewer wait. -/
theorem pass_before (contract : Serves table before row one hot skipped waits fit served) {rows : List ρ} {s s' : σ}
    (pass : Pass one rows s s') (read : Read table hot rows s) (earlier : ∀ r ∈ rows, before r row) (isFit : fit s) :
    (table s').count waits ≤ (table s).count waits ∧
      ((∃ r ∈ rows, skipped r = false) → (table s').count waits < (table s).count waits) := by
  induction pass with
  | nil => simp
  | @next first rows s s₁ s' taken _ inductionHypothesis =>
    have found := read.found first List.mem_cons_self
    have isHot := read.isHot first List.mem_cons_self
    have isEarlier := earlier first List.mem_cons_self
    obtain ⟨joins, leaves⟩ := contract.one_cases taken found isHot isEarlier isFit
    obtain ⟨fewer, rest⟩ := inductionHypothesis (read.next (contract.others _ _ _ _ taken found isHot))
      (fun r member => earlier r (List.mem_cons_of_mem first member)) (contract.fits _ _ _ _ taken found isHot isEarlier isFit)
    refine ⟨fewer.trans joins.count_le, fun ⟨r, member, free⟩ => ?_⟩
    cases List.mem_cons.mp member with
    | inl same => exact fewer.trans_lt (leaves (same ▸ free))
    | inr member => exact (rest ⟨r, member, free⟩).trans_le joins.count_le
  | @ends first rows s s' taken =>
    obtain ⟨joins, leaves⟩ := contract.one_cases taken (read.found first List.mem_cons_self)
      (read.isHot first List.mem_cons_self) (earlier first List.mem_cons_self) isFit
    -- a row that is skipped does not end the tick
    cases isSkipped : skipped first with
    | true => cases (contract.skips _ _ _ _ taken isSkipped).1
    | false => exact ⟨joins.count_le, fun _ => leaves isSkipped⟩

/-- A pass over rows in order, `row` among them, serves it, or ends before it and leaves fewer that wait. -/
theorem pass_own [Std.Total before] (contract : Serves table before row one hot skipped waits fit served) {rows : List ρ}
    {s s' : σ} (pass : Pass one rows s s') (read : Read table hot rows s) (sorted : rows.Pairwise before) (member : row ∈ rows)
    (free : skipped row = false) (isFit : fit s) :
    (∃ new, (table s').find? (key row) = some new ∧ served row new) ∨
      ((table s').find? (key row) = some row ∧ (table s').count waits < (table s).count waits) := by
  have self : before row row := (Std.Total.total (r := before) row row).elim id id
  induction pass with
  | nil => cases member
  | @next first rows s s₁ s' taken rest inductionHypothesis =>
    have found := read.found first List.mem_cons_self
    have isHot := read.isHot first List.mem_cons_self
    by_cases own : row = first
    · subst own
      obtain ⟨new, isNew, -, isServed⟩ := contract.serves _ _ _ _ taken found isHot self free isFit
      have kept := contract.untouched rest (read.next (contract.others _ _ _ _ taken found isHot))
        (List.nodup_cons.mp read.distinct).1
      exact .inl ⟨new, kept.trans isNew, isServed⟩
    · have later := (List.mem_cons.mp member).resolve_left own
      obtain ⟨isEarlier, sortedRest⟩ := List.pairwise_cons.mp sorted
      obtain ⟨joins, -⟩ := contract.one_cases taken found isHot (isEarlier row later) isFit
      have fitNext := contract.fits _ _ _ _ taken found isHot (isEarlier row later) isFit
      cases inductionHypothesis (read.next (contract.others _ _ _ _ taken found isHot)) sortedRest later fitNext with
      | inl isServed => exact .inl isServed
      | inr kept => exact .inr ⟨kept.1, kept.2.trans_le joins.count_le⟩
  | @ends first rows s s' taken =>
    have found := read.found first List.mem_cons_self
    have isHot := read.isHot first List.mem_cons_self
    by_cases own : row = first
    · subst own
      obtain ⟨new, isNew, -, isServed⟩ := contract.serves _ _ _ _ taken found isHot self free isFit
      exact .inl ⟨new, isNew, isServed⟩
    · have later := (List.mem_cons.mp member).resolve_left own
      have isEarlier := (List.pairwise_cons.mp sorted).1 row later
      have ne : key row ≠ key first := by
        intro same
        exact (List.nodup_cons.mp read.distinct).1 (same ▸ List.mem_map_of_mem later)
      have kept := (contract.others _ _ _ _ taken found isHot (key row) ne).trans (read.found row member)
      cases isSkipped : skipped first with
      | true => cases (contract.skips _ _ _ _ taken isSkipped).1
      | false => exact .inr ⟨kept, (contract.one_cases taken found isHot isEarlier isFit).2 isSkipped⟩

theorem read_window [DecidableRel before] (limit : Nat) (hot : ρ → Bool) (s : σ) :
    Read table hot (window before limit ((table s).rows.filter hot)) s where
  found _ member := Table.find?_key_of_mem (List.mem_filter.mp (mem_of_mem_window member)).1
  isHot _ member := (List.mem_filter.mp (mem_of_mem_window member)).2
  distinct := nodup_window limit ((table s).nodup.sublist (List.filter_sublist.map key))

/-- What the window does not hold it does not hold under its key. -/
theorem not_mem_keys [DecidableRel before] {limit : Nat} {hot : ρ → Bool} {s : σ}
    (found : (table s).find? (key row) = some row) (missing : row ∉ window before limit ((table s).rows.filter hot)) :
    key row ∉ (window before limit ((table s).rows.filter hot)).map key := by
  intro taken
  obtain ⟨r, isRead, same⟩ := List.mem_map.mp taken
  have isRow := (same ▸ (read_window limit hot s).found r isRead).symm.trans found
  rw [Option.some.injEq] at isRow
  exact missing (isRow ▸ isRead)

/-- One tick serves `row`, or fewer rows wait after it. -/
theorem tick [DecidableRel before] [Std.Total before] [IsTrans ρ before]
    (contract : Serves table before row one hot skipped waits fit served) {limit : Nat} {s s' : σ}
    (pass : Pass one (window before limit ((table s).rows.filter hot)) s s') (found : (table s).find? (key row) = some row)
    (isHot : hot row) (free : skipped row = false) (isFit : fit s)
    (few : ((table s).rows.countP fun r => hot r && (skipped r && before r row)) < limit) :
    (∃ new, (table s').find? (key row) = some new ∧ served row new) ∨
      ((table s').find? (key row) = some row ∧ (table s').count waits < (table s).count waits) := by
  have read : Read table hot (window before limit ((table s).rows.filter hot)) s := read_window limit hot s
  have member := List.mem_filter.mpr ⟨Table.mem_of_find? found, isHot⟩
  have fewHot : (((table s).rows.filter hot).countP fun r => skipped r && before r row) < limit := by
    rw [List.countP_filter]
    refine (List.countP_congr fun r _ => ?_).trans_lt few
    simp only [Bool.and_eq_true]
    tauto
  by_cases there : row ∈ window before limit ((table s).rows.filter hot)
  · exact contract.pass_own pass read (sorted_window _ _) there free isFit
  · -- all of the window comes before the row
    have earlier : ∀ r ∈ window before limit ((table s).rows.filter hot), before r row :=
      fun r => before_of_not_mem_window member there
    have notRead := not_mem_keys found there
    obtain ⟨first, isFirst, isFree, -⟩ := exists_mem_window member free fewHot
    exact .inr ⟨(contract.untouched pass read notRead).trans found,
      (contract.pass_before pass read earlier isFit).2 ⟨first, isFirst, isFree⟩⟩

/-- One tick leaves `row` alone, where as many rows that it skips come strictly before it as the window holds. -/
theorem starved [DecidableRel before] [Std.Total before] [IsTrans ρ before]
    (contract : Serves table before row one hot skipped waits fit served) {limit : Nat} {s s' : σ}
    (pass : Pass one (window before limit ((table s).rows.filter hot)) s s') (found : (table s).find? (key row) = some row)
    (full : limit ≤ (table s).rows.countP fun r => hot r && (skipped r && (before r row && !before row r))) :
    (table s').find? (key row) = some row := by
  have fullHot : limit ≤ ((table s).rows.filter hot).countP fun r => before r row && !before row r := by
    rw [List.countP_filter]
    refine full.trans (List.countP_mono_left fun r _ => ?_)
    simp only [Bool.and_eq_true]
    tauto
  exact (contract.untouched pass (read_window limit hot s) (not_mem_keys found (not_mem_window fullHot))).trans found

end Serves

end Pass

/-! ## Runs -/

/-- Where every tick serves the row or leaves fewer that wait, no more ticks are needed than the table has rows. -/
theorem served_within {σ ι : Type} {step : σ → ι → σ} (table : σ → Table key) {ok : σ → ι → Prop} {row : ρ} {waits : ρ → Bool}
    {served : ι → ρ → ρ → Prop} (waitsRow : waits row)
    (tick : ∀ s call, ok s call → (table s).find? (key row) = some row →
      (∃ new, (table (step s call)).find? (key row) = some new ∧ served call row new) ∨
        ((table (step s call)).find? (key row) = some row ∧ (table (step s call)).count waits < (table s).count waits))
    {s : σ} {calls : List ι} (found : (table s).find? (key row) = some row) (along : Along step ok s calls)
    (enough : (table s).rows.length ≤ calls.length) :
    ∃ earlier call later, calls = earlier ++ call :: later ∧
      ∃ new, (table (step (run step s earlier) call)).find? (key row) = some new ∧ served call row new := by
  have isWaiting : ∀ s, (table s).find? (key row) = some row → 0 < (table s).count waits := fun s found =>
    (Table.count_pos_iff _ _).mpr ⟨row, found, waitsRow⟩
  refine exists_done (fun s => (table s).count waits) isWaiting (fun s call there isOk => tick s call isOk there) found along ?_
  exact (List.length_filter_le _ _).trans enough

end Tape.Sql
