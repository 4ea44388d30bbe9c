import Mathlib.Data.List.Dedup
import Mathlib.Data.List.DropRight
import Mathlib.Data.List.Perm.Subperm

/-! # Least recently used

A cache of at most `size` keys, the one that was asked for longest ago first.  A key that is in the
cache moves to the end; one that is not is put there, and the oldest keys make room for it.

After any sequence of requests the cache holds the `size` keys that were asked for last: without
repetition and in the order of their last request.  So a key is found exactly if fewer than `size`
different keys were asked for since it was.
-/

namespace Tape.Lru

variable {κ : Type} [DecidableEq κ] {size : Nat} {cache past : List κ} {k : κ}

/-- What a request for `k` makes of the cache. -/
def touch (size : Nat) (cache : List κ) (k : κ) : List κ :=
  if k ∈ cache then cache.erase k ++ [k] else (cache ++ [k]).rtake size

/-- The cache after requests, the oldest first. -/
def after (size : Nat) (past : List κ) : List κ := past.foldl (touch size) []

@[simp] theorem after_nil : after size ([] : List κ) = [] := rfl

@[simp] theorem after_concat (past : List κ) (k : κ) :
    after size (past ++ [k]) = touch size (after size past) k := by
  simp [after]

/-! ## The end of a list -/

section End

omit [DecidableEq κ]

theorem rtake_append_of_le {n : Nat} (front : List κ) {rest : List κ} (enough : n ≤ rest.length) :
    (front ++ rest).rtake n = rest.rtake n := by
  rw [List.rtake_eq_reverse_take_reverse, List.rtake_eq_reverse_take_reverse, List.reverse_append,
    List.take_append_of_le_length (by simpa using enough)]

theorem rtake_of_length_le {n : Nat} {l : List κ} (short : l.length ≤ n) : l.rtake n = l := by
  simp [List.rtake, Nat.sub_eq_zero_of_le short]

/-- A list is what is cut off in front and its end, and nothing is cut off unless the end is full. -/
theorem exists_append_rtake (n : Nat) (l : List κ) :
    ∃ front, l = front ++ l.rtake n ∧ (l.rtake n).length ≤ n ∧ (front = [] ∨ (l.rtake n).length = n) := by
  refine ⟨l.take (l.length - n), (List.take_append_drop _ l).symm, ?_⟩
  have length : (l.rtake n).length = l.length - (l.length - n) := List.length_drop
  by_cases short : l.length ≤ n
  · exact ⟨by omega, .inl (by simp [Nat.sub_eq_zero_of_le short])⟩
  · exact ⟨by omega, .inr (by omega)⟩

end End

/-- The latest request is the last key, and what there was of it before goes. -/
theorem dedup_concat (past : List κ) (k : κ) : (past ++ [k]).dedup = past.dedup.erase k ++ [k] := by
  induction past with
  | nil => rfl
  | cons first past inductionHypothesis =>
    rw [List.cons_append]
    by_cases again : first ∈ past
    · rw [List.dedup_cons_of_mem again, List.dedup_cons_of_mem (List.mem_append_left _ again), inductionHypothesis]
    · rw [List.dedup_cons_of_notMem again]
      by_cases same : first = k
      · subst same
        -- the key was asked for once before, at the very beginning
        have absent : first ∉ past.dedup := by simpa using again
        rw [List.dedup_cons_of_mem (by simp), inductionHypothesis, List.erase_cons_head, List.erase_of_not_mem absent]
      · rw [List.dedup_cons_of_notMem (by simp [again, same]), inductionHypothesis,
          List.erase_cons_tail (by simpa using same), List.cons_append]

/-! ## What the cache holds -/

/-- A request keeps the cache the end of the keys without repetition. -/
theorem touch_rtake {keys : List κ} (distinct : keys.Nodup) (k : κ) :
    touch size (keys.rtake size) k = (keys.erase k ++ [k]).rtake size := by
  obtain ⟨front, split, short, full⟩ := exists_append_rtake size keys
  generalize keys.rtake size = cache at split short full
  subst split
  cases size with
  | zero =>
    have empty : cache = [] := List.eq_nil_of_length_eq_zero (Nat.le_zero.mp short)
    simp [touch, empty]
  | succ n =>
    rw [List.rtake_concat_succ, touch]
    by_cases found : k ∈ cache
    · -- it moves to the end, and nothing has to make room
      have isLater : k ∉ front := fun earlier => List.disjoint_of_nodup_append distinct earlier found
      have length : (cache.erase k).length ≤ n := by
        rw [List.length_erase_of_mem found]
        omega
      rw [if_pos found, List.erase_append_right _ isLater]
      cases full with
      | inl noFront => rw [noFront, List.nil_append, rtake_of_length_le length]
      | inr isFull =>
        have exact : n ≤ (cache.erase k).length := by
          rw [List.length_erase_of_mem found]
          omega
        rw [rtake_append_of_le front exact, rtake_of_length_le length]
    · rw [if_neg found, List.rtake_concat_succ]
      by_cases earlier : k ∈ front
      · -- it was asked for, and has been forgotten since
        have isFull : cache.length = n + 1 := full.resolve_left (List.ne_nil_of_mem earlier)
        rw [List.erase_append_left _ earlier, rtake_append_of_le (front.erase k) (by omega)]
      · have absent : k ∉ front ++ cache := by simp [earlier, found]
        rw [List.erase_of_not_mem absent]
        cases full with
        | inl noFront => rw [noFront, List.nil_append]
        | inr isFull => rw [rtake_append_of_le front (by omega)]

/-- The cache holds the keys that were asked for last. -/
theorem after_eq_rtake (size : Nat) (past : List κ) : after size past = past.dedup.rtake size := by
  induction past using List.reverseRecOn with
  | nil => simp
  | append_singleton past k inductionHypothesis =>
    rw [after_concat, inductionHypothesis, touch_rtake (List.nodup_dedup past), dedup_concat]

omit [DecidableEq κ] in
/-- A list that has a key has it a last time. -/
theorem exists_last {past : List κ} (member : k ∈ past) :
    ∃ earlier later, past = earlier ++ k :: later ∧ k ∉ later := by
  obtain ⟨later, earlier, split, isFirst⟩ := List.eq_append_cons_of_mem (List.mem_reverse.mpr member)
  refine ⟨earlier.reverse, later.reverse, ?_, by simpa using isFirst⟩
  rw [← List.reverse_reverse past, split]
  simp

/-- What was asked for since the last request for the key decides whether the cache still has it. -/
theorem mem_after_of_last {earlier later : List κ} (isLast : k ∉ later) :
    k ∈ after size (earlier ++ k :: later) ↔ later.dedup.length < size := by
  rw [after_eq_rtake, List.dedup_append, List.dedup_cons_of_notMem isLast]
  obtain ⟨front, split⟩ := List.suffix_union_right earlier (k :: later.dedup)
  have distinct : (front ++ k :: later.dedup).Nodup := by
    rw [split, ← List.dedup_cons_of_notMem isLast, ← List.dedup_append]
    exact List.nodup_dedup _
  rw [← split]
  constructor
  · intro found
    by_contra enough
    rw [List.append_cons, rtake_append_of_le _ (Nat.le_of_not_lt enough)] at found
    have isLater : k ∈ later.dedup := List.mem_of_mem_drop found
    exact isLast (List.mem_dedup.mp isLater)
  · intro few
    obtain ⟨cutOff, whole, -, full⟩ := exists_append_rtake size (front ++ k :: later.dedup)
    generalize (front ++ k :: later.dedup).rtake size = kept at whole full
    cases full with
    | inl nothing =>
      have all : front ++ k :: later.dedup = kept := by simpa [nothing] using whole
      simp [← all]
    | inr isFull =>
      -- both are ends of the same list, and the cache is the longer one
      have isEnd : k :: later.dedup <:+ front ++ k :: later.dedup := List.suffix_append ..
      have within : k :: later.dedup <:+ kept :=
        List.suffix_of_suffix_length_le isEnd ⟨cutOff, whole.symm⟩ (by simp only [List.length_cons]; omega)
      exact within.subset List.mem_cons_self

/-- The cache has a key exactly if fewer than `size` different ones were asked for since it was. -/
theorem mem_after_iff {past : List κ} :
    k ∈ after size past ↔
      ∃ earlier later, past = earlier ++ k :: later ∧ k ∉ later ∧ later.dedup.length < size := by
  constructor
  · intro found
    have asked : k ∈ past := by
      rw [after_eq_rtake] at found
      exact List.mem_dedup.mp (List.mem_of_mem_drop found)
    obtain ⟨earlier, later, rfl, isLast⟩ := exists_last asked
    exact ⟨earlier, later, rfl, isLast, (mem_after_of_last isLast).mp found⟩
  · intro recent
    obtain ⟨earlier, later, rfl, isLast, few⟩ := recent
    exact (mem_after_of_last isLast).mpr few

/-- What is not in the cache has not been asked for, or at least `size` other keys have been since any
    request for it. -/
theorem not_mem_after_iff {past : List κ} :
    k ∉ after size past ↔
      ∀ earlier later, past = earlier ++ k :: later → size ≤ (later.filter (· ≠ k)).dedup.length := by
  constructor
  · intro forgotten earlier later split
    subst split
    -- only the last request for the key counts
    by_cases again : k ∈ later
    · obtain ⟨first, last, rfl, isLast⟩ := exists_last again
      have atLast : earlier ++ k :: (first ++ k :: last) = (earlier ++ k :: first) ++ k :: last := by simp
      rw [atLast, mem_after_of_last isLast] at forgotten
      have subset : last.dedup ⊆ ((first ++ k :: last).filter (· ≠ k)).dedup := by
        intro other member
        have inLast : other ∈ last := List.mem_dedup.mp member
        have ne : other ≠ k := fun same => isLast (same ▸ inLast)
        simp [inLast, ne]
      have fewer := (List.subperm_of_subset (List.nodup_dedup last) subset).length_le
      omega
    · have kept : later.filter (· ≠ k) = later := by
        rw [List.filter_eq_self]
        intro other member
        simp only [decide_eq_true_eq]
        exact fun same => again (same ▸ member)
      rw [kept]
      exact Nat.le_of_not_lt fun few => forgotten ((mem_after_of_last again).mpr few)
  · intro many found
    obtain ⟨earlier, later, rfl, isLast, few⟩ := mem_after_iff.mp found
    have enough := many earlier later rfl
    have fewer : ((later.filter (· ≠ k)).dedup).length ≤ later.dedup.length := by
      refine (List.subperm_of_subset (List.nodup_dedup _) ?_).length_le
      intro other member
      exact List.mem_dedup.mpr (List.mem_of_mem_filter (List.mem_dedup.mp member))
    omega

end Tape.Lru
