import Tape.Lin.Check

/-! # The witness of a failed check

`lin::Witness` is documented as the longest prefix the search managed to linearize.  The
checker reads it from the vector the search pushes to, when the search is over; by then
everything has been popped (`check_error_of_not_linearizable`).  So it is a longest prefix
only where no operation can be placed at all (`deepest_prefix_longest_iff`).
-/

namespace Tape.Lin

open Tape.Schedule

section Definitions

variable {State Op Ret : Type} [DecidableEq State] [DecidableEq Ret] (model : Model State Op Ret) (history : List (Event Op Ret))

/-- The prefixes that `tryCandidates` has its calls explore. -/
def exploredBy (descend : State → Search history.length State → Bool × Search history.length State)
    (explore : State → Search history.length State → List (List (Fin history.length))) (state : State) :
    List (Fin history.length) → Search history.length State → List (List (Fin history.length))
  | [], _ => []
  | cand :: rest, search =>
    let (nextState, expectedRet) := model.apply state (history.get cand).op
    if expectedRet = (history.get cand).ret then
      let pos := search.pending.idxOf cand
      let pushed := ⟨search.pending.eraseIdx pos, search.linearized ++ [cand], search.visited⟩
      let (found, search) := descend nextState pushed
      if found then explore nextState pushed
      else
        explore nextState pushed ++ exploredBy descend explore state rest
          ⟨search.pending.insertIdx pos cand, search.linearized.dropLast, search.visited⟩
    else exploredBy descend explore state rest search

/-- What `linearized` holds at each call of `recurse`, first call first. -/
def explored : Nat → State → Search history.length State → List (List (Fin history.length))
  | 0, _, search => [search.linearized]
  | depth + 1, state, search =>
    search.linearized ::
      if search.pending.isEmpty then []
      else if (search.pending.insertionSort (· ≤ ·), state) ∈ search.visited then []
      else
        exploredBy model history (recurse model history depth) (explored depth) state
          (candidates history search.pending) search

/-- All prefixes the search of `check` explores. -/
def exploredPrefixes : List (List (Event Op Ret)) :=
  (explored model history history.length model.initial (.start history.length State)).map (·.map history.get)

end Definitions

section Reference

variable {State Op Ret : Type}

/-- The events respect real time, and the model answers them as their clients observed. -/
structure IsPartial (model : Model State Op Ret) (order : List (Event Op Ret)) : Prop where
  realTime : order.Pairwise fun first second => ¬ second.before first
  returns : (model.run (order.map Event.op)).2 = order.map Event.ret

/-- A longest one of the prefixes that are partial linearizations. -/
structure IsLongest (model : Model State Op Ret) (prefixes : List (List (Event Op Ret)))
    (witness : List (Event Op Ret)) : Prop where
  member : witness ∈ prefixes
  isPartial : IsPartial model witness
  longest : ∀ other ∈ prefixes, IsPartial model other → other.length ≤ witness.length

/-- An operation that may come first, and that the model answers in its initial state as
    its client observed. -/
def ConsistentFirst (model : Model State Op Ret) (history : List (Event Op Ret)) : Prop :=
  ∃ event ∈ history, (∀ other ∈ history, ¬ other.before event) ∧ (model.apply model.initial event.op).2 = event.ret

theorem isPartial_nil (model : Model State Op Ret) : IsPartial model [] := ⟨.nil, rfl⟩

theorem isPartial_singleton {model : Model State Op Ret} {event : Event Op Ret} :
    IsPartial model [event] ↔ (model.apply model.initial event.op).2 = event.ret := by
  constructor
  · intro consistent
    simpa [Model.run] using consistent.returns
  · intro same
    exact ⟨by simp, by simpa [Model.run] using same⟩

end Reference

/-! ## The prefixes of one operation -/

section Explored

variable {State Op Ret : Type} [DecidableEq Ret] {model : Model State Op Ret} {history : List (Event Op Ret)}
  {descend : State → Search history.length State → Bool × Search history.length State}
  {explore : State → Search history.length State → List (List (Fin history.length))} {state : State}
  {cand : Fin history.length} {cands : List (Fin history.length)} {search : Search history.length State}

theorem exploredBy_refused (refused : performAt model history state cand = none) :
    exploredBy model history descend explore state (cand :: cands) search =
      exploredBy model history descend explore state cands search := by
  simp only [performAt, Model.perform, ite_eq_right_iff, reduceCtorEq, imp_false] at refused
  rw [exploredBy]
  exact if_neg refused

/-- What the call for a candidate explores comes first. -/
theorem exploredBy_placed {next : State} (placed : performAt model history state cand = some next) :
    explore next (search.place cand) <+: exploredBy model history descend explore state (cand :: cands) search := by
  cases applied : model.apply state (history.get cand).op with
  | mk nextState expectedRet =>
    simp only [performAt, Model.perform, applied, Option.ite_none_right_eq_some, Option.some.injEq] at placed
    obtain ⟨same, rfl⟩ := placed
    rw [Search.place, List.erase_eq_eraseIdx_of_idxOf rfl, exploredBy, applied]
    dsimp only
    rw [if_pos same]
    split
    · exact List.prefix_rfl
    · exact List.prefix_append ..

theorem exploredBy_of_refused (refused : ∀ cand ∈ cands, performAt model history state cand = none) :
    exploredBy model history descend explore state cands search = [] := by
  induction cands with
  | nil => rfl
  | cons cand rest inductionHypothesis =>
    rw [exploredBy_refused (refused cand List.mem_cons_self)]
    exact inductionHypothesis fun other member => refused other (List.mem_cons_of_mem _ member)

/-- The prefix with the first candidate that can be placed is explored. -/
theorem exploredBy_of_placed (starts : ∀ state search, search.linearized ∈ explore state search)
    (placed : ∃ cand ∈ cands, (performAt model history state cand).isSome) :
    ∃ first ∈ cands, (performAt model history state first).isSome ∧
      search.linearized ++ [first] ∈ exploredBy model history descend explore state cands search := by
  induction cands with
  | nil => simp at placed
  | cons cand rest inductionHypothesis =>
    cases does : performAt model history state cand with
    | none =>
      obtain ⟨first, member, placed, isExplored⟩ := inductionHypothesis (by simpa [does] using placed)
      rw [exploredBy_refused does]
      exact ⟨first, List.mem_cons_of_mem _ member, placed, isExplored⟩
    | some next =>
      have pushed := starts next (search.place cand)
      exact ⟨cand, List.mem_cons_self, by simp [does], (exploredBy_placed does).subset pushed⟩

theorem linearized_mem_explored [DecidableEq State] (depth : Nat) (state : State) (search : Search history.length State) :
    search.linearized ∈ explored model history depth state search := by
  cases depth <;> simp [explored]

end Explored

/-! ## The witness -/

section Check

variable {State Op Ret : Type} [DecidableEq State] [DecidableEq Ret] {model : Model State Op Ret}
  {history : List (Event Op Ret)}

/-- **A failed search has popped everything it pushed.** -/
theorem check_error_of_not_linearizable (failed : ¬ Linearizable model history) :
    check model history = .error ⟨[]⟩ := by
  have notFound : (recurse model history history.length model.initial (.start history.length State)).1 = false := by
    rw [← Bool.not_eq_true, ← check_ok_iff]
    exact fun ok => failed (linearizable_of_check_ok model history ok)
  have backtracks : Backtracks model history model.initial (.start history.length State)
      (recurse model history history.length model.initial (.start history.length State)) := recurse_backtracks _ _ _
  obtain ⟨-, linearized⟩ := backtracks.restored notFound
  rw [check]
  split
  · rename_i found
    simp [found] at notFound
  · rename_i search isFailed
    rw [isFailed] at linearized
    have popped : search.linearized = [] := linearized
    rw [popped, List.map_nil]

omit [DecidableEq State] in
theorem performed_iff {state : State} {cand : Fin history.length} : (performAt model history state cand).isSome ↔
    (model.apply state (history.get cand).op).2 = (history.get cand).ret := by
  rw [performAt, Model.perform]
  split
  · rename_i same
    exact iff_of_true rfl same
  · rename_i notSame
    exact iff_of_false Bool.false_ne_true notSame

omit [DecidableEq State] in
theorem consistentFirst_iff : ConsistentFirst model history ↔
    ∃ cand ∈ candidates history (List.finRange history.length), (performAt model history model.initial cand).isSome := by
  constructor
  · intro ⟨event, member, first, same⟩
    obtain ⟨cand, rfl⟩ := List.mem_iff_get.mp member
    exact ⟨cand, mem_candidates.mpr ⟨List.mem_finRange cand, fun other _ => first _ (List.get_mem ..)⟩, performed_iff.mpr same⟩
  · intro ⟨cand, isCandidate, performed⟩
    refine ⟨history.get cand, List.get_mem .., ?_, performed_iff.mp performed⟩
    intro other isOther
    obtain ⟨other, rfl⟩ := List.mem_iff_get.mp isOther
    exact (mem_candidates.mp isCandidate).2 other (List.mem_finRange other)

/-- The search starts with the empty prefix, and goes on with the candidates. -/
theorem exploredPrefixes_eq (some_ : history ≠ []) : ∃ depth, exploredPrefixes model history =
    [] :: (exploredBy model history (recurse model history depth) (explored model history depth) model.initial
      (candidates history (List.finRange history.length)) (.start history.length State)).map (·.map history.get) := by
  obtain ⟨depth, isDepth⟩ := Nat.exists_eq_succ_of_ne_zero fun none_ => some_ (List.length_eq_zero_iff.mp none_)
  refine ⟨depth, ?_⟩
  have pending : (Search.start history.length State).pending.isEmpty = false := by
    rw [List.isEmpty_eq_false_iff, Search.start]
    exact fun nothing => some_ (by simpa using congrArg List.length nothing)
  have deeper : explored model history history.length = explored model history (depth + 1) :=
    congrArg (explored model history) isDepth
  have notVisited : ∀ key, key ∉ (Search.start history.length State).visited := fun _ => List.not_mem_nil
  rw [exploredPrefixes, deeper, explored, pending, if_neg Bool.false_ne_true, if_neg (notVisited _)]
  rfl

/-- **The witness of a failed check is a longest prefix the search explored only if the
    search could not place anything.** -/
theorem deepest_prefix_longest_iff (failed : ¬ Linearizable model history) :
    (∃ witness, check model history = .error witness ∧
      IsLongest model (exploredPrefixes model history) witness.deepestPrefix ∧
      (ConsistentFirst model history → witness.deepestPrefix ≠ [])) ↔ ¬ ConsistentFirst model history := by
  have some_ : history ≠ [] := by
    intro nothing
    subst nothing
    exact failed ⟨[], .nil, .nil, rfl⟩
  obtain ⟨depth, prefixes⟩ := @exploredPrefixes_eq _ _ _ _ _ model history some_
  have errs := check_error_of_not_linearizable failed
  constructor
  · intro ⟨witness, isError, longest, _⟩ consistent
    rw [errs, Except.error.injEq] at isError
    subst isError
    -- a first operation that can be placed makes a longer prefix
    obtain ⟨first, -, performed, isExplored⟩ := exploredBy_of_placed (linearized_mem_explored depth)
      (consistentFirst_iff.mp consistent)
    have same := isPartial_singleton.mpr (performed_iff.mp performed)
    have isPrefix : [history.get first] ∈ exploredPrefixes model history := by
      rw [prefixes]
      exact List.mem_cons_of_mem _ (List.mem_map_of_mem isExplored)
    have short := longest.longest _ isPrefix same
    simp at short
  · intro stuck
    refine ⟨⟨[]⟩, errs, ?_, fun consistent => absurd consistent stuck⟩
    have refused : ∀ cand ∈ candidates history (List.finRange history.length),
        performAt model history model.initial cand = none := by
      intro cand isCandidate
      by_contra placed
      exact stuck (consistentFirst_iff.mpr ⟨cand, isCandidate, Option.isSome_iff_ne_none.mpr placed⟩)
    rw [exploredBy_of_refused refused, List.map_nil] at prefixes
    refine ⟨by simp [prefixes], isPartial_nil model, ?_⟩
    simp [prefixes]

end Check

/-! ## Two winners -/

theorem not_linearizable_two_winners : ¬ Linearizable leaseModel twoWinners := by
  intro linearizable
  have accepted := check_ok_of_linearizable leaseModel twoWinners (by decide) linearizable
  revert accepted
  decide +kernel

theorem consistentFirst_two_winners : ConsistentFirst leaseModel twoWinners := by
  refine ⟨claimEvent "A" "A" 0 20, by decide, ?_⟩
  simp [Event.before, twoWinners, claimEvent, leaseModel]

/-- Either claim could come first, and the witness has none of them. -/
theorem two_winners_witness : ¬ ∃ witness, check leaseModel twoWinners = .error witness ∧
    IsLongest leaseModel (exploredPrefixes leaseModel twoWinners) witness.deepestPrefix ∧
      (ConsistentFirst leaseModel twoWinners → witness.deepestPrefix ≠ []) := by
  rw [deepest_prefix_longest_iff not_linearizable_two_winners, not_not]
  exact consistentFirst_two_winners

/-- The check explores the first claim, which is a partial linearization, and reports none. -/
theorem two_winners_deepest_lost : ¬ Linearizable leaseModel twoWinners ∧ ConsistentFirst leaseModel twoWinners ∧
    check leaseModel twoWinners = .error ⟨[]⟩ ∧
      [claimEvent "A" "A" 0 20] ∈ exploredPrefixes leaseModel twoWinners ∧
        IsPartial leaseModel [claimEvent "A" "A" 0 20] :=
  ⟨not_linearizable_two_winners, consistentFirst_two_winners, check_error_of_not_linearizable not_linearizable_two_winners,
    by decide +kernel, isPartial_singleton.mpr rfl⟩

end Tape.Lin
