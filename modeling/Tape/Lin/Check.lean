import Mathlib.Data.Fin.Basic
import Mathlib.Data.List.FinRange
import Mathlib.Data.List.InsertIdx
import Mathlib.Data.List.Sort
import Tape.Lin
import Tape.Schedule

/-! # The linearizability checker

`lin::check`: an exhaustive search for an order of a concurrent history that a
sequential model answers as the clients observed it.  The search pushes to and pops from
two vectors, tries only the operations that began before the earliest end among the
pending ones, and does not return to a pending set and a state it has failed in.

None of the three loses an order: the checker accepts a history exactly when it has a
linearization (`check_ok_iff_linearizable`).
-/

namespace Tape.Lin

open Tape.Schedule

/-- `lin::Event`: one operation as its client observed it. -/
structure Event (Op Ret : Type) where
  process : String
  op : Op
  ret : Ret
  startNs : Nat
  endNs : Nat
  deriving DecidableEq, Repr

/-- The operation was over before the other one began. -/
def Event.before {Op Ret : Type} (first second : Event Op Ret) : Prop := first.endNs < second.startNs

/-- What the search shares between its calls.  An index into the history is in range. -/
structure Search (n : Nat) (State : Type) where
  pending : List (Fin n)
  linearized : List (Fin n)
  visited : List (List (Fin n) × State)
  deriving DecidableEq, Repr

/-- `lin::Witness`. -/
structure Witness (Op Ret : Type) where
  deepestPrefix : List (Event Op Ret)
  deriving DecidableEq, Repr

section Definitions

variable {State Op Ret : Type} [DecidableEq State] [DecidableEq Ret] (model : Model State Op Ret)
  (history : List (Event Op Ret))

/-- `pending` is not empty where the search asks for it. -/
def earliestEnd (pending : List (Fin history.length)) : Nat :=
  ((pending.map fun i => (history.get i).endNs).min?).getD 0

/-- The operations that began before any pending one was over. -/
def candidates (pending : List (Fin history.length)) : List (Fin history.length) :=
  pending.filter fun i => (history.get i).startNs ≤ earliestEnd history pending

/-- States are compared as they are. -/
instance lawfulVisited : LawfulBEq (List (Fin history.length) × State) := inferInstance

/-- The loop of `recurse` over the candidates, where `descend` is the call it makes of itself. -/
def tryCandidates (descend : State → Search history.length State → Bool × Search history.length State) (state : State) :
    List (Fin history.length) → Search history.length State → Bool × Search history.length State
  | [], search => (false, search)
  | cand :: rest, search =>
    let (nextState, expectedRet) := model.apply state (history.get cand).op
    if expectedRet = (history.get cand).ret then
      let pos := search.pending.idxOf cand
      let (found, search) := descend nextState
        ⟨search.pending.eraseIdx pos, search.linearized ++ [cand], search.visited⟩
      if found then (true, search)
      else
        tryCandidates descend state rest
          ⟨search.pending.insertIdx pos cand, search.linearized.dropLast, search.visited⟩
    else tryCandidates descend state rest search

/-- `recurse`.  Each call has one pending operation less, so their number bounds the depth. -/
def recurse : Nat → State → Search history.length State → Bool × Search history.length State
  | 0, _, search => (search.pending.isEmpty, search)
  | depth + 1, state, search =>
    if search.pending.isEmpty then (true, search)
    else
      let key := (search.pending.insertionSort (· ≤ ·), state)
      if key ∈ search.visited then (false, search)
      else
        match tryCandidates model history (recurse depth) state (candidates history search.pending) search with
        | (true, search) => (true, search)
        | (false, search) => (false, { search with visited := key :: search.visited })

/-- What `check` starts the search with. -/
def Search.start (n : Nat) (State : Type) : Search n State := ⟨List.finRange n, [], []⟩

/-- `lin::check`. -/
def check : Except (Witness Op Ret) Unit :=
  match recurse model history history.length model.initial (.start history.length State) with
  | (true, _) => .ok ()
  | (false, search) => .error ⟨search.linearized.map history.get⟩

end Definitions

/-! ## What is searched for -/

section Reference

variable {State Op Ret : Type} [DecidableEq Ret]

/-- The state an operation leaves, if the model answers it as its client observed. -/
def Model.perform (model : Model State Op Ret) (state : State) (event : Event Op Ret) : Option State :=
  if (model.apply state event.op).2 = event.ret then some (model.apply state event.op).1 else none

/-- A permutation of the history that respects real time, along which the model answers
    what the clients observed. -/
structure IsLinearization (model : Model State Op Ret) (history order : List (Event Op Ret)) : Prop where
  perm : order.Perm history
  realTime : order.Pairwise fun first second => ¬ second.before first
  returns : (model.run (order.map Event.op)).2 = order.map Event.ret

def Linearizable (model : Model State Op Ret) (history : List (Event Op Ret)) : Prop :=
  ∃ order, IsLinearization model history order

/-- The model performs the events one after the other just when it answers them as observed. -/
theorem foldlM_perform_iff {model : Model State Op Ret} {order : List (Event Op Ret)} {state : State} :
    order.foldlM model.perform model.initial = some state ↔
      (model.run (order.map Event.op)).2 = order.map Event.ret ∧ (model.run (order.map Event.op)).1 = state := by
  induction order using List.reverseRecOn generalizing state with
  | nil => simp [eq_comm]
  | append_singleton order event inductionHypothesis =>
    rw [List.foldlM_append, List.map_append, List.map_append, List.map_singleton, List.map_singleton, Model.run_concat]
    have answered : ∀ ret, (model.run (order.map Event.op)).2 ++ [ret] = order.map Event.ret ++ [event.ret] ↔
        (model.run (order.map Event.op)).2 = order.map Event.ret ∧ ret = event.ret := by
      intro ret
      constructor
      · intro same
        obtain ⟨rets, last⟩ := List.append_inj' same rfl
        exact ⟨rets, by simpa using last⟩
      · intro ⟨rets, last⟩
        rw [rets, last]
    constructor
    · intro performed
      obtain ⟨middle, first, last⟩ := Option.bind_eq_some_iff.mp performed
      obtain ⟨rets, rfl⟩ := inductionHypothesis.mp first
      simp only [List.foldlM_cons, List.foldlM_nil, Model.perform] at last
      split at last
      · rename_i same
        simp only [Option.bind_eq_bind, Option.bind_some, Option.pure_def, Option.some.injEq] at last
        exact ⟨(answered _).mpr ⟨rets, same⟩, last⟩
      · simp at last
    · intro ⟨answers, state_eq⟩
      obtain ⟨rets, same⟩ := (answered _).mp answers
      have first := inductionHypothesis.mpr ⟨rets, rfl⟩
      simpa [first, Model.perform, same] using state_eq

theorem linearizable_iff_schedulable {model : Model State Op Ret} {history : List (Event Op Ret)} :
    Linearizable model history ↔ Schedulable Event.before model.perform model.initial history := by
  have performed : ∀ order : List (Event Op Ret),
      (order.foldlM model.perform model.initial).isSome ↔
        (model.run (order.map Event.op)).2 = order.map Event.ret := by
    intro order
    simp [Option.isSome_iff_exists, foldlM_perform_iff]
  constructor
  · intro ⟨order, linearization⟩
    exact ⟨order, linearization.perm, linearization.realTime, (performed order).mpr linearization.returns⟩
  · intro ⟨order, schedule⟩
    exact ⟨order, schedule.perm, schedule.ordered, (performed order).mp schedule.performed⟩

end Reference

/-! ## What the search may place next -/

section Candidates

variable {State Op Ret : Type} {history : List (Event Op Ret)}

def beforeAt (history : List (Event Op Ret)) (i j : Fin history.length) : Prop :=
  (history.get i).before (history.get j)

def performAt [DecidableEq Ret] (model : Model State Op Ret) (history : List (Event Op Ret)) (state : State)
    (i : Fin history.length) : Option State := model.perform state (history.get i)

theorem mem_candidates {pending : List (Fin history.length)} {cand : Fin history.length} :
    cand ∈ candidates history pending ↔ cand ∈ pending ∧ ∀ other ∈ pending, ¬ beforeAt history other cand := by
  rw [candidates, List.mem_filter, decide_eq_true_iff]
  refine and_congr_right fun member => ?_
  have some_ : (pending.map fun i => (history.get i).endNs) ≠ [] := by
    simpa using List.ne_nil_of_mem member
  obtain ⟨earliest, isEarliest⟩ := Option.isSome_iff_exists.mp (List.isSome_min?_of_ne_nil some_)
  have least := List.min?_eq_some_iff.mp isEarliest
  rw [earliestEnd, isEarliest, Option.getD_some]
  constructor
  · intro began other isOther isBefore
    have late : earliest ≤ (history.get other).endNs := least.2 _ (List.mem_map_of_mem isOther)
    simp only [beforeAt, Event.before] at isBefore
    omega
  · intro free
    obtain ⟨other, isOther, ends⟩ := List.mem_map.mp least.1
    have notBefore := free other isOther
    simp only [beforeAt, Event.before] at notBefore
    omega

end Candidates

/-! ## One turn of the loop -/

section Loop

variable {State Op Ret : Type} [DecidableEq Ret] {model : Model State Op Ret} {history : List (Event Op Ret)}
  {descend : State → Search history.length State → Bool × Search history.length State} {state : State}
  {cand : Fin history.length} {rest : List (Fin history.length)} {search : Search history.length State}

/-- The search in which `cand` is placed next. -/
def Search.place {n : Nat} (search : Search n State) (cand : Fin n) : Search n State :=
  ⟨search.pending.erase cand, search.linearized ++ [cand], search.visited⟩

theorem tryCandidates_refused (refused : performAt model history state cand = none) :
    tryCandidates model history descend state (cand :: rest) search =
      tryCandidates model history descend state rest search := by
  simp only [performAt, Model.perform, ite_eq_right_iff, reduceCtorEq, imp_false] at refused
  rw [tryCandidates]
  exact if_neg refused

variable {next : State} (placed : performAt model history state cand = some next)

include placed

theorem tryCandidates_found (found : (descend next (search.place cand)).1 = true) :
    tryCandidates model history descend state (cand :: rest) search = (true, (descend next (search.place cand)).2) := by
  simp only [performAt, Model.perform, Option.ite_none_right_eq_some, Option.some.injEq] at placed
  obtain ⟨same, rfl⟩ := placed
  rw [Search.place, List.erase_eq_eraseIdx_of_idxOf rfl] at found ⊢
  rw [tryCandidates]
  refine (if_pos same).trans ?_
  simp only [found, if_true]

/-- What a failed call pushed is popped, and its operation is pending where it was. -/
theorem tryCandidates_backtracked (member : cand ∈ search.pending)
    (failed : (descend next (search.place cand)).1 = false)
    (pending : (descend next (search.place cand)).2.pending = (search.place cand).pending)
    (linearized : (descend next (search.place cand)).2.linearized = (search.place cand).linearized) :
    tryCandidates model history descend state (cand :: rest) search =
      tryCandidates model history descend state rest
        { search with visited := (descend next (search.place cand)).2.visited } := by
  simp only [performAt, Model.perform, Option.ite_none_right_eq_some, Option.some.injEq] at placed
  obtain ⟨same, rfl⟩ := placed
  have inRange := List.idxOf_lt_length_of_mem member
  have put : (search.pending.eraseIdx (search.pending.idxOf cand)).insertIdx (search.pending.idxOf cand) cand =
      search.pending := by
    simpa using List.insertIdx_eraseIdx_getElem inRange
  rw [Search.place, List.erase_eq_eraseIdx_of_idxOf rfl] at failed pending linearized ⊢
  rw [tryCandidates]
  refine (if_pos same).trans ?_
  simp only [failed, pending, linearized, put, List.dropLast_concat, Bool.false_eq_true, if_false]

end Loop

/-! ## Backtracking -/

section Backtracking

variable {State Op Ret : Type} [DecidableEq Ret] (model : Model State Op Ret) (history : List (Event Op Ret))

/-- What a call of the search does to the vectors: it leaves them as they were if it
    fails, and otherwise has pushed a schedule of what was pending. -/
structure Backtracks (state : State) (search : Search history.length State)
    (result : Bool × Search history.length State) : Prop where
  restored : result.1 = false → result.2.pending = search.pending ∧ result.2.linearized = search.linearized
  pushed : result.1 = true → ∃ order, result.2.linearized = search.linearized ++ order ∧
    IsSchedule (beforeAt history) (performAt model history) state search.pending order

variable {model} {history} {descend : State → Search history.length State → Bool × Search history.length State}

theorem tryCandidates_backtracks (descends : ∀ state search, Backtracks model history state search (descend state search))
    (state : State) {cands : List (Fin history.length)} (search : Search history.length State)
    (among : ∀ cand ∈ cands, cand ∈ candidates history search.pending) :
    Backtracks model history state search (tryCandidates model history descend state cands search) := by
  induction cands generalizing search with
  | nil => exact ⟨fun _ => ⟨rfl, rfl⟩, fun found => by cases found⟩
  | cons cand rest inductionHypothesis =>
    have isCandidate := mem_candidates.mp (among cand List.mem_cons_self)
    have others : ∀ cand ∈ rest, cand ∈ candidates history search.pending :=
      fun cand member => among cand (List.mem_cons_of_mem _ member)
    cases placed : performAt model history state cand with
    | none =>
      rw [tryCandidates_refused placed]
      exact inductionHypothesis search others
    | some next =>
      have below := descends next (search.place cand)
      cases found : (descend next (search.place cand)).1 with
      | false =>
        obtain ⟨pending, linearized⟩ := below.restored found
        rw [tryCandidates_backtracked placed isCandidate.1 found pending linearized]
        have later := inductionHypothesis
          { search with visited := (descend next (search.place cand)).2.visited } others
        exact ⟨later.restored, later.pushed⟩
      | true =>
        rw [tryCandidates_found placed found]
        obtain ⟨order, linearized, schedule⟩ := below.pushed found
        have free : ∀ other ∈ search.pending.erase cand, ¬ beforeAt history other cand :=
          fun other isOther => isCandidate.2 other (List.mem_of_mem_erase isOther)
        refine ⟨fun failed => (by cases failed), fun _ => ⟨cand :: order, ?_, ?_⟩⟩
        · simpa [Search.place] using linearized
        · exact isSchedule_cons.mpr ⟨isCandidate.1, free, next, placed, schedule⟩

/-- The step of the search: it is done, it was here before, or it tries the candidates. -/
theorem recurse_succ [DecidableEq State] (depth : Nat) (state : State) (search : Search history.length State) :
    recurse model history (depth + 1) state search =
      if search.pending = [] then (true, search)
      else if (search.pending.insertionSort (· ≤ ·), state) ∈ search.visited then (false, search)
      else
        let tried := tryCandidates model history (recurse model history depth) state
          (candidates history search.pending) search
        if tried.1 then tried
        else (false, { tried.2 with
          visited := (search.pending.insertionSort (· ≤ ·), state) :: tried.2.visited }) := by
  rw [recurse]
  simp only [List.isEmpty_iff]
  split
  · rfl
  · split
    · rfl
    · split
      · rename_i tried
        simp [tried]
      · rename_i tried
        simp [tried]

theorem recurse_backtracks [DecidableEq State] (depth : Nat) (state : State) (search : Search history.length State) :
    Backtracks model history state search (recurse model history depth state search) := by
  have nothingLeft {state : State} {search : Search history.length State} (done : search.pending = []) :
      Backtracks model history state search (true, search) := by
    refine ⟨fun failed => (by cases failed), fun _ => ⟨[], by simp, ?_⟩⟩
    rw [done]
    exact isSchedule_nil.mpr rfl
  have failed {state : State} {search : Search history.length State} :
      Backtracks model history state search (false, search) :=
    ⟨fun _ => ⟨rfl, rfl⟩, fun found => by cases found⟩
  induction depth generalizing state search with
  | zero =>
    rw [recurse]
    cases done : search.pending.isEmpty with
    | true => exact nothingLeft (List.isEmpty_iff.mp done)
    | false => exact failed
  | succ depth inductionHypothesis =>
    rw [recurse_succ]
    have tried := tryCandidates_backtracks inductionHypothesis state search fun _ => id
    split
    · exact nothingLeft ‹_›
    · split
      · exact failed
      · dsimp only
        split
        · exact tried
        · rename_i exhausted
          exact ⟨fun _ => tried.restored (by simpa using exhausted), fun found => by cases found⟩

end Backtracking

/-! ## What a failed search has shown -/

section Refuting

variable {State Op Ret : Type} [DecidableEq Ret] (model : Model State Op Ret) (history : List (Event Op Ret))

/-- Nothing the memo table holds can be scheduled. -/
def Refuted (visited : List (List (Fin history.length) × State)) : Prop :=
  ∀ pending state, (pending, state) ∈ visited →
    ¬ Schedulable (beforeAt history) (performAt model history) state pending

/-- A call that fails has shown that what is pending cannot be scheduled, and so have
    all the calls whose keys it leaves in the table. -/
def Refutes (state : State) (search : Search history.length State)
    (result : Bool × Search history.length State) : Prop :=
  Refuted model history search.visited → result.1 = false → Refuted model history result.2.visited ∧
    ¬ Schedulable (beforeAt history) (performAt model history) state search.pending

variable {model} {history}

theorem tryCandidates_refutes {descend : State → Search history.length State → Bool × Search history.length State}
    (backtracks : ∀ state search, Backtracks model history state search (descend state search)) {state : State}
    {cands : List (Fin history.length)} {search : Search history.length State}
    (descends : ∀ next, ∀ cand ∈ search.pending, ∀ visited,
      Refutes model history next ({ search with visited := visited }.place cand)
        (descend next ({ search with visited := visited }.place cand)))
    (among : ∀ cand ∈ cands, cand ∈ search.pending) (refuted : Refuted model history search.visited)
    (failed : (tryCandidates model history descend state cands search).1 = false) :
    Refuted model history (tryCandidates model history descend state cands search).2.visited ∧
      ∀ cand ∈ cands, ∀ next, performAt model history state cand = some next →
        ¬ Schedulable (beforeAt history) (performAt model history) next (search.pending.erase cand) := by
  induction cands generalizing search with
  | nil => exact ⟨refuted, by simp⟩
  | cons cand rest inductionHypothesis =>
    have isPending := among cand List.mem_cons_self
    have others : ∀ cand ∈ rest, cand ∈ search.pending := fun cand member => among cand (List.mem_cons_of_mem _ member)
    cases placed : performAt model history state cand with
    | none =>
      rw [tryCandidates_refused placed] at failed ⊢
      obtain ⟨visited, later⟩ := inductionHypothesis descends others refuted failed
      refine ⟨visited, List.forall_mem_cons.mpr ⟨?_, later⟩⟩
      simp [placed]
    | some next =>
      cases found : (descend next (search.place cand)).1 with
      | true =>
        rw [tryCandidates_found placed found] at failed
        cases failed
      | false =>
        obtain ⟨pending, linearized⟩ := (backtracks next (search.place cand)).restored found
        rw [tryCandidates_backtracked placed isPending found pending linearized] at failed ⊢
        obtain ⟨below, notBelow⟩ := descends next cand isPending search.visited refuted found
        -- the loop goes on with the vectors as they were, and with a larger table
        obtain ⟨visited, later⟩ := @inductionHypothesis
          { search with visited := (descend next (search.place cand)).2.visited } descends others below failed
        refine ⟨visited, List.forall_mem_cons.mpr ⟨?_, later⟩⟩
        intro next' placed'
        rw [placed, Option.some.injEq] at placed'
        exact placed' ▸ notBelow

variable (timed : ∀ event ∈ history, event.startNs ≤ event.endNs)

include timed

omit [DecidableEq Ret] in
/-- An operation that may come first is one of the candidates: it began before it was over. -/
theorem mem_candidates_of_first {pending : List (Fin history.length)} {cand : Fin history.length}
    (member : cand ∈ pending) (first : ∀ other ∈ pending.erase cand, ¬ beforeAt history other cand) :
    cand ∈ candidates history pending := by
  refine mem_candidates.mpr ⟨member, fun other isOther => ?_⟩
  by_cases isCand : other = cand
  · subst isCand
    have itself := timed (history.get other) (List.get_mem ..)
    simp only [beforeAt, Event.before]
    omega
  · exact first other ((List.mem_erase_of_ne isCand).mpr isOther)

theorem recurse_refutes [DecidableEq State] {depth : Nat} {state : State} {search : Search history.length State}
    (enough : search.pending.length ≤ depth) :
    Refutes model history state search (recurse model history depth state search) := by
  induction depth generalizing state search with
  | zero =>
    intro _ failed
    rw [recurse, List.length_eq_zero_iff.mp (Nat.le_zero.mp enough)] at failed
    cases failed
  | succ depth inductionHypothesis =>
    intro refuted failed
    rw [recurse_succ] at failed ⊢
    split at failed
    · cases failed
    rename_i some_
    rw [if_neg some_]
    have sorted := List.perm_insertionSort (· ≤ ·) search.pending
    split at failed
    · -- the table holds what is pending here, in order
      rename_i visited
      rw [if_pos visited]
      exact ⟨refuted, fun schedulable => refuted _ _ visited ((schedulable_of_perm sorted).mpr schedulable)⟩
    · rename_i notVisited
      rw [if_neg notVisited]
      dsimp only at failed ⊢
      split at failed
      · rename_i found
        rw [found] at failed
        cases failed
      · rename_i exhausted
        rw [if_neg exhausted]
        have descends : ∀ next, ∀ cand ∈ search.pending, ∀ visited,
            Refutes model history next ({ search with visited := visited }.place cand)
              (recurse model history depth next ({ search with visited := visited }.place cand)) := by
          intro next cand member visited
          apply inductionHypothesis
          simp only [Search.place, List.length_erase_of_mem member]
          omega
        obtain ⟨visited, none_⟩ := tryCandidates_refutes (recurse_backtracks depth) descends
          (fun cand isCandidate => (mem_candidates.mp isCandidate).1) refuted (by simpa using exhausted)
        have stuck : ¬ Schedulable (beforeAt history) (performAt model history) state search.pending := by
          intro schedulable
          obtain ⟨cand, member, first, next, placed, rest⟩ := (schedulable_iff some_).mp schedulable
          exact none_ cand (mem_candidates_of_first timed member first) next placed rest
        refine ⟨?_, stuck⟩
        intro pending state' member
        rcases List.mem_cons.mp member with isKey | earlier
        · simp only [Prod.mk.injEq] at isKey
          obtain ⟨rfl, rfl⟩ := isKey
          exact fun schedulable => stuck ((schedulable_of_perm sorted).mp schedulable)
        · exact visited pending state' earlier

end Refuting

/-! ## The checker -/

section Check

variable {State Op Ret : Type} [DecidableEq Ret] (model : Model State Op Ret) (history : List (Event Op Ret))

theorem schedulable_start_iff :
    Schedulable (beforeAt history) (performAt model history) model.initial (List.finRange history.length) ↔
      Linearizable model history := by
  have named : Schedulable (beforeAt history) (performAt model history) model.initial (List.finRange history.length) ↔
      Schedulable Event.before model.perform model.initial ((List.finRange history.length).map history.get) :=
    schedulable_map history.get
  rw [named, List.map_get_finRange, linearizable_iff_schedulable]

variable [DecidableEq State]

theorem check_ok_iff :
    check model history = .ok () ↔
      (recurse model history history.length model.initial (.start history.length State)).1 = true := by
  rw [check]
  split
  · rename_i found
    simp [found]
  · rename_i failed
    simp [failed]

/-- Whatever the times are, a history the checker accepts has a linearization. -/
theorem linearizable_of_check_ok (ok : check model history = .ok ()) : Linearizable model history := by
  have backtracks : Backtracks model history model.initial (.start history.length State)
      (recurse model history history.length model.initial (.start history.length State)) := recurse_backtracks _ _ _
  obtain ⟨order, -, schedule⟩ := backtracks.pushed ((check_ok_iff model history).mp ok)
  exact (schedulable_start_iff model history).mp ⟨order, schedule⟩

theorem check_ok_of_linearizable (timed : ∀ event ∈ history, event.startNs ≤ event.endNs)
    (linearizable : Linearizable model history) : check model history = .ok () := by
  rw [check_ok_iff]
  by_contra failed
  have enough : (Search.start history.length State).pending.length ≤ history.length := by simp [Search.start]
  have nothing : Refuted model history (Search.start history.length State).visited := fun _ _ member => by cases member
  obtain ⟨-, stuck⟩ := recurse_refutes timed enough nothing (by simpa using failed)
  exact stuck ((schedulable_start_iff model history).mpr linearizable)

/-- **The checker is sound and complete.** -/
theorem check_ok_iff_linearizable (timed : ∀ event ∈ history, event.startNs ≤ event.endNs) :
    check model history = .ok () ↔ Linearizable model history :=
  ⟨linearizable_of_check_ok model history, check_ok_of_linearizable model history timed⟩

end Check

/-! ## Two claims at once -/

/-- A client claims a free lease and is told who holds it. -/
def claimEvent (claimer holder : String) (startNs endNs : Nat) : Event LeaseOp LeaseRet :=
  ⟨claimer, .claim claimer 1000 0, .claimed (claimer = holder) holder, startNs, endNs⟩

/-- Two concurrent claims, of which one wins. -/
def oneWinner : List (Event LeaseOp LeaseRet) := [claimEvent "A" "A" 0 20, claimEvent "B" "A" 5 25]

/-- Two clients see themselves acquire the lease. -/
def twoWinners : List (Event LeaseOp LeaseRet) := [claimEvent "A" "A" 0 20, claimEvent "B" "B" 5 25]

theorem two_claims_checked : Linearizable leaseModel oneWinner ∧ ¬ Linearizable leaseModel twoWinners := by
  constructor
  · exact (check_ok_iff_linearizable leaseModel oneWinner (by decide)).mp (by decide +kernel)
  · rw [← check_ok_iff_linearizable leaseModel twoWinners (by decide)]
    decide +kernel

end Tape.Lin
