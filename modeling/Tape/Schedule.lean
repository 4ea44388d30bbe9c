import Mathlib.Data.List.Perm.Basic

/-! # Schedules

A list of jobs for a machine that does one job at a time, and in each state does some
jobs and refuses others.  A schedule is an order of the jobs that the machine does from
beginning to end, with no job behind one that it has to come before.

`schedulable_iff` is the step of every search for a schedule: the first job is one that
nothing else has to come before, and the rest is scheduled from the state it leaves.
-/

namespace Tape.Schedule

variable {Job State : Type}

section Definitions

variable (before : Job → Job → Prop) (perform : State → Job → Option State)

/-- `order` is an order of `jobs` that keeps `before`, and the machine does all of it. -/
structure IsSchedule (state : State) (jobs order : List Job) : Prop where
  perm : order.Perm jobs
  ordered : order.Pairwise fun first second => ¬ before second first
  performed : (order.foldlM perform state).isSome

def Schedulable (state : State) (jobs : List Job) : Prop := ∃ order, IsSchedule before perform state jobs order

end Definitions

variable {before : Job → Job → Prop} {perform : State → Job → Option State} {state : State}

@[simp] theorem isSchedule_nil {order : List Job} : IsSchedule before perform state [] order ↔ order = [] := by
  constructor
  · intro schedule
    exact List.perm_nil.mp schedule.perm
  · intro nothing
    subst nothing
    exact ⟨.nil, .nil, rfl⟩

theorem schedulable_of_perm {jobs others : List Job} (same : jobs.Perm others) :
    Schedulable before perform state jobs ↔ Schedulable before perform state others := by
  constructor
  · intro ⟨order, schedule⟩
    exact ⟨order, schedule.perm.trans same, schedule.ordered, schedule.performed⟩
  · intro ⟨order, schedule⟩
    exact ⟨order, schedule.perm.trans same.symm, schedule.ordered, schedule.performed⟩

section First

variable [DecidableEq Job]

/-- The first job of a schedule, and the schedule of the others. -/
theorem isSchedule_cons {jobs order : List Job} {job : Job} :
    IsSchedule before perform state jobs (job :: order) ↔
      job ∈ jobs ∧ (∀ other ∈ jobs.erase job, ¬ before other job) ∧
        ∃ next, perform state job = some next ∧ IsSchedule before perform next (jobs.erase job) order := by
  constructor
  · intro schedule
    obtain ⟨member, perm⟩ := List.cons_perm_iff_perm_erase.mp schedule.perm
    obtain ⟨first, ordered⟩ := List.pairwise_cons.mp schedule.ordered
    have performed := schedule.performed
    rw [List.foldlM_cons] at performed
    cases does : perform state job with
    | none => simp [does] at performed
    | some next =>
      simp only [does, Option.bind_eq_bind, Option.bind_some] at performed
      exact ⟨member, fun other isOther => first other (perm.mem_iff.mpr isOther), next, rfl, perm, ordered, performed⟩
  · intro ⟨member, first, next, does, schedule⟩
    refine ⟨List.cons_perm_iff_perm_erase.mpr ⟨member, schedule.perm⟩, List.pairwise_cons.mpr ⟨?_, schedule.ordered⟩, ?_⟩
    · intro other isOther
      exact first other (schedule.perm.mem_iff.mp isOther)
    · simpa [does] using schedule.performed

theorem schedulable_iff {jobs : List Job} (some_ : jobs ≠ []) :
    Schedulable before perform state jobs ↔
      ∃ job ∈ jobs, (∀ other ∈ jobs.erase job, ¬ before other job) ∧
        ∃ next, perform state job = some next ∧ Schedulable before perform next (jobs.erase job) := by
  constructor
  · intro ⟨order, schedule⟩
    cases order with
    | nil => exact absurd (List.nil_perm.mp schedule.perm) some_
    | cons job order =>
      obtain ⟨member, first, next, does, rest⟩ := isSchedule_cons.mp schedule
      exact ⟨job, member, first, next, does, order, rest⟩
  · intro ⟨job, member, first, next, does, order, rest⟩
    exact ⟨job :: order, isSchedule_cons.mpr ⟨member, first, next, does, rest⟩⟩

end First

/-- Jobs may go by other names: a schedule of the names is one of the jobs. -/
theorem schedulable_map {Name : Type} (job : Name → Job) {names : List Name} :
    Schedulable (fun first second => before (job first) (job second)) (fun state name => perform state (job name))
      state names ↔ Schedulable before perform state (names.map job) := by
  constructor
  · intro ⟨order, schedule⟩
    refine ⟨order.map job, schedule.perm.map job, List.pairwise_map.mpr schedule.ordered, ?_⟩
    simpa [List.foldlM_map] using schedule.performed
  · intro ⟨order, schedule⟩
    have named : Relation.Comp (fun order named => order = List.map job named) List.Perm order names := by
      rw [List.eq_map_comp_perm]
      exact schedule.perm
    obtain ⟨order', rfl, perm⟩ := named
    refine ⟨order', perm, List.pairwise_map.mp schedule.ordered, ?_⟩
    simpa [List.foldlM_map] using schedule.performed

end Tape.Schedule
