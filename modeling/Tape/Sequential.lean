import Mathlib.Data.List.Basic
import Mathlib.Data.List.Infix

/-! # Sequential runs

A component whose operations run one at a time: a state, and a step function for what each call
leaves.  A run is a list of calls.  `Along` judges every call in the state it is made in,
`Always` every state a run comes through, `Steady` every two of them.
-/

namespace Tape.Sequential

variable {σ ι : Type} (step : σ → ι → σ)

/-- Serve the calls one after the other. -/
def run (s : σ) (calls : List ι) : σ := calls.foldl step s

/-- Every call of the run meets `ok` in the state it is made in. -/
def Along (ok : σ → ι → Prop) : σ → List ι → Prop
  | _, [] => True
  | s, call :: calls => ok s call ∧ Along ok (step s call) calls

instance Along.decidable {ok : σ → ι → Prop} [∀ s call, Decidable (ok s call)] :
    (s : σ) → (calls : List ι) → Decidable (Along step ok s calls)
  | _, [] => isTrue trivial
  | s, call :: calls => @instDecidableAnd _ _ inferInstance (Along.decidable (step s call) calls)

/-- `P` holds in every state the run comes through. -/
def Always (P : σ → Prop) (s : σ) (calls : List ι) : Prop := ∀ before, before <+: calls → P (run step s before)

/-- `R` holds between every state of the run and every later one. -/
def Steady (R : σ → σ → Prop) (s : σ) (calls : List ι) : Prop :=
  ∀ first second, first ++ second <+: calls → R (run step s first) (run step s (first ++ second))

@[simp] theorem run_nil (s : σ) : run step s [] = s := rfl

@[simp] theorem run_cons (s : σ) (call : ι) (calls : List ι) :
    run step s (call :: calls) = run step (step s call) calls := rfl

theorem run_append (s : σ) (first second : List ι) :
    run step s (first ++ second) = run step (run step s first) second := List.foldl_append ..

variable {step}

theorem Along.append {ok : σ → ι → Prop} {s : σ} {first second : List ι} :
    Along step ok s (first ++ second) ↔ Along step ok s first ∧ Along step ok (run step s first) second := by
  induction first generalizing s with
  | nil => simp [Along]
  | cons call first inductionHypothesis => simp [Along, inductionHypothesis, and_assoc]

theorem Along.initial {ok : σ → ι → Prop} {s : σ} {before calls : List ι} (along : Along step ok s calls)
    (isPrefix : before <+: calls) : Along step ok s before := by
  obtain ⟨rest, rfl⟩ := isPrefix
  exact (Along.append.mp along).1

theorem Along.mono {ok ok' : σ → ι → Prop} (weaker : ∀ s call, ok s call → ok' s call) {s : σ} {calls : List ι}
    (along : Along step ok s calls) : Along step ok' s calls := by
  induction calls generalizing s with
  | nil => trivial
  | cons call calls inductionHypothesis => exact ⟨weaker s call along.1, inductionHypothesis along.2⟩

theorem Along.and {ok ok' : σ → ι → Prop} {s : σ} {calls : List ι} (first : Along step ok s calls)
    (second : Along step ok' s calls) : Along step (fun s call => ok s call ∧ ok' s call) s calls := by
  induction calls generalizing s with
  | nil => trivial
  | cons call calls inductionHypothesis => exact ⟨⟨first.1, second.1⟩, inductionHypothesis first.2 second.2⟩

/-- An invariant that every allowed call keeps holds at the end of a run. -/
theorem run_invariant {ok : σ → ι → Prop} {I : σ → Prop} (kept : ∀ s call, I s → ok s call → I (step s call))
    {s : σ} {calls : List ι} (start : I s) (along : Along step ok s calls) : I (run step s calls) := by
  induction calls generalizing s with
  | nil => exact start
  | cons call calls inductionHypothesis => exact inductionHypothesis (kept s call start along.1) along.2

/-- The same in every state on the way. -/
theorem always_of_invariant {ok : σ → ι → Prop} {I : σ → Prop} (kept : ∀ s call, I s → ok s call → I (step s call))
    {s : σ} {calls : List ι} (start : I s) (along : Along step ok s calls) : Always step I s calls :=
  fun _ isPrefix => run_invariant kept start (along.initial isPrefix)

/-- An invariant that every call keeps, allowed or not. -/
theorem run_kept {I : σ → Prop} (kept : ∀ s call, I s → I (step s call)) {s : σ} (start : I s) (calls : List ι) :
    I (run step s calls) := by
  induction calls generalizing s with
  | nil => exact start
  | cons call calls inductionHypothesis => exact inductionHypothesis (kept s call start)

/-- What every call keeps holds before every call of a run. -/
theorem Along.and_kept {ok : σ → ι → Prop} {I : σ → Prop} (kept : ∀ s call, I s → I (step s call)) {s : σ}
    {calls : List ι} (start : I s) (along : Along step ok s calls) :
    Along step (fun s call => I s ∧ ok s call) s calls := by
  induction calls generalizing s with
  | nil => trivial
  | cons call calls inductionHypothesis =>
    exact ⟨⟨start, along.1⟩, inductionHypothesis (kept s call start) along.2⟩

/-- What every allowed call guarantees where an invariant holds, a run of allowed calls guarantees. -/
theorem Along.of_invariant {ok p : σ → ι → Prop} {I : σ → Prop} (kept : ∀ s call, I s → ok s call → I (step s call))
    (guarantees : ∀ s call, I s → ok s call → p s call) {s : σ} {calls : List ι} (start : I s)
    (along : Along step ok s calls) : Along step p s calls := by
  induction calls generalizing s with
  | nil => trivial
  | cons call calls inductionHypothesis =>
    exact ⟨guarantees s call start along.1, inductionHypothesis (kept s call start along.1) along.2⟩

/-- Under an invariant that the allowed calls keep, conditions that agree on each call agree on a run. -/
theorem Along.congr_of_invariant {ok p q : σ → ι → Prop} {I : σ → Prop}
    (kept : ∀ s call, I s → ok s call → I (step s call)) (agree : ∀ s call, I s → (p s call ↔ q s call)) {s : σ}
    {calls : List ι} (start : I s) (along : Along step ok s calls) : Along step p s calls ↔ Along step q s calls := by
  induction calls generalizing s with
  | nil => exact Iff.rfl
  | cons call calls inductionHypothesis =>
    exact and_congr (agree s call start) (inductionHypothesis (kept s call start along.1) along.2)

/-- Where a call keeps an invariant exactly if it meets `ok`, the invariant holds throughout a run
    exactly if all calls meet `ok`. -/
theorem along_iff_always {ok : σ → ι → Prop} {I : σ → Prop} (isExact : ∀ s call, I s → (ok s call ↔ I (step s call)))
    {s : σ} {calls : List ι} (start : I s) : Along step ok s calls ↔ Always step I s calls := by
  induction calls generalizing s with
  | nil =>
    refine ⟨fun _ before isPrefix => ?_, fun _ => trivial⟩
    rw [List.prefix_nil.mp isPrefix]
    exact start
  | cons call calls inductionHypothesis =>
    have here := isExact s call start
    constructor
    · intro along before isPrefix
      cases List.prefix_cons_iff.mp isPrefix with
      | inl none_ =>
        subst none_
        exact start
      | inr longer =>
        obtain ⟨rest, rfl, shorter⟩ := longer
        exact (inductionHypothesis (here.mp along.1)).mp along.2 rest shorter
    · intro always
      have next : I (step s call) := always [call] ⟨calls, rfl⟩
      refine ⟨here.mpr next, (inductionHypothesis next).mpr fun before isPrefix => ?_⟩
      exact always (call :: before) (List.cons_prefix_cons.mpr ⟨rfl, isPrefix⟩)

/-- Where a property survives an allowed call exactly if the call meets `ok`, it holds at the end of a run of allowed
    calls exactly if it held at the start and all calls meet `ok`. -/
theorem run_iff_along_of_allowed {allowed ok : σ → ι → Prop} {I P : σ → Prop}
    (kept : ∀ s call, I s → allowed s call → I (step s call))
    (isExact : ∀ s call, I s → (P (step s call) ↔ P s ∧ ok s call)) {s : σ} {calls : List ι} (start : I s)
    (along : Along step allowed s calls) : P (run step s calls) ↔ P s ∧ Along step ok s calls := by
  induction calls generalizing s with
  | nil => exact (and_iff_left trivial).symm
  | cons call calls inductionHypothesis =>
    rw [run_cons, inductionHypothesis (kept s call start along.1) along.2, isExact s call start, and_assoc]
    rfl

theorem along_of_always {ok : σ → ι → Prop} (always : ∀ s call, ok s call) (s : σ) (calls : List ι) : Along step ok s calls := by
  induction calls generalizing s with
  | nil => trivial
  | cons call calls inductionHypothesis => exact ⟨always s call, inductionHypothesis _⟩

/-- The same where all calls are allowed. -/
theorem run_iff_along {ok : σ → ι → Prop} {I P : σ → Prop} (kept : ∀ s call, I s → I (step s call))
    (isExact : ∀ s call, I s → (P (step s call) ↔ P s ∧ ok s call)) {s : σ} (start : I s) (calls : List ι) :
    P (run step s calls) ↔ P s ∧ Along step ok s calls :=
  run_iff_along_of_allowed (fun s call holds _ => kept s call holds) isExact start
    (along_of_always (fun _ _ => trivial) s calls)

/-- Where every call does what is waited for or brings it nearer, enough calls do it. -/
theorem exists_done {ok done : σ → ι → Prop} {pending : σ → Prop} (left : σ → Nat) (positive : ∀ s, pending s → 0 < left s)
    (progress : ∀ s call, pending s → ok s call → done s call ∨ pending (step s call) ∧ left (step s call) < left s) {s : σ}
    {calls : List ι} (start : pending s) (along : Along step ok s calls) (enough : left s ≤ calls.length) :
    ∃ earlier call later, calls = earlier ++ call :: later ∧ done (run step s earlier) call := by
  induction calls generalizing s with
  | nil =>
    have some_ := positive s start
    have none_ : left s ≤ 0 := enough
    omega
  | cons call calls inductionHypothesis =>
    cases progress s call start along.1 with
    | inl isDone => exact ⟨[], call, calls, rfl, isDone⟩
    | inr nearer =>
      have enoughRest : left (step s call) ≤ calls.length := by
        have bound : left s ≤ calls.length + 1 := enough
        omega
      obtain ⟨earlier, next, later, rfl, isDone⟩ := inductionHypothesis nearer.1 along.2 enoughRest
      exact ⟨call :: earlier, next, later, rfl, isDone⟩

/-- A preorder holds between all states of a run exactly if every call keeps it. -/
theorem steady_iff_along {R : σ → σ → Prop} (refl : ∀ s, R s s) (trans : ∀ {a b c}, R a b → R b c → R a c) {s : σ}
    {calls : List ι} : Steady step R s calls ↔ Along step (fun s call => R s (step s call)) s calls := by
  induction calls generalizing s with
  | nil =>
    refine ⟨fun _ => trivial, fun _ first second isPrefix => ?_⟩
    obtain ⟨rfl, rfl⟩ := List.append_eq_nil_iff.mp (List.prefix_nil.mp isPrefix)
    exact refl s
  | cons call calls inductionHypothesis =>
    constructor
    · intro steady
      refine ⟨steady [] [call] ⟨calls, rfl⟩, inductionHypothesis.mp fun first second isPrefix => ?_⟩
      exact steady (call :: first) second (List.cons_prefix_cons.mpr ⟨rfl, isPrefix⟩)
    · intro along first second isPrefix
      have later := inductionHypothesis.mpr along.2
      cases first with
      | nil =>
        cases second with
        | nil => exact refl s
        | cons second rest =>
          obtain ⟨rfl, shorter⟩ := List.cons_prefix_cons.mp isPrefix
          exact trans along.1 (later [] rest shorter)
      | cons first rest =>
        obtain ⟨rfl, shorter⟩ := List.cons_prefix_cons.mp isPrefix
        exact later rest second shorter

end Tape.Sequential
