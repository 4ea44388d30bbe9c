import Tape.Interleave.Rely

/-! # The calls of a run

A thread keeps its number and its call, so the calls of a configuration are those that were spawned, in
their order.  What held of a call and the ones before it when it was spawned can be said at the end of a
run; and a call that returns at once executes nothing.
-/

namespace Tape.Interleave

variable {σ Op : Type} {Res : Op → Type} {ι : Type} {Out : ι → Type}

/-- The calls of the threads, in the order they were spawned. -/
def Config.calls (c : Config σ Op Res ι Out) : List ι := c.pool.map Thread.call

theorem Config.callOf_eq (c : Config σ Op Res ι Out) (tid : Nat) : c.callOf tid = c.calls[tid]? := by
  simp [callOf, calls]

/-- What a choice spawns. -/
def Choice.spawned : Choice ι → List ι
  | .spawn call => [call]
  | _ => []

namespace System

variable {S : System σ Op Res ι Out} {c : Config σ Op Res ι Out}

theorem calls_advance {tid : Nat} {call : ι} {op : Op} {next : Res op → Prog Op Res (Out call)} {res : Res op}
    {state : σ} (alive : c.pool[tid]? = some ⟨call, .call op next⟩) :
    (c.advance tid call op next res state).calls = c.calls := by
  obtain ⟨bound, isThread⟩ := List.getElem?_eq_some_iff.mp alive
  have same : (c.pool.map Thread.call).set tid call = c.pool.map Thread.call := by
    refine List.ext_getElem (by simp) fun other _ _ => ?_
    by_cases here : tid = other
    · subst here
      simp [isThread]
    · simp [here]
  simp only [Config.calls, Config.advance, List.map_set]
  exact same

theorem calls_step (c : Config σ Op Res ι Out) (choice : Choice ι) :
    (S.step c choice).calls = c.calls ++ choice.spawned := by
  have moved := S.step_cases c choice
  cases choice with
  | spawn call => simp [step, Config.calls, Choice.spawned]
  | exec tid | fault tid =>
    simp only [Choice.spawned, List.append_nil]
    generalize S.step c _ = c' at moved
    cases moved with
    | idle => rfl
    | advance tid call op next res state scheduled alive answers => exact calls_advance alive

theorem calls_run (S : System σ Op Res ι Out) (c : Config σ Op Res ι Out) (choices : List (Choice ι)) :
    (S.run c choices).calls = c.calls ++ choices.flatMap Choice.spawned := by
  induction choices generalizing c with
  | nil => simp
  | cons choice choices inductionHypothesis =>
    rw [run_cons, inductionHypothesis, calls_step, List.flatMap_cons, List.append_assoc]

theorem log_step_suffix (c : Config σ Op Res ι Out) (choice : Choice ι) : c.log <:+ (S.step c choice).log := by
  obtain ⟨new, grown⟩ := run_grown S c [choice]
  exact ⟨new, grown.symm⟩

/-- A thread was there before the choice, or it is the one that was spawned. -/
theorem callOf_step_cases {choice : Choice ι} {tid : Nat} {call : ι}
    (serves : (S.step c choice).callOf tid = some call) :
    c.callOf tid = some call ∨ choice = .spawn call ∧ tid = c.pool.length := by
  rw [Config.callOf_eq, calls_step] at serves
  by_cases old : tid < c.calls.length
  · rw [List.getElem?_append_left old, ← Config.callOf_eq] at serves
    exact .inl serves
  · rw [List.getElem?_append_right (Nat.le_of_not_lt old)] at serves
    have length : c.calls.length = c.pool.length := List.length_map _
    cases choice with
    | exec _ | fault _ => simp [Choice.spawned] at serves
    | spawn new =>
      cases position : tid - c.calls.length with
      | zero =>
        have same : new = call := by simpa [position, Choice.spawned] using serves
        exact .inr ⟨by rw [same], by omega⟩
      | succ n => simp [position, Choice.spawned] at serves

/-- What a thread knows of the history, from its call and its own operations, holds whenever it comes to an operation,
    if it holds of a thread that has executed nothing and lasts under its own operations and under those of the others. -/
theorem Along.of_local (Local : Nat → ι → Hist σ Op Res → Prop) {admits : ι → Prop}
    {known ok : Nat → ι → Hist σ Op Res → Op → Prop}
    (fresh : ∀ tid call h, lastOwn tid h.log = none → Local tid call h)
    (own : ∀ tid call h op res state, known tid call h op → S.Answers op h.state res state → Local tid call h →
      Local tid call (h.push tid op res state))
    (others : ∀ tid call other call' h op res state, other ≠ tid → known other call' h op →
      S.Answers op h.state res state → Local tid call h → Local tid call (h.push other op res state))
    (implies : ∀ tid call h op, known tid call h op → Local tid call h → ok tid call h op)
    {choices : List (Choice ι)} (owned : c.Owned) (start : ∀ tid call, c.callOf tid = some call → Local tid call c.toHist)
    (along : S.Along (Permits admits known) c choices) : S.Along (Permits admits ok) c choices := by
  induction choices generalizing c with
  | nil => trivial
  | cons choice choices inductionHypothesis =>
    refine ⟨?_, inductionHypothesis owned.step (fun tid call serves => ?_) along.2⟩
    · have permitted := along.1
      cases choice with
      | spawn call => exact permitted
      | exec tid | fault tid =>
        simp only [Permits] at permitted ⊢
        split at permitted
        next call op pending => exact implies tid call _ op permitted (start tid call (Config.callOf_of_pending pending))
        next => trivial
    · have served := callOf_step_cases serves
      have moved := S.step_cases c choice
      generalize S.step c choice = c' at moved serves
      cases moved with
      | idle => exact start tid call serves
      | spawn new =>
        cases served with
        | inl old => exact start tid call old
        | inr newest =>
          rw [newest.2]
          exact fresh _ call _ owned.lastOwn_eq_none
      | advance mover call' op next res state scheduled alive answers =>
        have old : c.callOf tid = some call := by
          refine served.resolve_right fun newest => ?_
          rcases scheduled with rfl | rfl <;> cases newest.1
        by_cases same : mover = tid
        · subst same
          have isCall : call' = call := by
            rw [Config.callOf, alive] at old
            exact Option.some.inj old
          subst isCall
          exact own mover call' _ op res state (along.1.of_alive scheduled alive) answers (start mover call' old)
        · exact others tid call mover call' _ op res state same (along.1.of_alive scheduled alive) answers (start tid call old)

/-- What holds of a call that is spawned, given the calls before it, holds of every thread's call at the end. -/
theorem run_spawned {ok : Config σ Op Res ι Out → Choice ι → Prop} {P : List ι → ι → Prop}
    (spawned : ∀ c call, ok c (.spawn call) → P c.calls call) (empty : c.pool = []) {choices : List (Choice ι)}
    (along : S.Along ok c choices) {tid : Nat} {call : ι} (serves : (S.run c choices).callOf tid = some call) :
    P ((S.run c choices).calls.take tid) call := by
  have kept : ∀ tid call, (S.run c choices).callOf tid = some call →
      P ((S.run c choices).calls.take tid) call := by
    refine run_invariant (I := fun c => ∀ tid call, c.callOf tid = some call → P (c.calls.take tid) call)
      (fun c choice holds meets tid call serves => ?_) (fun tid call serves => ?_) along
    · have length : c.calls.length = c.pool.length := List.length_map _
      rw [calls_step]
      cases callOf_step_cases serves with
      | inl old =>
        have bound : tid < c.calls.length := by
          rw [Config.callOf_eq] at old
          exact (List.getElem?_eq_some_iff.mp old).1
        rw [List.take_append_of_le_length (Nat.le_of_lt bound)]
        exact holds tid call old
      | inr newest =>
        obtain ⟨rfl, rfl⟩ := newest
        rw [List.take_left' length]
        exact spawned c call meets
    · simp [Config.callOf, empty] at serves
  exact kept tid call serves

/-- A thread whose call returns at once is there as it was spawned, and has executed nothing. -/
structure Idle (c : Config σ Op Res ι Out) (tid : Nat) (call : ι) (value : Out call) : Prop where
  returned : c.pool[tid]? = some ⟨call, .ret value⟩
  silent : ∀ event ∈ c.log, event.tid ≠ tid

theorem Idle.step {tid : Nat} {call : ι} {value : Out call} (idle : Idle c tid call value) (choice : Choice ι) :
    Idle (S.step c choice) tid call value := by
  have moved := S.step_cases c choice
  generalize S.step c choice = c' at moved
  cases moved with
  | idle => exact idle
  | spawn new =>
    obtain ⟨bound, _⟩ := List.getElem?_eq_some_iff.mp idle.returned
    exact ⟨by rw [List.getElem?_append_left bound, idle.returned], idle.silent⟩
  | advance other new op next res state scheduled alive answers =>
    have ne : tid ≠ other := by
      intro same
      rw [← same, idle.returned] at alive
      cases alive
    refine ⟨by rw [Config.advance_pool_ne c new op next res state ne, idle.returned], fun event member => ?_⟩
    cases List.mem_cons.mp member with
    | inl newest => exact newest ▸ ne.symm
    | inr older => exact idle.silent event older

theorem idle_of_returning (empty : c.pool = []) (owned : c.Owned) (choices : List (Choice ι)) {tid : Nat} {call : ι}
    {value : Out call} (serves : (S.run c choices).callOf tid = some call) (returns : S.body call = .ret value) :
    Idle (S.run c choices) tid call value := by
  have kept : (S.run c choices).Owned ∧ ∀ tid call value, (S.run c choices).callOf tid = some call →
      S.body call = .ret value → Idle (S.run c choices) tid call value := by
    refine run_invariant (I := fun c => c.Owned ∧ ∀ tid call value,
      c.callOf tid = some call → S.body call = .ret value → Idle c tid call value) ?_ ⟨owned, ?_⟩
      (along_free S c choices)
    · intro c choice holds _
      refine ⟨holds.1.step, fun tid call value serves returns => ?_⟩
      cases callOf_step_cases serves with
      | inl old => exact (holds.2 tid call value old returns).step choice
      | inr newest =>
        obtain ⟨rfl, rfl⟩ := newest
        refine ⟨by simp [step, returns], fun event member => ?_⟩
        exact Nat.ne_of_lt (holds.1 event member)
    · intro tid call value serves
      simp [Config.callOf, empty] at serves
  exact kept.2 tid call value serves returns

end System

end Tape.Interleave
