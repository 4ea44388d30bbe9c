import Tape.Interleave.Run

/-! # Rely–guarantee reasoning for interleaved programs

A contract of a thread says what the steps of the other threads may do to the
history (`rely`), which of its own operations the schedule lets it execute
(`allowed`), and what each of its own steps then does (`guar`).  `Safe` is the
weakest condition under which a program, started in a history and disturbed by
its rely before every operation, keeps its guarantee and returns into `post`.

`System.run_safe` is the composition rule: if one thread's guarantee is the other
threads' rely and every admitted call starts out safe, then along every run whose
steps are allowed all threads stay safe.  `System.run_hist` then carries over to
whole runs whatever every guarantee preserves.
-/

namespace Tape.Interleave

variable {σ Op : Type} {Res : Op → Type} {ι : Type} {Out : ι → Type} {α β ε : Type}

/-! ## Programs all of whose operations are of a kind -/

namespace Prog

/-- Every operation the program can come to perform meets `p`. -/
def All (p : Op → Prop) : Prog Op Res α → Prop
  | .ret _ => True
  | .call op next => p op ∧ ∀ res, All p (next res)

variable {p : Op → Prop}

@[simp] theorem All.ret (value : α) : All p (.ret value : Prog Op Res α) := trivial

theorem all_of (always : ∀ op, p op) (program : Prog Op Res α) : All p program := by
  induction program with
  | ret value => trivial
  | call op next inductionHypothesis => exact ⟨always op, inductionHypothesis⟩

theorem all_true (program : Prog Op Res α) : All (fun _ => True) program := all_of (fun _ => trivial) program

theorem All.mono {q : Op → Prop} (weaker : ∀ op, p op → q op) {program : Prog Op Res α} (all : All p program) :
    All q program := by
  induction program with
  | ret value => trivial
  | call op next inductionHypothesis => exact ⟨weaker op all.1, fun res => inductionHypothesis res (all.2 res)⟩

theorem All.bind {program : Prog Op Res α} {continuation : α → Prog Op Res β}
    (first : All p program) (rest : ∀ value, All p (continuation value)) :
    All p (program.bind continuation) := by
  induction program with
  | ret value => exact rest value
  | call op next inductionHypothesis =>
    exact ⟨first.1, fun res => inductionHypothesis res (first.2 res)⟩

/-- A property of programs that returning has and sequencing keeps. -/
structure Composable (Q : {α : Type} → Prog Op Res α → Prop) : Prop where
  ret : ∀ {α : Type} (value : α), Q (.ret value)
  bind : ∀ {α β : Type} {program : Prog Op Res α} {continuation : α → Prog Op Res β},
    Q program → (∀ value, Q (continuation value)) → Q (program.bind continuation)

variable {Q : {α : Type} → Prog Op Res α → Prop}

theorem Composable.exceptBind {ε α β : Type} (composable : Composable Q) {program : ExceptT ε (Prog Op Res) α}
    {continuation : α → ExceptT ε (Prog Op Res) β} (first : Q program.run)
    (rest : ∀ value, Q (continuation value).run) : Q (program >>= continuation).run := by
  refine composable.bind first fun value => ?_
  cases value with
  | ok value => exact rest value
  | error e => exact composable.ret _

theorem All.composable (p : Op → Prop) : Composable fun {_} (program : Prog Op Res _) => All p program where
  ret _ := trivial
  bind first rest := first.bind rest

theorem All.exceptBind {ε α β : Type} {program : ExceptT ε (Prog Op Res) α}
    {continuation : α → ExceptT ε (Prog Op Res) β} (first : All p program.run)
    (rest : ∀ value, All p (continuation value).run) : All p (program >>= continuation).run :=
  (All.composable p).exceptBind first rest

end Prog

/-! ## A thread's own events -/

/-- The last operation thread `tid` executed. -/
def lastOwn (tid : Nat) (log : List (Event Op Res)) : Option (Event Op Res) :=
  log.find? fun event => event.tid = tid

@[simp] theorem lastOwn_push_self (h : Hist σ Op Res) (tid : Nat) (op : Op) (res : Res op) (state : σ) :
    lastOwn tid (h.push tid op res state).log = some ⟨tid, op, res⟩ := by
  simp [lastOwn]

/-- The thread has executed nothing between the two histories. -/
def SameOwn (tid : Nat) (h h' : Hist σ Op Res) : Prop := lastOwn tid h'.log = lastOwn tid h.log

theorem SameOwn.refl (tid : Nat) (h : Hist σ Op Res) : SameOwn tid h h := rfl

theorem SameOwn.trans {tid : Nat} {h₁ h₂ h₃ : Hist σ Op Res} (first : SameOwn tid h₁ h₂) (second : SameOwn tid h₂ h₃) :
    SameOwn tid h₁ h₃ := Eq.trans second first

theorem lastOwn_push_ne (h : Hist σ Op Res) {tid other : Nat} (op : Op) (res : Res op) (state : σ)
    (ne : other ≠ tid) : lastOwn other (h.push tid op res state).log = lastOwn other h.log := by
  simp [lastOwn, Ne.symm ne]

/-- What happened from `h` to `h'` was done by other threads than `tid`. -/
def Foreign (tid : Nat) (h h' : Hist σ Op Res) : Prop :=
  ∃ new, h'.log = new ++ h.log ∧ ∀ event ∈ new, event.tid ≠ tid

theorem Foreign.refl (tid : Nat) (h : Hist σ Op Res) : Foreign tid h h := ⟨[], by simp⟩

theorem Foreign.trans {tid : Nat} {h₁ h₂ h₃ : Hist σ Op Res} (first : Foreign tid h₁ h₂)
    (second : Foreign tid h₂ h₃) : Foreign tid h₁ h₃ := by
  obtain ⟨new, grown, foreign⟩ := first
  obtain ⟨newer, grown', foreign'⟩ := second
  refine ⟨newer ++ new, by rw [grown', grown, List.append_assoc], fun event member => ?_⟩
  rcases List.mem_append.mp member with member | member
  · exact foreign' event member
  · exact foreign event member

theorem Foreign.push {tid other : Nat} (h : Hist σ Op Res) (op : Op) (res : Res op) (state : σ)
    (ne : other ≠ tid) : Foreign other h (h.push tid op res state) :=
  ⟨[⟨tid, op, res⟩], rfl, by simpa using Ne.symm ne⟩

theorem Foreign.suffix {tid : Nat} {h h' : Hist σ Op Res} (foreign : Foreign tid h h') : h.log <:+ h'.log := by
  obtain ⟨new, grown, _⟩ := foreign
  exact ⟨new, grown.symm⟩

theorem Foreign.mem {tid : Nat} {h h' : Hist σ Op Res} (foreign : Foreign tid h h')
    {event : Event Op Res} (member : event ∈ h.log) : event ∈ h'.log := by
  obtain ⟨new, grown, _⟩ := foreign
  rw [grown]
  exact List.mem_append_right new member

/-- The thread's own events are those it knew of. -/
theorem Foreign.own {tid : Nat} {h h' : Hist σ Op Res} (foreign : Foreign tid h h')
    {event : Event Op Res} (member : event ∈ h'.log) (own : event.tid = tid) : event ∈ h.log := by
  obtain ⟨new, grown, others⟩ := foreign
  rw [grown] at member
  rcases List.mem_append.mp member with member | member
  · exact absurd own (others event member)
  · exact member

/-- What looks at the thread's own events alone does not see the others'. -/
theorem Foreign.eq_of_ignores {tid : Nat} {h h' : Hist σ Op Res} {f : List (Event Op Res) → α}
    (ignores : ∀ event older, event.tid ≠ tid → f (event :: older) = f older) (foreign : Foreign tid h h') :
    f h'.log = f h.log := by
  obtain ⟨new, grown, others⟩ := foreign
  rw [grown]
  clear grown
  induction new with
  | nil => rfl
  | cons event new inductionHypothesis =>
    rw [List.cons_append, ignores event _ (others event List.mem_cons_self)]
    exact inductionHypothesis fun event member => others event (List.mem_cons_of_mem _ member)

/-- Of a thread that has executed nothing it sees nothing. -/
theorem eq_of_fresh {tid : Nat} {log : List (Event Op Res)} {f : List (Event Op Res) → α}
    (ignores : ∀ event older, event.tid ≠ tid → f (event :: older) = f older) (fresh : lastOwn tid log = none) :
    f log = f [] := by
  have others : ∀ event ∈ log, event.tid ≠ tid := by simpa [lastOwn] using fresh
  clear fresh
  induction log with
  | nil => rfl
  | cons event log inductionHypothesis =>
    rw [ignores event log (others event List.mem_cons_self)]
    exact inductionHypothesis fun event member => others event (List.mem_cons_of_mem _ member)

/-- What `step` makes of the thread's own events, from the oldest to the newest. -/
def ownFold (tid : Nat) (step : α → Event Op Res → α) (start : α) : List (Event Op Res) → α
  | [] => start
  | event :: older => if event.tid = tid then step (ownFold tid step start older) event else ownFold tid step start older

section OwnFold

variable {tid : Nat} {step : α → Event Op Res → α} {start : α}

theorem ownFold_cons_self {event : Event Op Res} {older : List (Event Op Res)} (own : event.tid = tid) :
    ownFold tid step start (event :: older) = step (ownFold tid step start older) event := if_pos own

theorem ownFold_cons_ne {event : Event Op Res} {older : List (Event Op Res)} (other : event.tid ≠ tid) :
    ownFold tid step start (event :: older) = ownFold tid step start older := if_neg other

theorem Foreign.ownFold_eq {h h' : Hist σ Op Res} (foreign : Foreign tid h h') :
    ownFold tid step start h'.log = ownFold tid step start h.log :=
  foreign.eq_of_ignores fun _ _ other => ownFold_cons_ne other

theorem ownFold_of_fresh {log : List (Event Op Res)} (fresh : lastOwn tid log = none) :
    ownFold tid step start log = start := eq_of_fresh (fun _ _ other => ownFold_cons_ne other) fresh

end OwnFold

theorem Foreign.lastOwn_eq {tid : Nat} {h h' : Hist σ Op Res} (foreign : Foreign tid h h') :
    lastOwn tid h'.log = lastOwn tid h.log :=
  foreign.eq_of_ignores fun event older other => by simp [lastOwn, other]

/-- Since the thread's last operation, if it has executed any, no event of the others was `noisy`. -/
def calmSince (tid : Nat) (noisy : Event Op Res → Bool) : List (Event Op Res) → Bool
  | [] => true
  | event :: older => event.tid = tid || !noisy event && calmSince tid noisy older

theorem calmSince_split {tid : Nat} {noisy : Event Op Res → Bool} {log : List (Event Op Res)} {own : Event Op Res}
    (calm : calmSince tid noisy log) (last : lastOwn tid log = some own) :
    ∃ between older, log = between ++ own :: older ∧ ∀ event ∈ between, noisy event = false := by
  induction log with
  | nil => cases last
  | cons event log inductionHypothesis =>
    by_cases isOwn : event.tid = tid
    · simp only [lastOwn, List.find?_cons, isOwn, decide_true, Option.some.injEq] at last
      exact ⟨[], log, by rw [last, List.nil_append], fun _ member => by cases member⟩
    · simp only [calmSince, isOwn, decide_false, Bool.false_or, Bool.and_eq_true, Bool.not_eq_true'] at calm
      have earlier : lastOwn tid log = some own := by simpa [lastOwn, isOwn] using last
      obtain ⟨between, older, split, quiet⟩ := inductionHypothesis calm.2 earlier
      refine ⟨event :: between, older, by rw [split, List.cons_append], fun other member => ?_⟩
      rcases List.mem_cons.mp member with rfl | member
      · exact calm.1
      · exact quiet other member

/-- Since the thread's first operation, no event of the others was `noisy`, given the events before it. -/
def calmFromFirst (tid : Nat) (noisy : Event Op Res → List (Event Op Res) → Bool) : List (Event Op Res) → Bool
  | [] => true
  | event :: older =>
    calmFromFirst tid noisy older && (event.tid = tid || (lastOwn tid older).isNone || !noisy event older)

section CalmFromFirst

variable {tid : Nat} {noisy : Event Op Res → List (Event Op Res) → Bool} {event : Event Op Res}
  {older : List (Event Op Res)}

theorem calmFromFirst_cons (calm : calmFromFirst tid noisy (event :: older)) : calmFromFirst tid noisy older :=
  (Bool.and_eq_true_iff.mp calm).1

theorem quiet_of_calmFromFirst (calm : calmFromFirst tid noisy (event :: older)) (begun : (lastOwn tid older).isSome)
    (other : event.tid ≠ tid) : noisy event older = false := by
  have quiet := (Bool.and_eq_true_iff.mp calm).2
  simpa [other, Option.isNone_iff_eq_none, Option.isSome_iff_ne_none.mp begun] using quiet

end CalmFromFirst

/-- The events since the thread's own last one that is marked. -/
def since (tid : Nat) (mark : Event Op Res → Bool) (log : List (Event Op Res)) : List (Event Op Res) :=
  log.takeWhile fun event => !(event.tid = tid && mark event)

section Since

variable {tid : Nat} {mark : Event Op Res → Bool} {log : List (Event Op Res)} {event : Event Op Res}

theorem since_cons (unmarked : ¬ (event.tid = tid ∧ mark event)) : since tid mark (event :: log) = event ::
    since tid mark log := by
  rw [since, List.takeWhile_cons_of_pos]
  · rfl
  · simpa [← Bool.not_eq_true, imp_iff_not_or] using unmarked

end Since

/-- Only threads of the pool have executed anything. -/
def Config.Owned (c : Config σ Op Res ι Out) : Prop := ∀ event ∈ c.log, event.tid < c.pool.length

theorem Config.Owned.lastOwn_eq_none {c : Config σ Op Res ι Out} (owned : c.Owned) :
    lastOwn c.pool.length c.log = none := by
  rw [lastOwn, List.find?_eq_none]
  intro event member
  have bound := owned event member
  simp only [decide_eq_true_eq]
  omega

theorem Config.Owned.step {S : System σ Op Res ι Out} {c : Config σ Op Res ι Out} {choice : Choice ι}
    (owned : c.Owned) : (S.step c choice).Owned := by
  have moved := S.step_cases c choice
  generalize S.step c choice = c' at moved
  cases moved with
  | idle => exact owned
  | spawn call =>
    intro event member
    have bound := owned event member
    simp only [List.length_append, List.length_singleton]
    omega
  | advance tid call op next res state scheduled alive answers =>
    intro event member
    obtain ⟨bound, _⟩ := List.getElem?_eq_some_iff.mp alive
    simp only [Config.advance, List.length_set]
    rcases List.mem_cons.mp member with rfl | member
    · exact bound
    · exact owned event member

theorem Config.Owned.run {S : System σ Op Res ι Out} {c : Config σ Op Res ι Out} (owned : c.Owned)
    (choices : List (Choice ι)) : (S.run c choices).Owned := by
  induction choices generalizing c with
  | nil => exact owned
  | cons choice choices inductionHypothesis => exact inductionHypothesis owned.step

/-! ## Contracts and safety -/

structure Contract (σ Op : Type) (Res : Op → Type) where
  rely : Hist σ Op Res → Hist σ Op Res → Prop
  allowed : Hist σ Op Res → Op → Prop
  guar : Hist σ Op Res → Hist σ Op Res → Prop
  rely_refl : ∀ h, rely h h
  rely_trans : ∀ {h₁ h₂ h₃}, rely h₁ h₂ → rely h₂ h₃ → rely h₁ h₃

namespace System

variable (S : System σ Op Res ι Out)

/-- `program`, run by thread `tid` from history `h`, keeps the guarantee of `K`
    at every step and ends in `post`, whatever its rely does in between. -/
def Safe (K : Contract σ Op Res) (tid : Nat) (post : α → Hist σ Op Res → Prop) :
    Prog Op Res α → Hist σ Op Res → Prop
  | .ret value, h => ∀ h', K.rely h h' → post value h'
  | .call op next, h => ∀ h', K.rely h h' → K.allowed h' op →
      ∀ res state, S.Answers op h'.state res state →
        K.guar h' (h'.push tid op res state) ∧
          Safe K tid post (next res) (h'.push tid op res state)

variable {S} {K : Contract σ Op Res} {tid : Nat}

/-- Safety is stable under the rely. -/
theorem Safe.stable {post : α → Hist σ Op Res → Prop} {program : Prog Op Res α}
    {h h' : Hist σ Op Res} (safe : S.Safe K tid post program h) (rely : K.rely h h') :
    S.Safe K tid post program h' := by
  cases program with
  | ret value => exact fun h'' rely' => safe h'' (K.rely_trans rely rely')
  | call op next => exact fun h'' rely' => safe h'' (K.rely_trans rely rely')

theorem Safe.bind {post : β → Hist σ Op Res → Prop} {program : Prog Op Res α}
    {continuation : α → Prog Op Res β} {h : Hist σ Op Res}
    (safe : S.Safe K tid (fun value => S.Safe K tid post (continuation value)) program h) :
    S.Safe K tid post (program.bind continuation) h := by
  induction program generalizing h with
  | ret value => exact safe h (K.rely_refl h)
  | call op next inductionHypothesis =>
    intro h' rely allowed res state answers
    obtain ⟨guar, rest⟩ := safe h' rely allowed res state answers
    exact ⟨guar, inductionHypothesis res rest⟩

theorem Safe.mono {post post' : α → Hist σ Op Res → Prop} {program : Prog Op Res α}
    {h : Hist σ Op Res} (weaker : ∀ value h, post value h → post' value h)
    (safe : S.Safe K tid post program h) : S.Safe K tid post' program h := by
  induction program generalizing h with
  | ret value => exact fun h' rely => weaker value h' (safe h' rely)
  | call op next inductionHypothesis =>
    intro h' rely allowed res state answers
    obtain ⟨guar, rest⟩ := safe h' rely allowed res state answers
    exact ⟨guar, inductionHypothesis res rest⟩

/-- What is returned may be changed on the way. -/
theorem Safe.map {post : β → Hist σ Op Res → Prop} {program : Prog Op Res α} {f : α → β} {h : Hist σ Op Res}
    (safe : S.Safe K tid (fun value h => post (f value) h) program h) :
    S.Safe K tid post (program.bind fun value => .ret (f value)) h := by
  induction program generalizing h with
  | ret value => exact safe
  | call op next inductionHypothesis =>
    intro h' rely allowed res state answers
    obtain ⟨guar, rest⟩ := safe h' rely allowed res state answers
    exact ⟨guar, inductionHypothesis res rest⟩

theorem Safe.exceptMap {post : Except ε β → Hist σ Op Res → Prop} {program : ExceptT ε (Prog Op Res) α} {f : α → β}
    {h : Hist σ Op Res} (safe : S.Safe K tid (fun result h => post (result.map f) h) program.run h) :
    S.Safe K tid post (do let value ← program; return f value : ExceptT ε (Prog Op Res) β).run h := by
  have same : (do let value ← program; return f value : ExceptT ε (Prog Op Res) β).run =
      program.run.bind fun result => .ret (result.map f) := by
    refine congrArg program.run.bind (funext fun result => ?_)
    cases result with
    | ok value => rfl
    | error e => rfl
  rw [same]
  exact Safe.map safe

/-- A thread whose own steps are such as it relies on knows how far the history has come. -/
theorem Safe.tracking (closed : ∀ {h h'}, K.guar h h' → K.rely h h') {post : α → Hist σ Op Res → Prop}
    {program : Prog Op Res α} {start h : Hist σ Op Res} (since : K.rely start h)
    (safe : S.Safe K tid post program h) :
    S.Safe K tid (fun value h => K.rely start h ∧ post value h) program h := by
  induction program generalizing h with
  | ret value => exact fun h' rely => ⟨K.rely_trans since rely, safe h' rely⟩
  | call op next inductionHypothesis =>
    intro h' rely allowed res state answers
    obtain ⟨guar, rest⟩ := safe h' rely allowed res state answers
    exact ⟨guar, inductionHypothesis res (K.rely_trans (K.rely_trans since rely) (closed guar)) rest⟩

/-- Sequencing in the error monad: an error ends the program. -/
theorem Safe.exceptBind {post : Except ε β → Hist σ Op Res → Prop}
    {program : ExceptT ε (Prog Op Res) α} {continuation : α → ExceptT ε (Prog Op Res) β}
    {h : Hist σ Op Res} (failed : ∀ e h, post (.error e) h)
    (safe : S.Safe K tid (fun result h => ∀ value, result = .ok value →
      S.Safe K tid post (continuation value).run h) program.run h) :
    S.Safe K tid post (program >>= continuation).run h := by
  refine Safe.bind (Safe.mono ?_ safe)
  intro result h next
  cases result with
  | ok value => exact next value rfl
  | error e => exact fun h' _ => failed e h'

/-- The same when nothing is to be said about the result. -/
theorem Safe.seq {program : ExceptT ε (Prog Op Res) α} {continuation : α → ExceptT ε (Prog Op Res) β}
    {h : Hist σ Op Res} (first : S.Safe K tid (fun _ _ => True) program.run h)
    (rest : ∀ value h, S.Safe K tid (fun _ _ => True) (continuation value).run h) :
    S.Safe K tid (fun _ _ => True) (program >>= continuation).run h :=
  Safe.exceptBind (fun _ _ => trivial) (first.mono fun _ h _ value _ => rest value h)

/-- A program whose operations each keep the guarantee, given something the thread knows from
    the start and never stops knowing, is safe. -/
theorem Safe.of_all_knowing {p : Op → Prop} {post : α → Hist σ Op Res → Prop} (known : Hist σ Op Res → Prop)
    (lasting : ∀ {h h'}, K.rely h h' → known h → known h')
    (guar : ∀ h op res state, p op → K.allowed h op → known h → S.Answers op h.state res state →
      K.guar h (h.push tid op res state) ∧ known (h.push tid op res state))
    (returns : ∀ value h, known h → post value h)
    {program : Prog Op Res α} (all : program.All p) {h : Hist σ Op Res} (knows : known h) :
    S.Safe K tid post program h := by
  induction program generalizing h with
  | ret value => exact fun h' rely => returns value h' (lasting rely knows)
  | call op next inductionHypothesis =>
    intro h' rely allowed res state answers
    obtain ⟨kept, still⟩ := guar h' op res state all.1 allowed (lasting rely knows) answers
    exact ⟨kept, inductionHypothesis res (all.2 res) still⟩

/-- A program whose operations each keep the guarantee by themselves is safe. -/
theorem Safe.of_all {p : Op → Prop} {post : α → Hist σ Op Res → Prop}
    (guar : ∀ h op res state, p op → K.allowed h op → S.Answers op h.state res state →
      K.guar h (h.push tid op res state))
    (returns : ∀ value h, post value h)
    {program : Prog Op Res α} (all : program.All p) (h : Hist σ Op Res) :
    S.Safe K tid post program h :=
  Safe.of_all_knowing (fun _ => True) (fun _ _ => trivial)
    (fun h op res state meets allowed _ answers => ⟨guar h op res state meets allowed answers, trivial⟩)
    (fun value h _ => returns value h) all trivial

/-- Keeping the guarantee wherever a program is started passes through sequencing. -/
theorem Safe.composable (K : Contract σ Op Res) (tid : Nat) :
    Prog.Composable fun {_} program => ∀ h, S.Safe K tid (fun _ _ => True) program h where
  ret _ _ := fun _ _ => trivial
  bind first rest h := Safe.bind ((first h).mono fun value h _ => rest value h)

variable (S)

/-- Every thread of the pool is safe for its own contract and postcondition. -/
def PoolSafe (K : Nat → ι → Contract σ Op Res)
    (post : Nat → (call : ι) → Out call → Hist σ Op Res → Prop) (c : Config σ Op Res ι Out) : Prop :=
  ∀ tid thread, c.pool[tid]? = some thread →
    S.Safe (K tid thread.call) tid (post tid thread.call) thread.prog c.toHist

/-- The choice spawns an admitted call, or executes an operation that its thread's
    contract allows. -/
abbrev Allowed (admits : ι → Prop) (K : Nat → ι → Contract σ Op Res) :
    Config σ Op Res ι Out → Choice ι → Prop :=
  Permits admits fun tid call => (K tid call).allowed

variable {S} {admits : ι → Prop} {K : Nat → ι → Contract σ Op Res}
  {post : Nat → (call : ι) → Out call → Hist σ Op Res → Prop}

/-- Alone, a program keeps what each of its operations keeps. -/
theorem alone_of_all {S : System σ Op Res ι Out} {p : Op → Prop} {I : σ → Prop}
    (kept : ∀ op s, p op → I s → I (S.exec op s).2) {program : Prog Op Res α} (all : program.All p) {s : σ}
    (start : I s) : I (S.alone program s).2 := by
  induction program generalizing s with
  | ret value => exact start
  | call op next inductionHypothesis => exact inductionHypothesis _ (all.2 _) (kept op s all.1 start)

/-- So does one that is broken off. -/
theorem cut_of_all {S : System σ Op Res ι Out} {p : Op → Prop} {I : σ → Prop}
    (kept : ∀ op s, p op → I s → I (S.exec op s).2) {program : Prog Op Res α} (all : program.All p) (n : Nat) {s : σ}
    (start : I s) : I (S.cut n program s) := by
  induction n generalizing program s with
  | zero => exact start
  | succ n inductionHypothesis =>
    cases program with
    | ret value => exact start
    | call op next => exact inductionHypothesis (all.2 _) (kept op s all.1 start)

/-- The guarantees are relied on by the others, and every admitted call starts out safe. -/
structure Compose (S : System σ Op Res ι Out) (admits : ι → Prop) (K : Nat → ι → Contract σ Op Res)
    (post : Nat → (call : ι) → Out call → Hist σ Op Res → Prop) : Prop where
  compatible : ∀ {tid call other call' h h'}, other ≠ tid → (K tid call).guar h h' →
    (K other call').rely h h'
  fresh : ∀ {tid call h}, admits call → lastOwn tid h.log = none →
    S.Safe (K tid call) tid (post tid call) (S.body call) h

/-- One step of a safe pool leaves it safe. -/
theorem PoolSafe.step
    (compatible : ∀ {tid call other call' h h'}, other ≠ tid → (K tid call).guar h h' → (K other call').rely h h')
    {c : Config σ Op Res ι Out} {choice : Choice ι} (owned : c.Owned)
    (fresh : ∀ {tid call}, admits call → lastOwn tid c.log = none →
      S.Safe (K tid call) tid (post tid call) (S.body call) c.toHist)
    (safe : S.PoolSafe K post c) (allowed : Allowed admits K c choice) :
    S.PoolSafe K post (S.step c choice) := by
  have moved := S.step_cases c choice
  generalize S.step c choice = c' at moved
  cases moved with
  | idle => exact safe
  | spawn call =>
    intro tid thread alive
    by_cases bound : tid < c.pool.length
    · exact safe tid thread (by simpa [List.getElem?_append_left bound] using alive)
    · rw [List.getElem?_append_right (by omega)] at alive
      obtain ⟨position, rfl⟩ : tid - c.pool.length = 0 ∧ thread = ⟨call, S.body call⟩ := by
        cases position : tid - c.pool.length with
        | zero => simp [position] at alive; exact ⟨rfl, alive.symm⟩
        | succ _ => simp [position] at alive
      obtain rfl : tid = c.pool.length := by omega
      -- the new thread's number is the length of the pool: it has executed nothing
      exact fresh allowed owned.lastOwn_eq_none
  | advance tid call op next res state scheduled alive answers =>
    have permitted := Permits.of_alive allowed scheduled alive
    obtain ⟨guar, rest⟩ :=
      safe tid _ alive c.toHist ((K tid call).rely_refl _) permitted res state answers
    -- the thread that moved is safe by its own rule, the others by their rely
    intro other thread aliveOther
    by_cases same : other = tid
    · subst same
      rw [Config.advance_pool_self alive, Option.some.injEq] at aliveOther
      subst aliveOther
      exact rest
    · rw [Config.advance_pool_ne c call op next res state same] at aliveOther
      exact (safe other thread aliveOther).stable (compatible same guar)

/-- What a permitted step of a safe pool does to the history, if anything. -/
theorem PoolSafe.guar_of_step {c : Config σ Op Res ι Out} {choice : Choice ι}
    (safe : S.PoolSafe K post c) (allowed : Allowed admits K c choice) :
    (S.step c choice).toHist = c.toHist ∨ ∃ tid call, (S.step c choice).callOf tid = some call ∧
      (K tid call).guar c.toHist (S.step c choice).toHist := by
  have moved := S.step_cases c choice
  generalize S.step c choice = c' at moved
  cases moved with
  | idle => exact .inl rfl
  | spawn call => exact .inl rfl
  | advance tid call op next res state scheduled alive answers =>
    have permitted := Permits.of_alive allowed scheduled alive
    obtain ⟨guar, _⟩ := safe tid _ alive c.toHist ((K tid call).rely_refl _) permitted res state answers
    refine .inr ⟨tid, call, ?_, guar⟩
    rw [Config.callOf, Config.advance_pool_self alive]
    rfl

/-- **Composition.**  Along a run whose operations are allowed, all threads stay safe. -/
theorem run_safe (compose : Compose S admits K post)
    {c : Config σ Op Res ι Out} {choices : List (Choice ι)} (owned : c.Owned)
    (safe : S.PoolSafe K post c) (along : S.Along (Allowed admits K) c choices) :
    S.PoolSafe K post (S.run c choices) :=
  (run_invariant (I := fun c => c.Owned ∧ S.PoolSafe K post c)
    (fun _ _ inv allowed => ⟨inv.1.step, inv.2.step compose.compatible inv.1 compose.fresh allowed⟩) ⟨owned, safe⟩
    along).2

/-- What every guarantee of a thread of the pool preserves holds at the end of the run. -/
theorem run_hist_serving (compose : Compose S admits K post) {I : Hist σ Op Res → Prop}
    {c : Config σ Op Res ι Out} {choices : List (Choice ι)}
    (preserved : ∀ tid call h h', (S.run c choices).callOf tid = some call → (K tid call).guar h h' → I h → I h')
    (owned : c.Owned) (safe : S.PoolSafe K post c) (start : I c.toHist)
    (along : S.Along (Allowed admits K) c choices) : I (S.run c choices).toHist := by
  induction choices generalizing c with
  | nil => exact start
  | cons choice choices inductionHypothesis =>
    refine inductionHypothesis preserved owned.step
      (safe.step compose.compatible owned compose.fresh along.1) ?_ along.2
    rcases safe.guar_of_step along.1 with same | ⟨tid, call, serves, guar⟩
    · rw [same]
      exact start
    · -- a thread keeps its call to the end of the run
      exact preserved tid call _ _ (callOf_run serves choices) guar start

/-- What every guarantee preserves holds at the end of the run. -/
theorem run_hist (compose : Compose S admits K post) {I : Hist σ Op Res → Prop}
    (preserved : ∀ tid call h h', (K tid call).guar h h' → I h → I h')
    {c : Config σ Op Res ι Out} {choices : List (Choice ι)} (owned : c.Owned)
    (safe : S.PoolSafe K post c) (start : I c.toHist)
    (along : S.Along (Allowed admits K) c choices) : I (S.run c choices).toHist :=
  run_hist_serving compose (fun tid call h h' _ guar => preserved tid call h h' guar) owned safe start along

/-- The same for threads that may use an invariant of the history: every guarantee keeps it, and an
    admitted call starts out safe where it holds. -/
structure ComposeUnder (S : System σ Op Res ι Out) (I : Hist σ Op Res → Prop) (admits : ι → Prop)
    (K : Nat → ι → Contract σ Op Res) (post : Nat → (call : ι) → Out call → Hist σ Op Res → Prop) : Prop where
  compatible : ∀ {tid call other call' h h'}, other ≠ tid → (K tid call).guar h h' → (K other call').rely h h'
  keeps : ∀ {tid call h h'}, (K tid call).guar h h' → I h → I h'
  fresh : ∀ {tid call h}, admits call → lastOwn tid h.log = none → I h →
    S.Safe (K tid call) tid (post tid call) (S.body call) h

/-- **Composition under an invariant.**  What every guarantee preserves, where the invariant holds,
    holds with it at the end of the run. -/
theorem run_under {I J : Hist σ Op Res → Prop} (compose : ComposeUnder S I admits K post)
    (preserved : ∀ tid call h h', (K tid call).guar h h' → I h → J h → J h')
    {c : Config σ Op Res ι Out} {choices : List (Choice ι)} (owned : c.Owned) (safe : S.PoolSafe K post c)
    (start : I c.toHist) (also : J c.toHist) (along : S.Along (Allowed admits K) c choices) :
    I (S.run c choices).toHist ∧ J (S.run c choices).toHist := by
  induction choices generalizing c with
  | nil => exact ⟨start, also⟩
  | cons choice choices inductionHypothesis =>
    have safe' := safe.step compose.compatible owned (fun admitted own => compose.fresh admitted own start) along.1
    rcases safe.guar_of_step along.1 with same | ⟨tid, call, -, guar⟩
    · exact inductionHypothesis owned.step safe' (same ▸ start) (same ▸ also) along.2
    · exact inductionHypothesis owned.step safe' (compose.keeps guar start) (preserved _ _ _ _ guar start also)
        along.2

theorem poolSafe_of_empty {c : Config σ Op Res ι Out} (empty : c.pool = []) : S.PoolSafe K post c := by
  intro tid thread alive
  simp [empty] at alive

/-- What a returned thread of a safe pool left behind. -/
theorem PoolSafe.returned {c : Config σ Op Res ι Out} (safe : S.PoolSafe K post c) {tid : Nat}
    {call : ι} {value : Out call} (done : c.pool[tid]? = some ⟨call, .ret value⟩) :
    post tid call value c.toHist :=
  safe tid _ done c.toHist ((K tid call).rely_refl _)

/-! ## Threads that know their own past -/

variable (S) in
/-- The contract of a thread that relies on its own past only, executes what `ok` permits, and
    asks `proper` of each of its operations. -/
def tracked (ok proper : Nat → ι → Hist σ Op Res → Op → Prop) (tid : Nat) (call : ι) : Contract σ Op Res where
  rely := Foreign tid
  allowed h op := ok tid call h op
  guar h h' := ∃ op res state, h' = h.push tid op res state ∧ S.Answers op h.state res state ∧
    ok tid call h op ∧ proper tid call h op
  rely_refl := Foreign.refl tid
  rely_trans := Foreign.trans

variable {ok proper : Nat → ι → Hist σ Op Res → Op → Prop}

theorem tracked_compose
    (fresh : ∀ {tid call h}, admits call → lastOwn tid h.log = none →
      S.Safe (S.tracked ok proper tid call) tid (post tid call) (S.body call) h) :
    Compose S admits (S.tracked ok proper) post where
  compatible {tid call other call' h h'} ne guar := by
    obtain ⟨op, res, state, rfl, -⟩ := guar
    exact Foreign.push h op res state ne
  fresh := fresh

/-- Every operation of the run was proper when it was executed. -/
theorem along_proper (compose : Compose S admits (S.tracked ok proper) post) {c : Config σ Op Res ι Out}
    {choices : List (Choice ι)} (owned : c.Owned) (safe : S.PoolSafe (S.tracked ok proper) post c)
    (along : S.Along (Permits admits ok) c choices) :
    S.Along (Permits admits fun tid call h op => ok tid call h op ∧ proper tid call h op) c choices := by
  induction choices generalizing c with
  | nil => trivial
  | cons choice choices inductionHypothesis =>
    refine ⟨?_, inductionHypothesis owned.step (safe.step compose.compatible owned compose.fresh along.1) along.2⟩
    have isProper : ∀ tid call op, (choice = .exec tid ∨ choice = .fault tid) → c.pending tid = some (call, op) →
        ok tid call c.toHist op ∧ proper tid call c.toHist op := by
      intro tid call op scheduled pending
      obtain ⟨next, alive⟩ := Config.alive_of_pending pending
      have permitted := Permits.of_alive along.1 scheduled alive
      obtain ⟨⟨op', res, state, same, -, -, isProper⟩, -⟩ :=
        safe tid _ alive c.toHist (Foreign.refl tid _) permitted _ _ (.exec (S := S))
      cases (List.cons.inj (congrArg Hist.log same)).1
      exact ⟨permitted, isProper⟩
    cases choice with
    | spawn call => exact along.1
    | exec tid | fault tid =>
      simp only [Permits]
      split
      next call op pending => exact isProper tid call op (by simp) pending
      next => trivial

/-- What every permitted and proper operation preserves holds at the end of the run.  The calls are
    those of the final pool. -/
theorem run_tracked (compose : Compose S admits (S.tracked ok proper) post) {I : Hist σ Op Res → Prop}
    {c : Config σ Op Res ι Out} {choices : List (Choice ι)}
    (preserved : ∀ tid call h op res state, (S.run c choices).callOf tid = some call →
      S.Answers op h.state res state → ok tid call h op → proper tid call h op → I h → I (h.push tid op res state))
    (owned : c.Owned) (safe : S.PoolSafe (S.tracked ok proper) post c) (start : I c.toHist)
    (along : S.Along (Permits admits ok) c choices) : I (S.run c choices).toHist := by
  refine run_hist_serving compose ?_ owned safe start along
  rintro tid call h h' serves ⟨op, res, state, rfl, answers, permitted, isProper⟩ holds
  exact preserved tid call h op res state serves answers permitted isProper holds

/-- The same where it is what is executed that has to be permitted, and a failure never has. -/
theorem run_executed (compose : Compose S admits (S.tracked (fun _ _ _ _ => True) proper) post) {I : Hist σ Op Res → Prop}
    {c : Config σ Op Res ι Out} {choices : List (Choice ι)}
    (executed : ∀ tid call h op, (S.run c choices).callOf tid = some call → ok tid call h op → proper tid call h op → I h →
      I (h.push tid op (S.exec op h.state).1 (S.exec op h.state).2))
    (failed : ∀ tid h op res, S.fault op = some res → I h → I (h.push tid op res h.state))
    (owned : c.Owned) (safe : S.PoolSafe (S.tracked (fun _ _ _ _ => True) proper) post c) (start : I c.toHist)
    (along : S.Along (Permits admits fun _ _ _ _ => True) c choices) (executes : S.Along (Executes ok) c choices) :
    I (S.run c choices).toHist := by
  have known := ((along_proper compose owned safe along).and executes).mono fun c choice both =>
    (Executes.of_permits (both.1.mono fun _ _ _ => And.right)).and both.2
  refine run_hist_of_execs ?_ failed start known
  exact fun tid call h op serves both holds => executed tid call h op serves both.2 both.1 holds

/-- A program whose operations are all proper, wherever they are executed, is safe. -/
theorem Safe.of_all_proper {tid : Nat} {call : ι} {post : α → Hist σ Op Res → Prop}
    (returns : ∀ value h, post value h) {program : Prog Op Res α}
    (all : program.All fun op => ∀ h, proper tid call h op) (h : Hist σ Op Res) :
    S.Safe (S.tracked ok proper tid call) tid post program h :=
  Safe.of_all (K := S.tracked ok proper tid call)
    (fun h op res state always permitted answers => ⟨op, res, state, rfl, answers, permitted, always h⟩)
    returns all h

/-- What an operation keeps if it is of a kind, a run keeps if all operations of the programs are. -/
theorem run_of_all {p : Op → Prop} {I : σ → Prop} (bodies : ∀ call, (S.body call).All p)
    (kept : ∀ op s res s', p op → S.Answers op s res s' → I s → I s') {c : Config σ Op Res ι Out}
    (owned : c.Owned) (empty : c.pool = []) (start : I c.state) (choices : List (Choice ι)) :
    I (S.run c choices).state := by
  have compose : Compose S (fun _ => True) (S.tracked (fun _ _ _ _ => True) fun _ _ _ op => p op)
      fun _ _ _ _ => True :=
    tracked_compose fun {tid call h} _ _ =>
      Safe.of_all_proper (fun _ _ => trivial) ((bodies call).mono fun _ isKind _ => isKind) h
  have preserved : ∀ (tid : Nat) (call : ι) (h : Hist σ Op Res) (op : Op) (res : Res op) (state : σ),
      (S.run c choices).callOf tid = some call → S.Answers op h.state res state → True → p op → I h.state → I state :=
    fun _ _ h op res state _ answers _ isKind holds => kept op h.state res state isKind answers holds
  exact run_tracked (I := fun h => I h.state) compose preserved owned (poolSafe_of_empty empty) start
    (along_free S c choices)

/-- What the log has come to stays the older part of it. -/
theorem Safe.and_suffix {tid : Nat} {call : ι} {post : α → Hist σ Op Res → Prop} {past : List (Event Op Res)}
    {program : Prog Op Res α} {h : Hist σ Op Res} (safe : S.Safe (S.tracked ok proper tid call) tid post program h)
    (isPast : past <:+ h.log) :
    S.Safe (S.tracked ok proper tid call) tid (fun value h => post value h ∧ past <:+ h.log) program h := by
  induction program generalizing h with
  | ret value => exact fun h' foreign => ⟨safe h' foreign, isPast.trans foreign.suffix⟩
  | call op next inductionHypothesis =>
    intro h' foreign permitted res state answers
    obtain ⟨kept, rest⟩ := safe h' foreign permitted res state answers
    exact ⟨kept, inductionHypothesis res rest ((isPast.trans foreign.suffix).trans (List.suffix_cons _ _))⟩

/-- The log keeps what is in it. -/
theorem Safe.and_mem {tid : Nat} {call : ι} {post : α → Hist σ Op Res → Prop} {event : Event Op Res}
    {program : Prog Op Res α} {h : Hist σ Op Res} (safe : S.Safe (S.tracked ok proper tid call) tid post program h)
    (member : event ∈ h.log) :
    S.Safe (S.tracked ok proper tid call) tid (fun value h => post value h ∧ event ∈ h.log) program h :=
  (safe.and_suffix (List.suffix_refl h.log)).mono fun _ _ both => ⟨both.1, both.2.mem member⟩

/-- Such a program forgets nothing. -/
theorem Safe.mem_of_all_proper {tid : Nat} {call : ι} {event : Event Op Res} {program : Prog Op Res α}
    (all : program.All fun op => ∀ h, proper tid call h op) {h : Hist σ Op Res} (member : event ∈ h.log) :
    S.Safe (S.tracked ok proper tid call) tid (fun _ h => event ∈ h.log) program h := by
  have safe : S.Safe (S.tracked ok proper tid call) tid (fun _ _ => True) program h :=
    Safe.of_all_proper (fun _ _ => trivial) all h
  exact (safe.and_mem member).mono fun _ _ known => known.2

end System

end Tape.Interleave
