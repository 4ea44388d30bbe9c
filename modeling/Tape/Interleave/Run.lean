import Tape.Interleave.Prog

/-! # Interleaved runs

A configuration is a shared state, the log of the operations executed so far, and
a pool of threads.  A thread is a call together with what is left of its program.
One scheduling choice spawns a call, lets one thread execute its next operation,
or lets that operation fail.  A run is a list of choices: every interleaving of
every set of calls is a run, and a thread that is never scheduled again has
crashed.

`System.step_cases` says everything one choice can do; `System.run_invariant` is
the induction rule over runs whose choices all meet a side condition.
-/

namespace Tape.Interleave

/-- The shared machine together with the programs of the calls it serves. -/
structure System (σ Op : Type) (Res : Op → Type) (ι : Type) (Out : ι → Type) where
  /-- What an operation answers and does to the shared state. -/
  exec : (op : Op) → σ → Res op × σ
  /-- The answer of an operation that failed and left the state alone. -/
  fault : (op : Op) → Option (Res op)
  body : (call : ι) → Prog Op Res (Out call)

/-- One executed operation: who executed it, and what it was answered. -/
structure Event (Op : Type) (Res : Op → Type) where
  tid : Nat
  op : Op
  res : Res op

/-- The shared state and the log that led to it, newest event first. -/
structure Hist (σ Op : Type) (Res : Op → Type) where
  state : σ
  log : List (Event Op Res)

structure Thread (Op : Type) (Res : Op → Type) (ι : Type) (Out : ι → Type) where
  call : ι
  prog : Prog Op Res (Out call)

structure Config (σ Op : Type) (Res : Op → Type) (ι : Type) (Out : ι → Type)
    extends Hist σ Op Res where
  pool : List (Thread Op Res ι Out)

inductive Choice (ι : Type) where
  | spawn (call : ι)
  | exec (tid : Nat)
  | fault (tid : Nat)

/-- The thread that executes its next operation. -/
def Choice.exec? {ι : Type} : Choice ι → Option Nat
  | .exec tid => some tid
  | _ => none

variable {σ Op : Type} {Res : Op → Type} {ι : Type} {Out : ι → Type}

/-- The history after thread `tid` was answered `res`. -/
def Hist.push (h : Hist σ Op Res) (tid : Nat) (op : Op) (res : Res op) (state : σ) :
    Hist σ Op Res :=
  ⟨state, ⟨tid, op, res⟩ :: h.log⟩

@[simp] theorem Hist.push_state (h : Hist σ Op Res) (tid : Nat) (op : Op) (res : Res op) (state : σ) :
    (h.push tid op res state).state = state := rfl

@[simp] theorem Hist.push_log (h : Hist σ Op Res) (tid : Nat) (op : Op) (res : Res op) (state : σ) :
    (h.push tid op res state).log = ⟨tid, op, res⟩ :: h.log := rfl

/-- Every event of the log, newest first, stands in `P` to the events before it. -/
def Logged (P : Event Op Res → List (Event Op Res) → Prop) : List (Event Op Res) → Prop
  | [] => True
  | event :: older => P event older ∧ Logged P older

theorem Logged.of_split {P : Event Op Res → List (Event Op Res) → Prop} {log : List (Event Op Res)}
    (logged : Logged P log) (newer : List (Event Op Res)) {event : Event Op Res} {older : List (Event Op Res)}
    (split : log = newer ++ event :: older) : P event older := by
  subst split
  induction newer with
  | nil => exact logged.1
  | cons newest newer inductionHypothesis => exact inductionHypothesis logged.2

namespace Config

/-- The call thread `tid` serves and the operation it executes next. -/
def pending (c : Config σ Op Res ι Out) (tid : Nat) : Option (ι × Op) :=
  c.pool[tid]?.bind fun thread => thread.prog.head?.map fun op => (thread.call, op)

/-- The call thread `tid` serves. -/
def callOf (c : Config σ Op Res ι Out) (tid : Nat) : Option ι := c.pool[tid]?.map Thread.call

/-- The configuration after thread `tid`, at `op`, was answered `res`. -/
def advance (c : Config σ Op Res ι Out) (tid : Nat) (call : ι) (op : Op)
    (next : Res op → Prog Op Res (Out call)) (res : Res op) (state : σ) : Config σ Op Res ι Out where
  toHist := c.toHist.push tid op res state
  pool := c.pool.set tid ⟨call, next res⟩

@[simp] theorem advance_state (c : Config σ Op Res ι Out) (tid : Nat) (call : ι) (op : Op)
    (next : Res op → Prog Op Res (Out call)) (res : Res op) (state : σ) :
    (c.advance tid call op next res state).state = state := rfl

@[simp] theorem advance_log (c : Config σ Op Res ι Out) (tid : Nat) (call : ι) (op : Op)
    (next : Res op → Prog Op Res (Out call)) (res : Res op) (state : σ) :
    (c.advance tid call op next res state).log = ⟨tid, op, res⟩ :: c.log := rfl

@[simp] theorem advance_toHist (c : Config σ Op Res ι Out) (tid : Nat) (call : ι) (op : Op)
    (next : Res op → Prog Op Res (Out call)) (res : Res op) (state : σ) :
    (c.advance tid call op next res state).toHist = c.toHist.push tid op res state := rfl

theorem advance_pool_self {c : Config σ Op Res ι Out} {tid : Nat} {call : ι} {op : Op}
    {next : Res op → Prog Op Res (Out call)} {res : Res op} {state : σ}
    (alive : c.pool[tid]? = some ⟨call, .call op next⟩) :
    (c.advance tid call op next res state).pool[tid]? = some ⟨call, next res⟩ := by
  obtain ⟨bound, _⟩ := List.getElem?_eq_some_iff.mp alive
  simp [advance, List.getElem?_set_self bound]

theorem advance_pool_ne (c : Config σ Op Res ι Out) {tid other : Nat} (call : ι) (op : Op)
    (next : Res op → Prog Op Res (Out call)) (res : Res op) (state : σ) (ne : other ≠ tid) :
    (c.advance tid call op next res state).pool[other]? = c.pool[other]? := by
  simp [advance, List.getElem?_set_ne (Ne.symm ne)]

theorem pending_of_alive {c : Config σ Op Res ι Out} {tid : Nat} {call : ι} {op : Op}
    {next : Res op → Prog Op Res (Out call)}
    (alive : c.pool[tid]? = some ⟨call, .call op next⟩) : c.pending tid = some (call, op) := by
  rw [pending, alive]
  rfl

theorem alive_of_pending {c : Config σ Op Res ι Out} {tid : Nat} {call : ι} {op : Op}
    (pending : c.pending tid = some (call, op)) : ∃ next, c.pool[tid]? = some ⟨call, .call op next⟩ := by
  obtain ⟨thread, alive, head⟩ := Option.bind_eq_some_iff.mp pending
  obtain ⟨op', isHead, same⟩ := Option.map_eq_some_iff.mp head
  obtain ⟨rfl, rfl⟩ := Prod.mk.inj same
  obtain ⟨_, program⟩ := thread
  cases program with
  | ret value => cases isHead
  | call op next =>
    obtain rfl := Option.some.inj isHead
    exact ⟨next, alive⟩

theorem callOf_of_pending {c : Config σ Op Res ι Out} {tid : Nat} {call : ι} {op : Op}
    (pending : c.pending tid = some (call, op)) : c.callOf tid = some call := by
  obtain ⟨next, alive⟩ := alive_of_pending pending
  rw [callOf, alive]
  rfl

end Config

namespace System

variable (S : System σ Op Res ι Out)

/-- One scheduling choice.  A choice that names a finished or missing thread, or
    a fault that cannot happen, changes nothing. -/
def step (c : Config σ Op Res ι Out) : Choice ι → Config σ Op Res ι Out
  | .spawn call => { c with pool := c.pool ++ [⟨call, S.body call⟩] }
  | .exec tid =>
    match c.pool[tid]? with
    | some ⟨call, .call op next⟩ =>
      c.advance tid call op next (S.exec op c.state).1 (S.exec op c.state).2
    | _ => c
  | .fault tid =>
    match c.pool[tid]? with
    | some ⟨call, .call op next⟩ =>
      match S.fault op with
      | some res => c.advance tid call op next res c.state
      | none => c
    | _ => c

def run (c : Config σ Op Res ι Out) (choices : List (Choice ι)) : Config σ Op Res ι Out :=
  choices.foldl S.step c

@[simp] theorem run_nil (c : Config σ Op Res ι Out) : S.run c [] = c := rfl

@[simp] theorem run_cons (c : Config σ Op Res ι Out) (choice : Choice ι) (choices : List (Choice ι)) :
    S.run c (choice :: choices) = S.run (S.step c choice) choices := rfl

theorem run_append (c : Config σ Op Res ι Out) (first second : List (Choice ι)) :
    S.run c (first ++ second) = S.run (S.run c first) second := List.foldl_append ..

/-- What a program comes to when nobody else runs and nothing fails. -/
def alone {α : Type} : Prog Op Res α → σ → α × σ
  | .ret value, s => (value, s)
  | .call op next, s => alone (next (S.exec op s).1) (S.exec op s).2

theorem alone_bind {α β : Type} (program : Prog Op Res α) (continuation : α → Prog Op Res β) (s : σ) :
    S.alone (program.bind continuation) s = S.alone (continuation (S.alone program s).1) (S.alone program s).2 := by
  induction program generalizing s with
  | ret value => rfl
  | call op next inductionHypothesis => exact inductionHypothesis _ _

/-- A sequence whose first part answers goes on with the answer. -/
theorem alone_exceptBind {ε α β : Type} {program : ExceptT ε (Prog Op Res) α} {continuation : α → ExceptT ε (Prog Op Res) β}
    {s s' : σ} {value : α} (first : S.alone program.run s = (.ok value, s')) :
    S.alone (program >>= continuation).run s = S.alone (continuation value).run s' := by
  have bound := S.alone_bind program.run (ExceptT.bindCont continuation) s
  rw [first] at bound
  exact bound

/-- A sequence whose first part throws has thrown. -/
theorem alone_exceptBind_error {ε α β : Type} {program : ExceptT ε (Prog Op Res) α}
    {continuation : α → ExceptT ε (Prog Op Res) β} {s s' : σ} {e : ε} (first : S.alone program.run s = (.error e, s')) :
    S.alone (program >>= continuation).run s = (.error e, s') := by
  have bound := S.alone_bind program.run (ExceptT.bindCont continuation) s
  rw [first] at bound
  exact bound

/-- Each operation of a program that runs alone meets `ok` in the state it is performed in. -/
def Meets {α : Type} (ok : σ → Op → Prop) : Prog Op Res α → σ → Prop
  | .ret _, _ => True
  | .call op next, s => ok s op ∧ Meets ok (next (S.exec op s).1) (S.exec op s).2

/-- What a program leaves that runs alone and is broken off after so many operations. -/
def cut {α : Type} : Nat → Prog Op Res α → σ → σ
  | 0, _, s => s
  | _ + 1, .ret _, s => s
  | n + 1, .call op next, s => cut n (next (S.exec op s).1) (S.exec op s).2

/-- `op`, executed in `s`, can be answered `res` and leave `s'`: either the
    machine executes it, or it fails and leaves the state alone. -/
inductive Answers (op : Op) (s : σ) : Res op → σ → Prop
  | exec : Answers op s (S.exec op s).1 (S.exec op s).2
  | fault {res : Res op} : S.fault op = some res → Answers op s res s

/-- Everything one scheduling choice can do. -/
inductive Moves (c : Config σ Op Res ι Out) : Choice ι → Config σ Op Res ι Out → Prop
  | idle {choice : Choice ι} : Moves c choice c
  | spawn (call : ι) : Moves c (.spawn call) { c with pool := c.pool ++ [⟨call, S.body call⟩] }
  | advance {choice : Choice ι} (tid : Nat) (call : ι) (op : Op)
      (next : Res op → Prog Op Res (Out call)) (res : Res op) (state : σ)
      (scheduled : choice = .exec tid ∨ choice = .fault tid)
      (alive : c.pool[tid]? = some ⟨call, .call op next⟩)
      (answers : S.Answers op c.state res state) :
      Moves c choice (c.advance tid call op next res state)

theorem step_cases (c : Config σ Op Res ι Out) (choice : Choice ι) :
    S.Moves c choice (S.step c choice) := by
  cases choice with
  | spawn call => exact .spawn call
  | exec tid =>
    simp only [step]
    split
    next call op next alive => exact .advance tid call op next _ _ (.inl rfl) alive .exec
    next => exact .idle
  | fault tid =>
    simp only [step]
    split
    next call op next alive =>
      split
      next res failed => exact .advance tid call op next res c.state (.inr rfl) alive (.fault failed)
      next => exact .idle
    next => exact .idle

theorem step_exec_of_pending {c : Config σ Op Res ι Out} {tid : Nat} {call : ι} {op : Op}
    (pending : c.pending tid = some (call, op)) :
    (S.step c (.exec tid)).toHist = c.toHist.push tid op (S.exec op c.state).1 (S.exec op c.state).2 := by
  obtain ⟨next, alive⟩ := Config.alive_of_pending pending
  simp only [step, alive]
  rfl

theorem step_exec_of_idle {c : Config σ Op Res ι Out} {tid : Nat} (idle : c.pending tid = none) :
    S.step c (.exec tid) = c := by
  simp only [step]
  split
  next call op next alive => simp [Config.pending_of_alive alive] at idle
  next => rfl

theorem step_fault_state (c : Config σ Op Res ι Out) (tid : Nat) : (S.step c (.fault tid)).state = c.state := by
  simp only [step]
  split
  · split <;> rfl
  · rfl

/-- A choice to fail does nothing, or answers the thread's operation with its fault. -/
theorem step_fault_cases (c : Config σ Op Res ι Out) (tid : Nat) :
    (S.step c (.fault tid)).toHist = c.toHist ∨ ∃ call op res, c.pending tid = some (call, op) ∧ S.fault op = some res ∧
      (S.step c (.fault tid)).toHist = c.toHist.push tid op res c.state := by
  simp only [step]
  split
  next call op next alive =>
    split
    next res failed => exact .inr ⟨call, op, res, Config.pending_of_alive alive, failed, rfl⟩
    next => exact .inl rfl
  next => exact .inl rfl

/-- Every choice of the run meets `ok` in the configuration it is made in. -/
def Along (ok : Config σ Op Res ι Out → Choice ι → Prop) :
    Config σ Op Res ι Out → List (Choice ι) → Prop
  | _, [] => True
  | c, choice :: choices => ok c choice ∧ Along ok (S.step c choice) choices

instance Along.decidable {ok : Config σ Op Res ι Out → Choice ι → Prop}
    [∀ c choice, Decidable (ok c choice)] :
    (c : Config σ Op Res ι Out) → (choices : List (Choice ι)) → Decidable (S.Along ok c choices)
  | _, [] => isTrue trivial
  | c, choice :: choices =>
    @instDecidableAnd _ _ inferInstance (Along.decidable (S.step c choice) choices)

/-- The choice spawns an admitted call, or lets a thread take a step that `ok` permits:
    `ok tid call h op` judges operation `op` of thread `tid`, serving `call`, after history `h`. -/
def Permits (admits : ι → Prop) (ok : Nat → ι → Hist σ Op Res → Op → Prop)
    (c : Config σ Op Res ι Out) : Choice ι → Prop
  | .spawn call => admits call
  | .exec tid | .fault tid =>
    match c.pending tid with
    | some (call, op) => ok tid call c.toHist op
    | none => True

instance Permits.decidable {admits : ι → Prop} {ok : Nat → ι → Hist σ Op Res → Op → Prop}
    [∀ call, Decidable (admits call)] [∀ tid call h op, Decidable (ok tid call h op)]
    (c : Config σ Op Res ι Out) (choice : Choice ι) : Decidable (Permits admits ok c choice) :=
  match choice with
  | .spawn call => inferInstanceAs (Decidable (admits call))
  | .exec tid | .fault tid =>
    match pending : c.pending tid with
    | some (call, op) =>
      decidable_of_iff (ok tid call c.toHist op) (by simp [Permits, pending])
    | none => isTrue (by simp [Permits, pending])

theorem Permits.mono {admits : ι → Prop} {ok ok' : Nat → ι → Hist σ Op Res → Op → Prop}
    {c : Config σ Op Res ι Out} {choice : Choice ι}
    (weaker : ∀ tid call op, ok tid call c.toHist op → ok' tid call c.toHist op)
    (permits : Permits admits ok c choice) : Permits admits ok' c choice := by
  cases choice with
  | spawn call => exact permits
  | exec tid | fault tid =>
    simp only [Permits] at permits ⊢
    split at permits
    next call op pending => exact weaker tid call op permits
    next => trivial

theorem Permits.and {admits : ι → Prop} {ok ok' : Nat → ι → Hist σ Op Res → Op → Prop} {c : Config σ Op Res ι Out}
    {choice : Choice ι} (left : Permits admits ok c choice) (right : Permits admits ok' c choice) :
    Permits admits (fun tid call h op => ok tid call h op ∧ ok' tid call h op) c choice := by
  cases choice with
  | spawn call => exact left
  | exec tid | fault tid =>
    simp only [Permits] at left right ⊢
    split
    next call op pending =>
      rw [pending] at left right
      exact ⟨left, right⟩
    next => trivial

theorem Permits.of_always {admits : ι → Prop} {ok : Nat → ι → Hist σ Op Res → Op → Prop} (admitted : ∀ call, admits call)
    (always : ∀ tid call h op, ok tid call h op) (c : Config σ Op Res ι Out) (choice : Choice ι) :
    Permits admits ok c choice := by
  cases choice with
  | spawn call => exact admitted call
  | exec tid | fault tid =>
    simp only [Permits]
    split
    next call op pending => exact always tid call _ op
    next => trivial

theorem Permits.of_alive {admits : ι → Prop} {ok : Nat → ι → Hist σ Op Res → Op → Prop}
    {c : Config σ Op Res ι Out} {choice : Choice ι} {tid : Nat} {call : ι}
    {op : Op} {next : Res op → Prog Op Res (Out call)} (permits : Permits admits ok c choice)
    (scheduled : choice = .exec tid ∨ choice = .fault tid)
    (alive : c.pool[tid]? = some ⟨call, .call op next⟩) : ok tid call c.toHist op := by
  rcases scheduled with rfl | rfl
  · simpa only [Permits, Config.pending_of_alive alive] using permits
  · simpa only [Permits, Config.pending_of_alive alive] using permits

variable {S}

theorem Along.append {ok : Config σ Op Res ι Out → Choice ι → Prop} {c : Config σ Op Res ι Out}
    {first second : List (Choice ι)} :
    S.Along ok c (first ++ second) ↔ S.Along ok c first ∧ S.Along ok (S.run c first) second := by
  induction first generalizing c with
  | nil => simp [Along]
  | cons choice first inductionHypothesis => simp [Along, inductionHypothesis, and_assoc]

theorem Along.imp_mem {ok ok' : Config σ Op Res ι Out → Choice ι → Prop} {choices : List (Choice ι)}
    (weaker : ∀ c, ∀ choice ∈ choices, ok c choice → ok' c choice) {c : Config σ Op Res ι Out}
    (along : S.Along ok c choices) : S.Along ok' c choices := by
  induction choices generalizing c with
  | nil => trivial
  | cons choice choices inductionHypothesis =>
    refine ⟨weaker c choice List.mem_cons_self along.1, inductionHypothesis (fun c choice member => ?_) along.2⟩
    exact weaker c choice (List.mem_cons_of_mem _ member)

theorem Along.mono {ok ok' : Config σ Op Res ι Out → Choice ι → Prop}
    (weaker : ∀ c choice, ok c choice → ok' c choice)
    {c : Config σ Op Res ι Out} {choices : List (Choice ι)} (along : S.Along ok c choices) :
    S.Along ok' c choices :=
  along.imp_mem fun c choice _ => weaker c choice

theorem Along.and {ok ok' : Config σ Op Res ι Out → Choice ι → Prop} {c : Config σ Op Res ι Out}
    {choices : List (Choice ι)} (left : S.Along ok c choices) (right : S.Along ok' c choices) :
    S.Along (fun c choice => ok c choice ∧ ok' c choice) c choices := by
  induction choices generalizing c with
  | nil => trivial
  | cons choice choices inductionHypothesis => exact ⟨⟨left.1, right.1⟩, inductionHypothesis left.2 right.2⟩

/-- Without a condition, every run meets it. -/
theorem along_free (S : System σ Op Res ι Out) (c : Config σ Op Res ι Out) (choices : List (Choice ι)) :
    S.Along (Permits (fun _ => True) fun _ _ _ _ => True) c choices := by
  induction choices generalizing c with
  | nil => trivial
  | cons choice choices inductionHypothesis =>
    exact ⟨Permits.of_always (fun _ => trivial) (fun _ _ _ _ => trivial) c choice, inductionHypothesis _⟩

/-- Where a choice keeps an invariant exactly if it meets `ok`, the choices of a run all meet `ok`
    exactly if the invariant holds in every configuration of the run. -/
theorem Along.iff_prefixes {known ok : Config σ Op Res ι Out → Choice ι → Prop} {I : Config σ Op Res ι Out → Prop}
    (exact : ∀ c choice, known c choice → I c → (ok c choice ↔ I (S.step c choice)))
    {c : Config σ Op Res ι Out} {choices : List (Choice ι)} (start : I c) (along : S.Along known c choices) :
    S.Along ok c choices ↔ ∀ before, before <+: choices → I (S.run c before) := by
  induction choices generalizing c with
  | nil =>
    refine ⟨fun _ before isPrefix => ?_, fun _ => trivial⟩
    rw [List.prefix_nil.mp isPrefix]
    exact start
  | cons choice choices inductionHypothesis =>
    have here := exact c choice along.1 start
    constructor
    · rintro ⟨first, rest⟩ before isPrefix
      rcases List.prefix_cons_iff.mp isPrefix with rfl | ⟨before, rfl, shorter⟩
      · exact start
      · exact (inductionHypothesis (here.mp first) along.2).mp rest before shorter
    · intro holds
      have next : I (S.step c choice) := holds [choice] ⟨choices, rfl⟩
      refine ⟨here.mpr next, (inductionHypothesis next along.2).mpr fun before isPrefix => ?_⟩
      exact holds (choice :: before) (List.cons_prefix_cons.mpr ⟨rfl, isPrefix⟩)

/-- An invariant that every allowed choice preserves holds at the end of a run. -/
theorem run_invariant {ok : Config σ Op Res ι Out → Choice ι → Prop}
    {I : Config σ Op Res ι Out → Prop}
    (preserved : ∀ c choice, I c → ok c choice → I (S.step c choice))
    {c : Config σ Op Res ι Out} {choices : List (Choice ι)}
    (start : I c) (along : S.Along ok c choices) : I (S.run c choices) := by
  induction choices generalizing c with
  | nil => exact start
  | cons choice choices inductionHypothesis =>
    exact inductionHypothesis (preserved c choice start along.1) along.2

/-- Where every permitted operation keeps an invariant of the history, what the invariant implies of an
    operation holds of all operations of the run. -/
theorem Along.of_invariant {admits : ι → Prop} {known ok : Nat → ι → Hist σ Op Res → Op → Prop}
    {I : Hist σ Op Res → Prop}
    (kept : ∀ tid call h op res state, known tid call h op → S.Answers op h.state res state → I h →
      I (h.push tid op res state))
    (implies : ∀ tid call h op, known tid call h op → I h → ok tid call h op)
    {c : Config σ Op Res ι Out} {choices : List (Choice ι)} (start : I c.toHist)
    (along : S.Along (Permits admits known) c choices) : S.Along (Permits admits ok) c choices := by
  induction choices generalizing c with
  | nil => trivial
  | cons choice choices inductionHypothesis =>
    refine ⟨?_, inductionHypothesis ?_ along.2⟩
    · have permitted := along.1
      cases choice with
      | spawn call => exact permitted
      | exec tid | fault tid =>
        simp only [Permits] at permitted ⊢
        split at permitted
        next call op pending => exact implies tid call _ op permitted start
        next => trivial
    · have moved := S.step_cases c choice
      generalize S.step c choice = c' at moved
      cases moved with
      | idle => exact start
      | spawn call => exact start
      | advance tid call op next res state scheduled alive answers =>
        exact kept tid call _ op res state (along.1.of_alive scheduled alive) answers start

/-- What every operation keeps of the history, every choice keeps. -/
theorem step_hist {I : Hist σ Op Res → Prop}
    (kept : ∀ tid h op res state, S.Answers op h.state res state → I h → I (h.push tid op res state))
    {c : Config σ Op Res ι Out} (start : I c.toHist) (choice : Choice ι) : I (S.step c choice).toHist := by
  have moved := S.step_cases c choice
  generalize S.step c choice = c' at moved
  cases moved with
  | idle => exact start
  | spawn call => exact start
  | advance tid call op next res state scheduled alive answers => exact kept tid _ op res state answers start

/-- What every operation keeps of the history holds at the end of every run. -/
theorem run_kept {I : Hist σ Op Res → Prop}
    (kept : ∀ tid h op res state, S.Answers op h.state res state → I h → I (h.push tid op res state))
    {c : Config σ Op Res ι Out} (start : I c.toHist) (choices : List (Choice ι)) : I (S.run c choices).toHist := by
  induction choices generalizing c with
  | nil => exact start
  | cons choice choices inductionHypothesis => exact inductionHypothesis (step_hist kept start choice)

/-- Along a run, what every operation keeps of the history holds before every choice. -/
theorem Along.and_hist {ok : Config σ Op Res ι Out → Choice ι → Prop} {I : Hist σ Op Res → Prop}
    (kept : ∀ tid h op res state, S.Answers op h.state res state → I h → I (h.push tid op res state))
    {c : Config σ Op Res ι Out} {choices : List (Choice ι)} (start : I c.toHist) (along : S.Along ok c choices) :
    S.Along (fun c choice => I c.toHist ∧ ok c choice) c choices := by
  induction choices generalizing c with
  | nil => trivial
  | cons choice choices inductionHypothesis =>
    exact ⟨⟨start, along.1⟩, inductionHypothesis (step_hist kept start choice) along.2⟩

/-- What every operation keeps of the state holds at the end of every run. -/
theorem run_state {I : σ → Prop} (kept : ∀ op s res s', S.Answers op s res s' → I s → I s')
    {c : Config σ Op Res ι Out} (start : I c.state) (choices : List (Choice ι)) : I (S.run c choices).state :=
  run_kept (I := fun h => I h.state) (fun _ h op res state answers => kept op h.state res state answers) start choices

/-- The log only grows. -/
theorem run_grown (S : System σ Op Res ι Out) (c : Config σ Op Res ι Out) (choices : List (Choice ι)) :
    ∃ new, (S.run c choices).log = new ++ c.log := by
  induction choices generalizing c with
  | nil => exact ⟨[], rfl⟩
  | cons choice choices inductionHypothesis =>
    obtain ⟨new, grown⟩ := inductionHypothesis (S.step c choice)
    have one : ∃ first, (S.step c choice).log = first ++ c.log :=
      step_hist (I := fun h => ∃ first, h.log = first ++ c.log)
        (fun tid h op res state _ ⟨first, since⟩ => ⟨⟨tid, op, res⟩ :: first, congrArg _ since⟩) ⟨[], rfl⟩ choice
    obtain ⟨first, since⟩ := one
    exact ⟨new ++ first, by rw [run_cons, grown, since, List.append_assoc]⟩

/-- Every event that is new in the log was executed by a choice of the run. -/
theorem choice_of_split {c : Config σ Op Res ι Out} {choices : List (Choice ι)} {newer older : List (Event Op Res)}
    {event : Event Op Res} (split : (S.run c choices).log = newer ++ event :: older) (since : c.log <:+ older) :
    ∃ before choice after, choices = before ++ choice :: after ∧ (S.run c before).log = older ∧
      (S.run c (before ++ [choice])).log = event :: older := by
  induction choices generalizing c with
  | nil =>
    have longer := since.length_le
    rw [show c.log = newer ++ event :: older from split, List.length_append, List.length_cons] at longer
    omega
  | cons choice choices inductionHypothesis =>
    have one : (S.step c choice).log = c.log ∨ ∃ first, (S.step c choice).log = first :: c.log := by
      have moved := S.step_cases c choice
      generalize S.step c choice = c' at moved
      cases moved with
      | idle => exact .inl rfl
      | spawn call => exact .inl rfl
      | advance tid call op next res state scheduled alive answers => exact .inr ⟨⟨tid, op, res⟩, rfl⟩
    have known : (S.step c choice).log <:+ older ∨ (S.step c choice).log = event :: older := by
      obtain ⟨new, grown⟩ := run_grown S (S.step c choice) choices
      have isSuffix : (S.step c choice).log <:+ newer ++ event :: older := ⟨new, by rw [← split, run_cons, grown]⟩
      have bound : (S.step c choice).log.length ≤ older.length + 1 := by
        have shorter := since.length_le
        rcases one with same | ⟨first, grown⟩
        · rw [same]
          omega
        · rw [grown, List.length_cons]
          omega
      have within := List.suffix_of_suffix_length_le isSuffix (List.suffix_append newer (event :: older)) bound
      rcases List.suffix_cons_iff.mp within with same | shorter
      · exact .inr same
      · exact .inl shorter
    rcases known with earlier | here
    · obtain ⟨before, last, after, rfl, atOlder, atEvent⟩ := inductionHypothesis split earlier
      exact ⟨choice :: before, last, after, rfl, atOlder, atEvent⟩
    · refine ⟨[], choice, choices, rfl, ?_, here⟩
      rcases one with same | ⟨first, grown⟩
      · have shorter := since.length_le
        rw [← same, here, List.length_cons] at shorter
        omega
      · exact (List.cons.inj (grown.symm.trans here)).2

/-- An event that is no failure was executed by a choice to execute it. -/
theorem exec_of_split {c : Config σ Op Res ι Out} {choices : List (Choice ι)} {newer older : List (Event Op Res)}
    {event : Event Op Res} (split : (S.run c choices).log = newer ++ event :: older) (since : c.log <:+ older)
    (executed : S.fault event.op ≠ some event.res) :
    ∃ before after call, choices = before ++ .exec event.tid :: after ∧ (S.run c before).log = older ∧
      (S.run c before).pending event.tid = some (call, event.op) ∧
      event.res = (S.exec event.op (S.run c before).state).1 := by
  obtain ⟨before, choice, after, rfl, atOlder, atEvent⟩ := choice_of_split split since
  rw [run_append, run_cons, run_nil] at atEvent
  have longer : (S.run c before).log ≠ event :: older := by
    rw [atOlder]
    exact fun same => absurd (congrArg List.length same) (by simp)
  cases choice with
  | spawn call => exact absurd atEvent longer
  | fault tid =>
    rcases step_fault_cases (S := S) (S.run c before) tid with same | ⟨call, op, res, -, failed, grown⟩
    · exact absurd ((congrArg Hist.log same).symm.trans atEvent) longer
    · obtain ⟨rfl, -⟩ := List.cons.inj ((congrArg Hist.log grown).symm.trans atEvent)
      exact absurd failed executed
  | exec tid =>
    cases pending : (S.run c before).pending tid with
    | none =>
      rw [step_exec_of_idle (S := S) pending] at atEvent
      exact absurd atEvent longer
    | some running =>
      obtain ⟨call, op⟩ := running
      rw [step_exec_of_pending (S := S) pending] at atEvent
      obtain ⟨rfl, -⟩ := List.cons.inj atEvent
      exact ⟨before, after, call, rfl, atOlder, pending, rfl⟩

/-- A thread serves one call. -/
theorem callOf_step {c : Config σ Op Res ι Out} {choice : Choice ι} {tid : Nat} {call : ι}
    (serves : c.callOf tid = some call) : (S.step c choice).callOf tid = some call := by
  obtain ⟨thread, alive, rfl⟩ := Option.map_eq_some_iff.mp serves
  have moved := S.step_cases c choice
  generalize S.step c choice = c' at moved
  cases moved with
  | idle => exact serves
  | spawn call =>
    obtain ⟨bound, _⟩ := List.getElem?_eq_some_iff.mp alive
    rw [Config.callOf, List.getElem?_append_left bound, alive]
    rfl
  | advance other call op next res state scheduled running answers =>
    -- the thread that moved goes on with the rest of the same call's program
    by_cases same : tid = other
    · subst same
      rw [running, Option.some.injEq] at alive
      rw [Config.callOf, Config.advance_pool_self running, ← alive]
      rfl
    · rw [Config.callOf, Config.advance_pool_ne c call op next res state same, alive]
      rfl

theorem callOf_run {c : Config σ Op Res ι Out} {tid : Nat} {call : ι} (serves : c.callOf tid = some call)
    (choices : List (Choice ι)) : (S.run c choices).callOf tid = some call := by
  induction choices generalizing c with
  | nil => exact serves
  | cons choice choices inductionHypothesis => exact inductionHypothesis (callOf_step serves)

/-- The same for a property of the history alone, from what one permitted operation does.  The
    calls are those of the final pool. -/
theorem run_hist_of_steps {admits : ι → Prop} {ok : Nat → ι → Hist σ Op Res → Op → Prop}
    {I : Hist σ Op Res → Prop} {c : Config σ Op Res ι Out} {choices : List (Choice ι)}
    (preserved : ∀ tid call h op res state, (S.run c choices).callOf tid = some call → ok tid call h op →
      S.Answers op h.state res state → I h → I (h.push tid op res state))
    (start : I c.toHist) (along : S.Along (Permits admits ok) c choices) : I (S.run c choices).toHist := by
  induction choices generalizing c with
  | nil => exact start
  | cons choice choices inductionHypothesis =>
    refine inductionHypothesis preserved ?_ along.2
    have moved := S.step_cases c choice
    -- a thread keeps its call to the end of the run
    have stays : ∀ tid call, (S.step c choice).callOf tid = some call →
        (S.run (S.step c choice) choices).callOf tid = some call := fun _ _ serves => callOf_run serves choices
    rw [run_cons] at preserved
    generalize S.step c choice = c' at moved preserved stays
    cases moved with
    | idle => exact start
    | spawn call => exact start
    | advance tid call op next res state scheduled alive answers =>
      have serves : (c.advance tid call op next res state).callOf tid = some call := by
        rw [Config.callOf, Config.advance_pool_self alive]
        rfl
      exact preserved tid call _ op res state (stays tid call serves) (along.1.of_alive scheduled alive) answers start

/-- The choice executes what `ok` permits.  To spawn a call and to fail is always permitted. -/
def Executes (ok : Nat → ι → Hist σ Op Res → Op → Prop) (c : Config σ Op Res ι Out) : Choice ι → Prop
  | .exec tid =>
    match c.pending tid with
    | some (call, op) => ok tid call c.toHist op
    | none => True
  | _ => True

instance Executes.decidable {ok : Nat → ι → Hist σ Op Res → Op → Prop} [∀ tid call h op, Decidable (ok tid call h op)]
    (c : Config σ Op Res ι Out) (choice : Choice ι) : Decidable (Executes ok c choice) :=
  match choice with
  | .spawn _ | .fault _ => isTrue trivial
  | .exec tid =>
    match pending : c.pending tid with
    | some (call, op) => decidable_of_iff (ok tid call c.toHist op) (by simp [Executes, pending])
    | none => isTrue (by simp [Executes, pending])

theorem Executes.of_permits {admits : ι → Prop} {ok : Nat → ι → Hist σ Op Res → Op → Prop} {c : Config σ Op Res ι Out}
    {choice : Choice ι} (permits : Permits admits ok c choice) : Executes ok c choice := by
  cases choice with
  | spawn call => trivial
  | exec tid => exact permits
  | fault tid => trivial

theorem Executes.and {ok ok' : Nat → ι → Hist σ Op Res → Op → Prop} {c : Config σ Op Res ι Out} {choice : Choice ι}
    (left : Executes ok c choice) (right : Executes ok' c choice) :
    Executes (fun tid call h op => ok tid call h op ∧ ok' tid call h op) c choice := by
  cases choice with
  | spawn call => trivial
  | fault tid => trivial
  | exec tid =>
    simp only [Executes] at left right ⊢
    split at left
    next call op pending =>
      rw [pending] at right
      exact ⟨left, right⟩
    next => trivial

theorem Executes.mono {ok ok' : Nat → ι → Hist σ Op Res → Op → Prop} {c : Config σ Op Res ι Out} {choice : Choice ι}
    (weaker : ∀ tid call h op, ok tid call h op → ok' tid call h op) (executes : Executes ok c choice) :
    Executes ok' c choice := by
  cases choice with
  | spawn call => trivial
  | fault tid => trivial
  | exec tid =>
    simp only [Executes] at executes ⊢
    split at executes
    next call op pending => exact weaker tid call _ op executes
    next => trivial

/-- Two machines that do the same whenever the run executes something have the same run. -/
theorem Along.run_exec_congr {exec' : (op : Op) → σ → Res op × σ} {c : Config σ Op Res ι Out} {choices : List (Choice ι)}
    (along : S.Along (Executes fun _ _ h op => exec' op h.state = S.exec op h.state) c choices) :
    System.run { S with exec := exec' } c choices = S.run c choices := by
  induction choices generalizing c with
  | nil => rfl
  | cons choice choices inductionHypothesis =>
    have same : System.step { S with exec := exec' } c choice = S.step c choice := by
      cases choice with
      | spawn call => rfl
      | fault tid => rfl
      | exec tid =>
        cases pending : c.pending tid with
        | none => rw [step_exec_of_idle _ pending, step_exec_of_idle _ pending]
        | some running =>
          obtain ⟨call, op⟩ := running
          obtain ⟨next, alive⟩ := Config.alive_of_pending pending
          have agree : exec' op c.state = S.exec op c.state := by simpa only [Executes, pending] using along.1
          simp only [step, alive, agree]
    rw [run_cons, run_cons, same]
    exact inductionHypothesis along.2

/-- What every permitted execution and every failure keeps of the history holds at the end of the run.
    The calls are those of the final pool. -/
theorem run_hist_of_execs {ok : Nat → ι → Hist σ Op Res → Op → Prop} {I : Hist σ Op Res → Prop}
    {c : Config σ Op Res ι Out} {choices : List (Choice ι)}
    (executed : ∀ tid call h op, (S.run c choices).callOf tid = some call → ok tid call h op → I h →
      I (h.push tid op (S.exec op h.state).1 (S.exec op h.state).2))
    (failed : ∀ tid h op res, S.fault op = some res → I h → I (h.push tid op res h.state))
    (start : I c.toHist) (along : S.Along (Executes ok) c choices) : I (S.run c choices).toHist := by
  induction choices generalizing c with
  | nil => exact start
  | cons choice choices inductionHypothesis =>
    refine inductionHypothesis executed ?_ along.2
    cases choice with
    | spawn call => exact start
    | fault tid =>
      rcases step_fault_cases (S := S) c tid with same | ⟨call, op, res, -, fault, grown⟩
      · rw [same]
        exact start
      · rw [grown]
        exact failed tid _ op res fault start
    | exec tid =>
      cases pending : c.pending tid with
      | none =>
        rw [step_exec_of_idle (S := S) pending]
        exact start
      | some running =>
        obtain ⟨call, op⟩ := running
        obtain ⟨next, alive⟩ := Config.alive_of_pending pending
        have serves : c.callOf tid = some call := by rw [Config.callOf, alive]; rfl
        have permitted : ok tid call c.toHist op := by simpa only [Executes, pending] using along.1
        rw [step_exec_of_pending (S := S) pending]
        -- a thread keeps its call to the end of the run
        exact executed tid call _ op (callOf_run serves (.exec tid :: choices)) permitted start

/-- One choice keeps of the history what every permitted execution and every failure keeps. -/
theorem step_executes {ok : Nat → ι → Hist σ Op Res → Op → Prop} {I : Hist σ Op Res → Prop}
    (executed : ∀ tid call h op, ok tid call h op → I h → I (h.push tid op (S.exec op h.state).1 (S.exec op h.state).2))
    (failed : ∀ tid h op res, S.fault op = some res → I h → I (h.push tid op res h.state))
    {c : Config σ Op Res ι Out} {choice : Choice ι} (start : I c.toHist) (executes : Executes ok c choice) :
    I (S.step c choice).toHist := by
  have along : S.Along (Executes ok) c [choice] := ⟨executes, trivial⟩
  exact run_hist_of_execs (fun tid call h op _ => executed tid call h op) failed start along

/-- Along a run, what every permitted execution and every failure keeps holds before every execution. -/
theorem Along.executes_hist {ok : Nat → ι → Hist σ Op Res → Op → Prop} {I : Hist σ Op Res → Prop}
    (executed : ∀ tid call h op, ok tid call h op → I h → I (h.push tid op (S.exec op h.state).1 (S.exec op h.state).2))
    (failed : ∀ tid h op res, S.fault op = some res → I h → I (h.push tid op res h.state))
    {c : Config σ Op Res ι Out} {choices : List (Choice ι)} (start : I c.toHist) (along : S.Along (Executes ok) c choices) :
    S.Along (Executes fun tid call h op => ok tid call h op ∧ I h) c choices := by
  induction choices generalizing c with
  | nil => trivial
  | cons choice choices inductionHypothesis =>
    refine ⟨?_, inductionHypothesis (step_executes executed failed start along.1) along.2⟩
    have permitted := along.1
    cases choice with
    | spawn call => trivial
    | fault tid => trivial
    | exec tid =>
      simp only [Executes] at permitted ⊢
      split at permitted
      next call op pending => exact ⟨permitted, start⟩
      next => trivial

/-- What every permitted execution does to the state, every choice of the run does; other choices leave it. -/
theorem Along.executes_state {ok : Nat → ι → Hist σ Op Res → Op → Prop} {R : σ → σ → Prop} (refl : ∀ s, R s s)
    (executed : ∀ tid call h op, ok tid call h op → R h.state (S.exec op h.state).2) {c : Config σ Op Res ι Out}
    {choices : List (Choice ι)} (along : S.Along (Executes ok) c choices) :
    S.Along (fun c choice => R c.state (S.step c choice).state) c choices := by
  refine along.mono fun c choice executes => ?_
  cases choice with
  | spawn call => exact refl c.state
  | fault tid =>
    rw [step_fault_state]
    exact refl c.state
  | exec tid =>
    cases pending : c.pending tid with
    | none =>
      rw [step_exec_of_idle (S := S) pending]
      exact refl c.state
    | some running =>
      obtain ⟨call, op⟩ := running
      have permitted : ok tid call c.toHist op := by simpa only [Executes, pending] using executes
      have moved := step_exec_of_pending (S := S) pending
      rw [moved]
      exact executed tid call c.toHist op permitted

/-- Every call of the pool was admitted when it was spawned. -/
theorem run_admitted {admits : ι → Prop} {ok : Nat → ι → Hist σ Op Res → Op → Prop}
    {c : Config σ Op Res ι Out} {choices : List (Choice ι)}
    (start : ∀ thread ∈ c.pool, admits thread.call) (along : S.Along (Permits admits ok) c choices) :
    ∀ thread ∈ (S.run c choices).pool, admits thread.call := by
  refine run_invariant (I := fun c => ∀ thread ∈ c.pool, admits thread.call) ?_ start along
  intro c choice admitted permits
  have moved := S.step_cases c choice
  generalize S.step c choice = c' at moved
  cases moved with
  | idle => exact admitted
  | spawn call =>
    intro thread member
    rcases List.mem_append.mp member with member | member
    · exact admitted thread member
    · rw [List.mem_singleton.mp member]
      exact permits
  | advance tid call op next res state scheduled alive answers =>
    intro thread member
    rcases List.mem_or_eq_of_mem_set member with member | rfl
    · exact admitted thread member
    · exact admitted ⟨call, .call op next⟩ (List.mem_of_getElem? alive)

end System

end Tape.Interleave
