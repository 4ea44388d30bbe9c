import Tape.Interleave.Rely

/-! # Protocols of threads

A protocol says in which stage a thread may perform an operation, and which stage the answer brings it
to.  The stage of a thread is what its own events have made of the first one, so no other thread moves
it.  A program follows a protocol if each operation it comes to is proper in its stage; whether it does
is decided by looking at the program alone.

`run_protocol` is the rule over runs: what proper operations preserve holds at the end.
-/

namespace Tape.Interleave

variable {σ Op : Type} {Res : Op → Type} {ι : Type} {Out : ι → Type} {Stage α β : Type}

structure Protocol (Op : Type) (Res : Op → Type) (Stage : Type) where
  start : Stage
  proper : Stage → Op → Prop
  after : Stage → (op : Op) → Res op → Stage
  /-- What the answer to an operation can be relied upon to be. -/
  expects : (op : Op) → Res op → Prop

namespace Protocol

variable (P : Protocol Op Res Stage)

/-- The stage that the thread's own events have brought it to. -/
def stage (tid : Nat) (log : List (Event Op Res)) : Stage :=
  ownFold tid (fun stage event => P.after stage event.op event.res) P.start log

theorem stage_push_self (h : Hist σ Op Res) (tid : Nat) (op : Op) (res : Res op) (state : σ) :
    P.stage tid (h.push tid op res state).log = P.after (P.stage tid h.log) op res :=
  ownFold_cons_self rfl

theorem stage_push_ne (h : Hist σ Op Res) {tid other : Nat} (op : Op) (res : Res op) (state : σ) (ne : other ≠ tid) :
    P.stage other (h.push tid op res state).log = P.stage other h.log :=
  ownFold_cons_ne (Ne.symm ne)

/-- Every operation the program comes to is proper, and it returns in `post`. -/
def Follows (post : α → Stage → Prop) : Stage → Prog Op Res α → Prop
  | stage, .ret value => post value stage
  | stage, .call op next =>
    P.proper stage op ∧ ∀ res, P.expects op res → Follows post (P.after stage op res) (next res)

variable {P}

theorem Follows.bind {post : β → Stage → Prop} {program : Prog Op Res α} {continuation : α → Prog Op Res β} {stage : Stage}
    (follows : P.Follows (fun value stage => P.Follows post stage (continuation value)) stage program) :
    P.Follows post stage (program.bind continuation) := by
  induction program generalizing stage with
  | ret value => exact follows
  | call op next inductionHypothesis =>
    exact ⟨follows.1, fun res expected => inductionHypothesis res (follows.2 res expected)⟩

theorem Follows.mono {post post' : α → Stage → Prop} (weaker : ∀ value stage, post value stage → post' value stage)
    {program : Prog Op Res α} {stage : Stage} (follows : P.Follows post stage program) : P.Follows post' stage program := by
  induction program generalizing stage with
  | ret value => exact weaker value stage follows
  | call op next inductionHypothesis =>
    exact ⟨follows.1, fun res expected => inductionHypothesis res (follows.2 res expected)⟩

/-- A program whose operations are proper in every stage follows the protocol from any. -/
theorem Follows.of_all {program : Prog Op Res α} (all : program.All fun op => ∀ stage, P.proper stage op) {stage : Stage} :
    P.Follows (fun _ _ => True) stage program := by
  induction program generalizing stage with
  | ret value => trivial
  | call op next inductionHypothesis => exact ⟨all.1 stage, fun res _ => inductionHypothesis res (all.2 res)⟩

theorem Follows.exceptBind {ε : Type} {post : Except ε β → Stage → Prop} {program : ExceptT ε (Prog Op Res) α}
    {continuation : α → ExceptT ε (Prog Op Res) β} {stage : Stage}
    (follows : P.Follows (fun value stage =>
      match value with
      | .ok value => P.Follows post stage (continuation value).run
      | .error e => post (.error e) stage) stage program.run) :
    P.Follows post stage (program >>= continuation).run := by
  refine Follows.bind (follows.mono fun value stage follows => ?_)
  cases value with
  | ok value => exact follows
  | error e => exact follows

variable {S : System σ Op Res ι Out} {ok : Nat → ι → Hist σ Op Res → Op → Prop} {admits : ι → Prop}

variable (P) in
/-- The operation is proper in the stage of the thread that performs it. -/
def InStage (tid : Nat) (_ : ι) (h : Hist σ Op Res) (op : Op) : Prop := P.proper (P.stage tid h.log) op

/-- A program that follows the protocol is safe wherever its thread is in the stage it starts from. -/
theorem Follows.safe (expected : ∀ {op s res s'}, S.Answers op s res s' → P.expects op res) {tid : Nat} {call : ι}
    {post : α → Stage → Prop} {program : Prog Op Res α} {stage : Stage} (follows : P.Follows post stage program)
    {h : Hist σ Op Res} (here : P.stage tid h.log = stage) :
    S.Safe (S.tracked ok P.InStage tid call) tid (fun _ _ => True) program h := by
  induction program generalizing stage h with
  | ret value => exact fun _ _ => trivial
  | call op next inductionHypothesis =>
    intro h' foreign permitted res state answers
    have stays : P.stage tid h'.log = stage := Eq.trans (Foreign.ownFold_eq foreign) here
    refine ⟨⟨op, res, state, rfl, answers, permitted, by rw [InStage, stays]; exact follows.1⟩, ?_⟩
    apply inductionHypothesis res (follows.2 res (expected answers))
    rw [stage_push_self, stays]

/-- What every permitted operation preserves in a stage where it is proper holds at the end of a run. -/
theorem run_protocol (expected : ∀ {op s res s'}, S.Answers op s res s' → P.expects op res)
    (follows : ∀ call, admits call → P.Follows (fun _ _ => True) P.start (S.body call)) {I : Hist σ Op Res → Prop}
    (preserved : ∀ tid call h op res state, S.Answers op h.state res state → ok tid call h op →
      P.proper (P.stage tid h.log) op → I h → I (h.push tid op res state))
    {c : Config σ Op Res ι Out} (noPool : c.pool = []) (noLog : c.log = []) (start : I c.toHist) {choices : List (Choice ι)}
    (along : S.Along (System.Permits admits ok) c choices) : I (S.run c choices).toHist := by
  have compose : System.Compose S admits (S.tracked ok P.InStage) (fun _ _ _ _ => True) :=
    System.tracked_compose fun admitted fresh => Follows.safe expected (follows _ admitted) (ownFold_of_fresh fresh)
  have owned : c.Owned := by
    intro event member
    rw [noLog] at member
    cases member
  exact System.run_tracked compose (fun tid call h op res state _ => preserved tid call h op res state) owned
    (System.poolSafe_of_empty noPool) start along

/-- Along a run of admitted programs that follow the protocol, whatever a thread comes to is proper in its stage. -/
theorem along_in_stage (expected : ∀ {op s res s'}, S.Answers op s res s' → P.expects op res)
    (follows : ∀ call, admits call → P.Follows (fun _ _ => True) P.start (S.body call))
    {c : Config σ Op Res ι Out} (noPool : c.pool = []) (noLog : c.log = []) {choices : List (Choice ι)}
    (along : S.Along (System.Permits admits ok) c choices) :
    S.Along (System.Permits admits fun tid call h op => ok tid call h op ∧ P.proper (P.stage tid h.log) op) c choices := by
  have compose : System.Compose S admits (S.tracked ok P.InStage) (fun _ _ _ _ => True) :=
    System.tracked_compose fun isAdmitted fresh => Follows.safe expected (follows _ isAdmitted) (ownFold_of_fresh fresh)
  have owned : c.Owned := by
    intro event member
    rw [noLog] at member
    cases member
  exact System.along_proper compose owned (System.poolSafe_of_empty noPool) along

/-- Along a run of admitted programs that follow the protocol, in which everything that is executed meets
    `ok`: whatever is executed is proper, and what that preserves holds before it. -/
theorem along_protocol_of_admitted (expected : ∀ {op s res s'}, S.Answers op s res s' → P.expects op res)
    (follows : ∀ call, admits call → P.Follows (fun _ _ => True) P.start (S.body call)) {I : Hist σ Op Res → Prop}
    (executed : ∀ tid call h op, ok tid call h op ∧ P.proper (P.stage tid h.log) op → I h →
      I (h.push tid op (S.exec op h.state).1 (S.exec op h.state).2))
    (failed : ∀ tid h op res, S.fault op = some res → I h → I (h.push tid op res h.state))
    {c : Config σ Op Res ι Out} (noPool : c.pool = []) (noLog : c.log = []) (start : I c.toHist) {choices : List (Choice ι)}
    (admitted : S.Along (System.Permits admits fun _ _ _ _ => True) c choices)
    (executes : S.Along (System.Executes ok) c choices) :
    S.Along (System.Executes fun tid call h op =>
      (ok tid call h op ∧ P.proper (P.stage tid h.log) op) ∧ I h) c choices := by
  have proper := along_in_stage expected follows noPool noLog admitted
  refine System.Along.executes_hist executed failed start ?_
  refine (proper.and executes).mono fun c choice both => ?_
  exact both.2.and (System.Executes.of_permits (both.1.mono fun _ _ _ => And.right))

/-- The same where every call is admitted. -/
theorem along_protocol (expected : ∀ {op s res s'}, S.Answers op s res s' → P.expects op res)
    (follows : ∀ call, P.Follows (fun _ _ => True) P.start (S.body call)) {I : Hist σ Op Res → Prop}
    (executed : ∀ tid call h op, ok tid call h op ∧ P.proper (P.stage tid h.log) op → I h →
      I (h.push tid op (S.exec op h.state).1 (S.exec op h.state).2))
    (failed : ∀ tid h op res, S.fault op = some res → I h → I (h.push tid op res h.state))
    {c : Config σ Op Res ι Out} (noPool : c.pool = []) (noLog : c.log = []) (start : I c.toHist) {choices : List (Choice ι)}
    (executes : S.Along (System.Executes ok) c choices) :
    S.Along (System.Executes fun tid call h op =>
      (ok tid call h op ∧ P.proper (P.stage tid h.log) op) ∧ I h) c choices :=
  along_protocol_of_admitted expected (fun call _ => follows call) executed failed noPool noLog start
    (System.along_free S c choices) executes

end Protocol

end Tape.Interleave
