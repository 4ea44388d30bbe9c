import Tape.Interleave.Rely

/-! # A machine that serves more calls

The operations of a machine and what they do to its state are not a matter of who performs them.  A
program that is safe among the calls of one system is safe among those of a larger one over the same
machine, under any contract that relies on more and guarantees less.
-/

namespace Tape.Interleave.System

variable {σ Op : Type} {Res : Op → Type} {ι κ : Type} {Out : ι → Type} {Out' : κ → Type} {α : Type}

/-- The same machine, which serves the calls of `body` too. -/
def adding (S : System σ Op Res ι Out) (body : (call : κ) → Prog Op Res (Out' call)) :
    System σ Op Res (ι ⊕ κ) (Sum.elim Out Out') where
  exec := S.exec
  fault := S.fault
  body
    | .inl call => S.body call
    | .inr call => body call

variable {S : System σ Op Res ι Out} {body : (call : κ) → Prog Op Res (Out' call)}

theorem answers_adding {op : Op} {s s' : σ} {res : Res op} :
    (S.adding body).Answers op s res s' ↔ S.Answers op s res s' := by
  constructor
  · intro answers
    cases answers with
    | exec => exact .exec
    | fault failed => exact .fault failed
  · intro answers
    cases answers with
    | exec => exact .exec
    | fault failed => exact .fault failed

/-- A contract that relies on no more, allows no more and guarantees no less than another. -/
structure Refines (K K' : Contract σ Op Res) : Prop where
  rely : ∀ {h h'}, K'.rely h h' → K.rely h h'
  allowed : ∀ {h op}, K'.allowed h op → K.allowed h op
  guar : ∀ {h h'}, K.guar h h' → K'.guar h h'

theorem Safe.adding {K K' : Contract σ Op Res} (refines : Refines K K') {tid : Nat}
    {post : α → Hist σ Op Res → Prop} {program : Prog Op Res α} {h : Hist σ Op Res} (safe : S.Safe K tid post program h) :
    (S.adding body).Safe K' tid post program h := by
  induction program generalizing h with
  | ret value => exact fun h' rely => safe h' (refines.rely rely)
  | call op next inductionHypothesis =>
    intro h' rely allowed res state answers
    obtain ⟨guar, rest⟩ :=
      safe h' (refines.rely rely) (refines.allowed allowed) res state (answers_adding.mp answers)
    exact ⟨refines.guar guar, inductionHypothesis res rest⟩

end Tape.Interleave.System
