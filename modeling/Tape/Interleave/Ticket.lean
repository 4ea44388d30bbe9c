import Mathlib.Data.Finset.Card
import Mathlib.Data.List.Count
import Tape.Interleave.Register

/-! # Tickets

Threads draw tickets from a register: each version that a thread writes is a ticket of its own, and it
uses one for another operation at most once.  So a ticket is used no more often than it was drawn,
whoever crashes in between; and where no version is written twice, no ticket is used twice.
-/

namespace Tape.Interleave

variable {σ Op ι β α : Type} {Res : Op → Type} {Out : ι → Type} {S : System σ Op Res ι Out}

structure Tickets (R : Register S β) where
  /-- The ticket that an operation uses. -/
  used : Event Op Res → Option β
  apart : ∀ event, (used event).isSome → R.wrote event = none

namespace Tickets

variable {R : Register S β} (T : Tickets R)

/-- The ticket that a thread has after an event of its own. -/
def hold (held : Option β) (event : Event Op Res) : Option β :=
  (R.wrote event).or (if (T.used event).isSome then none else held)

/-- The ticket that a thread has drawn and not used. -/
def held (tid : Nat) : List (Event Op Res) → Option β := ownFold tid T.hold none

/-- The tickets that were used, newest first. -/
def usedUp (log : List (Event Op Res)) : List β := log.filterMap T.used

/-- What the thread uses is the ticket that it has. -/
def Pays (tid : Nat) (log : List (Event Op Res)) (op : Op) : Prop :=
  ∀ res b, T.used ⟨tid, op, res⟩ = some b → T.held tid log = some b

/-- What a thread knows of the register, and the ticket that it has. -/
structure Stage (β : Type) where
  known : Option β
  held : Option β

/-- The protocol of a thread that draws its tickets as `f` makes them of its last read. -/
def protocol (f : β → β) (tid : Nat) : Protocol Op Res (Stage β) where
  start := ⟨none, none⟩
  proper stage op :=
    (R.protocol f tid).proper stage.known op ∧ ∀ res b, T.used ⟨tid, op, res⟩ = some b → stage.held = some b
  after stage op res := ⟨(R.protocol f tid).after stage.known op res, T.hold stage.held ⟨tid, op, res⟩⟩
  expects := R.expects

section Protocol

variable {T} {f : β → β} {tid : Nat}

/-- Such a thread keeps to the protocol of the register. -/
theorem Follows.derives {program : Prog Op Res α} {stage : Stage β}
    (follows : (T.protocol f tid).Follows (fun _ _ => True) stage program) :
    (R.protocol f tid).Follows (fun _ _ => True) stage.known program := by
  induction program generalizing stage with
  | ret value => trivial
  | call op next inductionHypothesis =>
    exact ⟨follows.1.1, fun res expected => inductionHypothesis res (follows.2 res expected)⟩

theorem stage_protocol (log : List (Event Op Res)) : ((T.protocol f tid).stage tid log).held = T.held tid log := by
  induction log with
  | nil => rfl
  | cons event log inductionHypothesis =>
    by_cases own : event.tid = tid
    · subst own
      simp only [Protocol.stage, held, ownFold_cons_self] at inductionHypothesis ⊢
      rw [← inductionHypothesis]
      rfl
    · simp only [Protocol.stage, held, ownFold_cons_ne own] at inductionHypothesis ⊢
      exact inductionHypothesis

end Protocol

/-! ## No ticket is used more often than it was drawn -/

section Covered

variable [DecidableEq β] {T} {tid : Nat} {h : Hist σ Op Res} {op : Op} {res : Res op} {s' : σ}

/-- The threads among `tids` that have the ticket `b`. -/
def holders (T : Tickets R) (b : β) (log : List (Event Op Res)) (tids : Finset Nat) : Finset Nat :=
  tids.filter fun tid => T.held tid log = some b

/-- Whatever was used, and whatever some threads still have, was drawn. -/
def Covered (T : Tickets R) (log : List (Event Op Res)) : Prop :=
  ∀ b tids, (T.usedUp log).count b + (T.holders b log tids).card ≤ (R.written log).count b

omit [DecidableEq β] in
theorem held_push_ne {other : Nat} (ne : other ≠ tid) :
    T.held other (h.push tid op res s').log = T.held other h.log := ownFold_cons_ne (Ne.symm ne)

omit [DecidableEq β] in
theorem held_push_self : T.held tid (h.push tid op res s').log = T.hold (T.held tid h.log) ⟨tid, op, res⟩ :=
  ownFold_cons_self rfl

variable (tid h res s') in
/-- The other threads have what they had. -/
theorem card_holders_push (b : β) (tids : Finset Nat) :
    (T.holders b (h.push tid op res s').log tids).card ≤ (T.holders b h.log (tids.erase tid)).card +
      if T.hold (T.held tid h.log) ⟨tid, op, res⟩ = some b then 1 else 0 := by
  have among : T.holders b (h.push tid op res s').log tids ⊆ T.holders b h.log (tids.erase tid) ∪
      if T.hold (T.held tid h.log) ⟨tid, op, res⟩ = some b then {tid} else ∅ := by
    intro other member
    rw [holders, Finset.mem_filter] at member
    rw [Finset.mem_union]
    by_cases same : other = tid
    · subst same
      rw [held_push_self] at member
      simp [member.2]
    · rw [held_push_ne same] at member
      left
      rw [holders, Finset.mem_filter, Finset.mem_erase]
      exact ⟨⟨same, member.1⟩, member.2⟩
  have bound := (Finset.card_le_card among).trans (Finset.card_union_le _ _)
  split at bound
  next has => simpa [has] using bound
  next hasNot => simpa [hasNot] using bound

/-- A thread that has the ticket counts once more. -/
theorem card_holders_insert {b : β} {log : List (Event Op Res)} (tids : Finset Nat) (has : T.held tid log = some b) :
    (T.holders b log (insert tid tids)).card = (T.holders b log (tids.erase tid)).card + 1 := by
  have split : T.holders b log (insert tid tids) = insert tid (T.holders b log (tids.erase tid)) := by
    ext other
    by_cases same : other = tid
    · subst same
      simp [holders, has]
    · simp [holders, same]
  rw [split, Finset.card_insert_of_notMem]
  simp [holders]

theorem Covered.push (covered : T.Covered h.log) (pays : T.Pays tid h.log op) :
    T.Covered (h.push tid op res s').log := by
  intro b tids
  have bound := T.card_holders_push tid h res s' b tids
  have others := covered b (tids.erase tid)
  rw [Hist.push_log] at bound ⊢
  cases isWrite : R.wrote ⟨tid, op, res⟩ with
  | some drawn =>
    -- one more was drawn, and the thread has it
    have noUse : T.used ⟨tid, op, res⟩ = none := by
      cases isUse : T.used ⟨tid, op, res⟩ with
      | none => rfl
      | some used => simp [T.apart _ (Option.isSome_of_eq_some isUse)] at isWrite
    simp only [hold, isWrite, Option.some_or, Option.some.injEq] at bound
    simp only [usedUp, Register.written, List.filterMap_cons, noUse, isWrite, List.count_cons,
      beq_iff_eq] at others ⊢
    omega
  | none =>
    cases isUse : T.used ⟨tid, op, res⟩ with
    | some used =>
      have has := pays res used isUse
      simp only [hold, isWrite, isUse, Option.none_or, Option.isSome_some, if_true, reduceCtorEq, if_false,
        Nat.add_zero] at bound
      simp only [usedUp, Register.written, List.filterMap_cons, isUse, isWrite, List.count_cons,
        beq_iff_eq] at others ⊢
      split
      next same =>
        -- before, the thread had the ticket
        subst same
        have before := covered used (insert tid tids)
        rw [card_holders_insert tids has] at before
        simp only [usedUp, Register.written] at before
        omega
      next => omega
    | none =>
      simp only [hold, isWrite, isUse, Option.none_or, Option.isSome_none, Bool.false_eq_true, if_false] at bound
      simp only [usedUp, Register.written, List.filterMap_cons, isUse, isWrite] at others ⊢
      split at bound
      next has =>
        have before := covered b (insert tid tids)
        rw [card_holders_insert tids has] at before
        simp only [usedUp, Register.written] at before
        omega
      next => omega

theorem Covered.nil : T.Covered [] := by
  intro b tids
  simp [usedUp, holders, held, ownFold]

/-! ## Runs -/

variable {f : β → β} {admits : ι → Prop} {c : Config σ Op Res ι Out} {choices : List (Choice ι)}

theorem run_covered
    (follows : ∀ tid call, admits call → (T.protocol f tid).Follows (fun _ _ => True) ⟨none, none⟩ (S.body call))
    (noPool : c.pool = []) (noLog : c.log = []) (along : S.Along (System.Permits admits fun _ _ _ _ => True) c choices) :
    T.Covered (S.run c choices).log := by
  have start : T.Covered c.toHist.log := by
    rw [show c.toHist.log = [] from noLog]
    exact .nil
  refine Register.run_protocols (P := fun tid _ => T.protocol f tid) (I := fun h => T.Covered h.log)
    (fun _ _ _ _ _ _ => R.expected) follows (fun tid call h op res state _ _ proper covered => covered.push ?_)
    noPool noLog start along
  intro res b isUse
  rw [← stage_protocol (f := f)]
  exact proper.2 res b isUse

/-- **No ticket is used twice** where none was drawn twice. -/
theorem run_used_nodup
    (follows : ∀ tid call, admits call → (T.protocol f tid).Follows (fun _ _ => True) ⟨none, none⟩ (S.body call))
    (noPool : c.pool = []) (noLog : c.log = []) (along : S.Along (System.Permits admits fun _ _ _ _ => True) c choices)
    (once : (R.written (S.run c choices).log).Nodup) : (T.usedUp (S.run c choices).log).Nodup := by
  rw [List.nodup_iff_count_le_one] at once ⊢
  intro b
  have bound := run_covered follows noPool noLog along b ∅
  have drawn := once b
  omega

end Covered

end Tickets

end Tape.Interleave
