import Mathlib.Data.List.Induction

/-! # Sequential models

The server's tests judge concurrent histories by a sequential model: a state, and what
one operation at a time answers and leaves.  `leaseModel` is the model they use for the
obligation lease.  Without a release, the windows of the leases it grants follow one
another (`windows_disjoint`).
-/

namespace Tape.Lin

/-- `lin::Model`. -/
structure Model (State Op Ret : Type) where
  initial : State
  apply : State → Op → State × Ret

namespace Model

variable {State Op Ret : Type} (model : Model State Op Ret)

/-- Apply the operations one after the other. -/
def run (ops : List Op) : State × List Ret :=
  ops.foldl (fun (state, rets) op => ((model.apply state op).1, rets ++ [(model.apply state op).2]))
    (model.initial, [])

@[simp] theorem run_nil : model.run [] = (model.initial, []) := rfl

theorem run_concat (ops : List Op) (op : Op) :
    model.run (ops ++ [op]) =
      ((model.apply (model.run ops).1 op).1, (model.run ops).2 ++ [(model.apply (model.run ops).1 op).2]) := by
  simp [run, List.foldl_append]

theorem length_run (ops : List Op) : (model.run ops).2.length = ops.length := by
  induction ops using List.reverseRecOn with
  | nil => rfl
  | append_singleton ops op inductionHypothesis => simp [run_concat, inductionHypothesis]

end Model

/-! ## The lease model -/

inductive LeaseOp where
  | claim (claimer : String) (ttlNs nowNs : Nat)
  | release
  deriving DecidableEq, Repr

inductive LeaseRet where
  | claimed (acquired : Bool) (holder : String)
  | released
  deriving DecidableEq, Repr

structure LeaseState where
  /-- `Some((owner, expires_at_ns))` while a lease is live. -/
  lease : Option (String × Nat)
  deriving DecidableEq, Repr

/-- `LeaseModel`.  The times are `u64`s; a sum of two times that fit an `i64` does not overflow. -/
def leaseModel : Model LeaseState LeaseOp LeaseRet where
  initial := ⟨none⟩
  apply state
    | .claim claimer ttlNs nowNs =>
      match state.lease.filter fun lease => nowNs < lease.2 with
      | some (holder, _) => (state, .claimed false holder)
      | none => (⟨some (claimer, nowNs + ttlNs)⟩, .claimed true claimer)
    | .release => (⟨none⟩, .released)

def LeaseRet.isAcquired : LeaseRet → Bool
  | claimed acquired _ => acquired
  | released => false

section Apply

variable {state : LeaseState} {claimer : String} {ttlNs nowNs : Nat}

theorem apply_claim_of_live {holder : String} {expiresAtNs : Nat} (held : state.lease = some (holder, expiresAtNs))
    (live : nowNs < expiresAtNs) :
    leaseModel.apply state (.claim claimer ttlNs nowNs) = (state, .claimed false holder) := by
  simp [leaseModel, held, Option.filter, live]

theorem apply_claim_of_free (free : ∀ lease ∈ state.lease, lease.2 ≤ nowNs) :
    leaseModel.apply state (.claim claimer ttlNs nowNs) =
      (⟨some (claimer, nowNs + ttlNs)⟩, .claimed true claimer) := by
  have none_live : state.lease.filter (fun lease => nowNs < lease.2) = none := by
    rw [Option.filter_eq_none_iff]
    intro lease held
    simpa using free lease held
  simp [leaseModel, none_live]

end Apply

/-! ## Windows -/

/-- The window of the lease an operation was granted. -/
def window : LeaseOp → LeaseRet → Option (Nat × Nat)
  | .claim _ ttlNs nowNs, .claimed true _ => some (nowNs, nowNs + ttlNs)
  | _, _ => none

/-- The windows of the leases the model grants, first to last. -/
def windows (ops : List LeaseOp) : List (Nat × Nat) :=
  (ops.zip (leaseModel.run ops).2).filterMap fun (op, ret) => window op ret

theorem windows_concat (ops : List LeaseOp) (op : LeaseOp) :
    windows (ops ++ [op]) = windows ops ++ (window op (leaseModel.apply (leaseModel.run ops).1 op).2).toList := by
  rw [windows, Model.run_concat, List.zip_append (leaseModel.length_run ops).symm, List.filterMap_append, windows]
  cases granted : window op (leaseModel.apply (leaseModel.run ops).1 op).2 <;> simp [granted]

/-- Every window the model granted is over by the time the present lease is. -/
theorem windows_until_lease {ops : List LeaseOp} (claims : ∀ op ∈ ops, op ≠ .release) :
    ∀ granted ∈ windows ops, ∃ lease ∈ (leaseModel.run ops).1.lease, granted.2 ≤ lease.2 := by
  induction ops using List.reverseRecOn with
  | nil => simp [windows]
  | append_singleton ops op inductionHypothesis =>
    have earlier := inductionHypothesis fun op member => claims op (List.mem_append_left _ member)
    intro granted member
    rw [windows_concat] at member
    rw [Model.run_concat]
    cases op with
    | release => exact absurd rfl (claims .release (by simp))
    | claim claimer ttlNs nowNs =>
      by_cases free : ∀ lease ∈ (leaseModel.run ops).1.lease, lease.2 ≤ nowNs
      · rw [apply_claim_of_free free] at member ⊢
        refine ⟨_, rfl, ?_⟩
        rcases List.mem_append.mp member with member | member
        · obtain ⟨lease, held, before⟩ := earlier granted member
          have expired := free lease held
          simp only
          omega
        · simp only [window, Option.toList_some, List.mem_singleton] at member
          subst member
          exact Nat.le_refl _
      · -- a refused claim leaves the lease, and has no window
        simp only [not_forall, Nat.not_le] at free
        obtain ⟨⟨holder, expiresAtNs⟩, held, live⟩ := free
        rw [apply_claim_of_live held live] at member ⊢
        simp only [window, Option.toList_none, List.append_nil] at member
        exact earlier granted member

/-- Without a release, a lease is granted only after the ones before it are over. -/
theorem windows_disjoint {ops : List LeaseOp} (claims : ∀ op ∈ ops, op ≠ .release) :
    (windows ops).Pairwise fun first second => first.2 ≤ second.1 := by
  induction ops using List.reverseRecOn with
  | nil => simp [windows]
  | append_singleton ops op inductionHypothesis =>
    have earlier : ∀ op ∈ ops, op ≠ .release := fun op member => claims op (List.mem_append_left _ member)
    rw [windows_concat]
    cases op with
    | release => exact absurd rfl (claims .release (by simp))
    | claim claimer ttlNs nowNs =>
      by_cases free : ∀ lease ∈ (leaseModel.run ops).1.lease, lease.2 ≤ nowNs
      · rw [apply_claim_of_free free]
        refine List.pairwise_append.mpr ⟨inductionHypothesis earlier, by simp [window], ?_⟩
        intro granted member new isNew
        simp only [window, Option.toList_some, List.mem_singleton] at isNew
        subst isNew
        obtain ⟨lease, held, before⟩ := windows_until_lease earlier granted member
        exact Nat.le_trans before (free lease held)
      · simp only [not_forall, Nat.not_le] at free
        obtain ⟨⟨holder, expiresAtNs⟩, held, live⟩ := free
        rw [apply_claim_of_live held live]
        simpa [window] using inductionHypothesis earlier

end Tape.Lin
