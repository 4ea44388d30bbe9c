import Tape.Interleave.Run

/-! # Leases in a history

A grant is an event that takes a lease at some time until some expiry, and a
release is an event that may end it early.  `Guards` is what one event has to do
with the state's own record of the lease; along a history whose events all guard
it, two grants with no release between them never overlap.
-/

namespace Tape.Interleave

variable {σ Op : Type} {Res : Op → Type}

/-- A kind of lease: which events grant it (`now`, `expiry`), which release it, and
    up to when a state holds it. -/
structure Lease (σ Op : Type) (Res : Op → Type) where
  grant : Event Op Res → Option (Int × Int)
  release : Event Op Res → Bool
  /-- The state will not grant the lease before this time. -/
  held : σ → Int → Prop

namespace Lease

variable (L : Lease σ Op Res)

structure Guards (s : σ) (event : Event Op Res) (s' : σ) : Prop where
  /-- A grant waits for every lease that is held. -/
  waits : ∀ now expiry, L.grant event = some (now, expiry) → ∀ until_, L.held s until_ → until_ ≤ now
  records : ∀ now expiry, L.grant event = some (now, expiry) → L.held s' expiry
  keeps : L.release event = false → ∀ until_, L.held s until_ → L.held s' until_

variable {L} in
/-- Where a lease is held until any earlier time too, it is enough to look at the grants and the rest apart. -/
theorem Guards.of_cases {s s' : σ} {event : Event Op Res}
    (antitone : ∀ {u expiry}, u ≤ expiry → L.held s' expiry → L.held s' u)
    (granted : ∀ now expiry, L.grant event = some (now, expiry) →
      now ≤ expiry ∧ (∀ u, L.held s u → u ≤ now) ∧ L.held s' expiry)
    (kept : L.grant event = none → L.release event = false → ∀ u, L.held s u → L.held s' u) : L.Guards s event s' where
  waits now expiry grant := (granted now expiry grant).2.1
  records now expiry grant := (granted now expiry grant).2.2
  keeps unreleased u held := by
    cases grant : L.grant event with
    | none => exact kept grant unreleased u held
    | some window =>
      obtain ⟨later, waits, records⟩ := granted window.1 window.2 grant
      exact antitone (Int.le_trans (waits u held) later) records

/-- Whatever was granted and not released since is held. -/
def Recorded (h : Hist σ Op Res) : Prop :=
  ∀ later event older now expiry, h.log = later ++ event :: older →
    L.grant event = some (now, expiry) → (∀ e ∈ later, L.release e = false) → L.held h.state expiry

/-- Of two grants with no release in between, the second waits for the first. -/
def Exclusive (log : List (Event Op Res)) : Prop :=
  ∀ newer second between first older, log = newer ++ second :: (between ++ first :: older) →
    ∀ now₁ expiry₁ now₂ expiry₂, L.grant first = some (now₁, expiry₁) →
      L.grant second = some (now₂, expiry₂) → (∀ e ∈ between, L.release e = false) → expiry₁ ≤ now₂

variable {L}

theorem Recorded.push {h : Hist σ Op Res} {tid : Nat} {op : Op} {res : Res op} {state : σ}
    (recorded : L.Recorded h) (guards : L.Guards h.state ⟨tid, op, res⟩ state) :
    L.Recorded (h.push tid op res state) := by
  intro later event older now expiry split granted unreleased
  cases later with
  | nil =>
    obtain ⟨rfl, -⟩ := List.cons.inj split
    exact guards.records now expiry granted
  | cons newest later =>
    obtain ⟨rfl, rest⟩ := List.cons.inj split
    have before := recorded later event older now expiry rest granted fun e member =>
      unreleased e (List.mem_cons_of_mem _ member)
    exact guards.keeps (unreleased _ List.mem_cons_self) expiry before

theorem Exclusive.push {h : Hist σ Op Res} {tid : Nat} {op : Op} {res : Res op} {state : σ}
    (exclusive : L.Exclusive h.log) (recorded : L.Recorded h)
    (guards : L.Guards h.state ⟨tid, op, res⟩ state) :
    L.Exclusive (h.push tid op res state).log := by
  intro newer second between first older split now₁ expiry₁ now₂ expiry₂ granted₁ granted₂ unreleased
  cases newer with
  | nil =>
    -- the second grant is the new event, and the first one is still held
    obtain ⟨rfl, rest⟩ := List.cons.inj split
    have held := recorded between first older now₁ expiry₁ rest granted₁ unreleased
    exact guards.waits now₂ expiry₂ granted₂ expiry₁ held
  | cons newest newer =>
    obtain ⟨-, rest⟩ := List.cons.inj split
    exact exclusive newer second between first older rest _ _ _ _ granted₁ granted₂ unreleased

/-- Of any two grants, the second waits for the first unless there was a release in between. -/
theorem Exclusive.expired_or_released {log newer between older : List (Event Op Res)} {first second : Event Op Res}
    {now₁ expiry₁ now₂ expiry₂ : Int} (exclusive : L.Exclusive log)
    (split : log = newer ++ second :: (between ++ first :: older)) (granted₁ : L.grant first = some (now₁, expiry₁))
    (granted₂ : L.grant second = some (now₂, expiry₂)) :
    expiry₁ ≤ now₂ ∨ ∃ event ∈ between, L.release event := by
  by_cases unreleased : ∀ event ∈ between, L.release event = false
  · exact .inl (exclusive newer second between first older split _ _ _ _ granted₁ granted₂ unreleased)
  · simp only [not_forall, Bool.not_eq_false] at unreleased
    obtain ⟨event, member, isRelease⟩ := unreleased
    exact .inr ⟨event, member, isRelease⟩

/-! ### Leases that are closed -/

variable (L) in
/-- Whatever closed the lease, and was not followed by a release, keeps it from being granted at any time. -/
def Closing (closes : Event Op Res → Bool) (h : Hist σ Op Res) : Prop :=
  ∀ later event older, h.log = later ++ event :: older → closes event → (∀ e ∈ later, L.release e = false) →
    ∀ until_, L.held h.state until_

variable (L) in
/-- No grant follows what closed the lease, unless there was a release in between. -/
def Closed (closes : Event Op Res → Bool) (log : List (Event Op Res)) : Prop :=
  ∀ newer grant between closing older, log = newer ++ grant :: (between ++ closing :: older) → closes closing →
    (L.grant grant).isSome → ∃ e ∈ between, L.release e

variable {closes : Event Op Res → Bool}

theorem Closing.push {h : Hist σ Op Res} {tid : Nat} {op : Op} {res : Res op} {state : σ}
    (closing : L.Closing closes h) (guards : L.Guards h.state ⟨tid, op, res⟩ state)
    (shuts : closes ⟨tid, op, res⟩ → ∀ until_, L.held state until_) :
    L.Closing closes (h.push tid op res state) := by
  intro later event older split isClosing unreleased until_
  cases later with
  | nil =>
    obtain ⟨rfl, -⟩ := List.cons.inj split
    exact shuts isClosing until_
  | cons newest later =>
    obtain ⟨rfl, rest⟩ := List.cons.inj split
    have before := closing later event older rest isClosing fun e member =>
      unreleased e (List.mem_cons_of_mem _ member)
    exact guards.keeps (unreleased _ List.mem_cons_self) until_ (before until_)

theorem Closed.push {h : Hist σ Op Res} {tid : Nat} {op : Op} {res : Res op} {state : σ}
    (closed : L.Closed closes h.log) (closing : L.Closing closes h)
    (guards : L.Guards h.state ⟨tid, op, res⟩ state) :
    L.Closed closes (h.push tid op res state).log := by
  intro newer grant between shut older split isClosing granted
  cases newer with
  | nil =>
    obtain ⟨rfl, rest⟩ := List.cons.inj split
    by_cases unreleased : ∀ e ∈ between, L.release e = false
    · obtain ⟨⟨now, expiry⟩, isGrant⟩ := Option.isSome_iff_exists.mp granted
      -- held until any time, it would have been held beyond the grant
      have held := closing between shut older rest isClosing unreleased (now + 1)
      have waits := guards.waits now expiry isGrant (now + 1) held
      omega
    · simpa only [not_forall, Bool.not_eq_false, exists_prop] using unreleased
  | cons newest newer =>
    obtain ⟨-, rest⟩ := List.cons.inj split
    exact closed newer grant between shut older rest isClosing granted

end Lease

/-- Two different events of a log come in one order or the other. -/
theorem ordered_of_mem {log : List (Event Op Res)} {a b : Event Op Res} (left : a ∈ log) (right : b ∈ log)
    (differ : a ≠ b) :
    (∃ newer between older, log = newer ++ b :: (between ++ a :: older)) ∨
      ∃ newer between older, log = newer ++ a :: (between ++ b :: older) := by
  obtain ⟨newer, older, rfl⟩ := List.append_of_mem left
  rcases List.mem_append.mp right with member | member
  · obtain ⟨newest, between, rfl⟩ := List.append_of_mem member
    exact .inl ⟨newest, between, older, by simp⟩
  · rcases List.mem_cons.mp member with rfl | member
    · exact absurd rfl differ
    · obtain ⟨between, oldest, rfl⟩ := List.append_of_mem member
      exact .inr ⟨newer, between, oldest, by simp⟩

theorem split_of_two_le_countP {α : Type} {p : α → Bool} {log : List α} (twice : 2 ≤ log.countP p) :
    ∃ newer second between first older, log = newer ++ second :: (between ++ first :: older) ∧
      p second ∧ p first := by
  induction log with
  | nil => simp at twice
  | cons newest log inductionHypothesis =>
    by_cases meets : p newest
    · rw [List.countP_cons_of_pos meets] at twice
      obtain ⟨first, member, firstMeets⟩ := List.countP_pos_iff.mp (show 0 < log.countP p by omega)
      obtain ⟨between, older, rfl⟩ := List.append_of_mem member
      exact ⟨[], newest, between, first, older, rfl, meets, firstMeets⟩
    · rw [List.countP_cons_of_neg meets] at twice
      obtain ⟨newer, second, between, first, older, rfl, both⟩ := inductionHypothesis twice
      exact ⟨newest :: newer, second, between, first, older, rfl, both⟩

end Tape.Interleave
