import Tape.Lin.Check

/-! # Linearization points

The usual way to show that a concurrent history is linearizable: each operation takes effect at
one instant between its start and its end, and along these instants the model answers what the
clients observed.
-/

namespace Tape.Lin

/-- An operation with the instant it takes effect at. -/
structure Point (Op Ret : Type) where
  event : Event Op Ret
  pointNs : Nat

/-- The instant lies within the operation. -/
def Point.Timed {Op Ret : Type} (point : Point Op Ret) : Prop :=
  point.event.startNs ≤ point.pointNs ∧ point.pointNs ≤ point.event.endNs

section Points

variable {State Op Ret : Type} {points : List (Point Op Ret)}

/-- What takes effect later was not over before. -/
theorem realTime_of_points (timed : ∀ point ∈ points, point.Timed)
    (ordered : points.Pairwise fun first second => first.pointNs ≤ second.pointNs) :
    (points.map Point.event).Pairwise fun first second => ¬ second.before first := by
  rw [List.pairwise_map]
  apply ordered.imp_of_mem
  intro first second isFirst isSecond later early
  have starts := (timed first isFirst).1
  have ends := (timed second isSecond).2
  simp only [Event.before] at early
  omega

variable [DecidableEq Ret] {model : Model State Op Ret} {history : List (Event Op Ret)}

/-- A history is linearizable when the model performs its operations in the order of their points. -/
theorem linearizable_of_points {final : State} (timed : ∀ point ∈ points, point.Timed)
    (ordered : points.Pairwise fun first second => first.pointNs ≤ second.pointNs)
    (observed : history.Perm (points.map Point.event))
    (performed : (points.map Point.event).foldlM model.perform model.initial = some final) :
    Linearizable model history := by
  have answered := (foldlM_perform_iff.mp performed).1
  exact ⟨points.map Point.event, observed.symm, realTime_of_points timed ordered, answered⟩

end Points

end Tape.Lin
