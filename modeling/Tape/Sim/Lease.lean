import Tape.Lin.Points
import Tape.Sim.Calls

/-! # Histories of the lease in the simulation

`lease_history_is_linearizable` lets clients claim one obligation at the same time, notes for each call
when it began and ended, what it asked for and what it was told, and has `lin::check` judge the history
by the sequential lease model.  The store serves the calls one at a time under its mutex, amid whatever
else its other clients do, and a call is served at some instant between its two notes.

A note has the time its client read before the call; the store goes by the time the service reads.
The history is one of the model's when both readings agree on which claims come after which leases:
a test whose leases outlive it sees to that, and so do clocks that do not move between the readings.
-/

namespace Tape.Sim.MemRunStore

open Lin Tape.Sequential Sql

/-! ## Recorded calls -/

/-- A claim of the test. -/
structure TimedClaim where
  claimer : String
  ttlMs : Nat
  startNs : Nat
  /-- What the client read before the call. -/
  nowMs : Nat
  /-- What the service read. -/
  servedMs : Nat
  /-- When the call had the mutex. -/
  pointNs : Nat
  endNs : Nat
  deriving DecidableEq, Repr

/-- A resolution that gives the obligation back, which the history notes as a release. -/
structure TimedRelease where
  process : String
  status : Int
  resultJson : String
  startNs : Nat
  pointNs : Nat
  endNs : Nat
  deriving DecidableEq, Repr

/-- What the store serves: a call of the history, or one of another client. -/
inductive Step where
  | claim (c : TimedClaim)
  | release (r : TimedRelease)
  | other (call : Call)

def nanos (ms : Nat) : Nat := ms * 1000000

/-- The note of a claim that was answered. -/
def claimEvent (c : TimedClaim) (acquired : Bool) (obligation : Option ObligationRecord) : Event LeaseOp LeaseRet where
  process := c.claimer
  op := .claim c.claimer (nanos c.ttlMs) (nanos c.nowMs)
  ret := .claimed acquired (if acquired then c.claimer else (obligation.map ObligationRecord.claimedBy).getD "")
  startNs := c.startNs
  endNs := c.endNs

def releaseEvent (r : TimedRelease) : Event LeaseOp LeaseRet where
  process := r.process
  op := .release
  ret := .released
  startNs := r.startNs
  endNs := r.endNs

namespace Step

/-- The call on the store; those of the history are about `pk`. -/
def call (pk : String × Int) : Step → Call
  | claim c => .claimObligation pk.1 pk.2 c.claimer c.ttlMs c.servedMs
  | release r => .resolveObligation pk.1 pk.2 r.status r.resultJson
  | other call => call

/-- What the history notes of it. -/
def noted (pk : String × Int) (s : MemRunStore) : Step → List (Point LeaseOp LeaseRet)
  | claim c =>
    match (s.claimObligation pk.1 pk.2 c.claimer c.ttlMs c.servedMs).1 with
    | .ok (acquired, obligation) => [⟨claimEvent c acquired obligation, c.pointNs⟩]
    | .error _ => []
  | release r => [⟨releaseEvent r, r.pointNs⟩]
  | other _ => []

end Step

/-- The notes of a run, in the order in which the store served the calls. -/
def notes (pk : String × Int) : MemRunStore → List Step → List (Point LeaseOp LeaseRet)
  | _, [] => []
  | s, step :: steps => step.noted pk s ++ notes pk (s.serve (step.call pk)) steps

/-- The claims of a history. -/
def claimsOf (steps : List Step) : List TimedClaim :=
  steps.filterMap fun
    | .claim c => some c
    | _ => none

/-- The clocks of the client and of the service agree on whether `c` comes after the lease of `first`. -/
def Agree (first c : TimedClaim) : Prop :=
  first.servedMs + first.ttlMs ≤ c.servedMs ↔ first.nowMs + first.ttlMs ≤ c.nowMs

/-- What the test sees to: a call is served while it is under way, times do not overflow, a release
    gives the obligation back, and other clients neither claim nor resolve it. -/
def Fair (pk : String × Int) (claims : List TimedClaim) : Step → Prop
  | .claim c =>
    c.startNs ≤ c.pointNs ∧ c.pointNs ≤ c.endNs ∧ c.servedMs + c.ttlMs < 2 ^ 63 ∧
      nanos c.nowMs + nanos c.ttlMs < 2 ^ 64 ∧ ∀ first ∈ claims, Agree first c
  | .release r =>
    r.startNs ≤ r.pointNs ∧ r.pointNs ≤ r.endNs ∧ (ObligationStatus.tryFrom r.status).getD .pending = .pending
  | .other call => call.obligation? ≠ some pk

instance Agree.decidable (first c : TimedClaim) : Decidable (Agree first c) :=
  inferInstanceAs (Decidable (_ ↔ _))

instance Fair.decidable (pk : String × Int) (claims : List TimedClaim) : (step : Step) → Decidable (Fair pk claims step)
  | .claim _ => inferInstanceAs (Decidable (_ ∧ _ ∧ _ ∧ _ ∧ _))
  | .release _ => inferInstanceAs (Decidable (_ ∧ _ ∧ _))
  | .other _ => inferInstanceAs (Decidable (_ ≠ _))

/-! ## Rows and leases -/

/-- The row stands for the lease of the model, as the claims see both. -/
def Holds (claims : List TimedClaim) (row : ObligationRecord) (state : LeaseState) : Prop :=
  (∀ c ∈ claims, row.nextAttemptAtMs ≤ c.servedMs) ∧
    match state.lease with
    | none => ∀ c ∈ claims, eligible c.servedMs row
    | some (holder, expiresAtNs) =>
      row.status = ObligationStatus.committed.code ∧ row.claimedBy = holder ∧
        ∃ c ∈ claims, row.claimExpiresAtMs = c.servedMs + c.ttlMs ∧ expiresAtNs = nanos c.nowMs + nanos c.ttlMs

/-- The model answers a step as the store does, and then has the lease of the row that is left. -/
def Answered (pk : String × Int) (claims : List TimedClaim) (s : MemRunStore) (state : LeaseState) (step : Step) : Prop :=
  ∃ after row, ((step.noted pk s).map Point.event).foldlM leaseModel.perform state = some after ∧
    (s.serve (step.call pk)).obligations.find? pk = some row ∧ Holds claims row after

section Rows

variable {claims : List TimedClaim} {row : ObligationRecord} {state : LeaseState}

theorem eligible_of_pending {nowMs : Int} (pending : obligationStatus row = .pending)
    (due : row.nextAttemptAtMs ≤ nowMs) : eligible nowMs row := by
  simp [eligible, pending, due]

theorem eligible_of_committed {nowMs : Int} (committed : row.status = ObligationStatus.committed.code) :
    eligible nowMs row ↔ row.claimExpiresAtMs ≤ nowMs := by
  have isCommitted : obligationStatus row = .committed := by
    rw [obligationStatus, committed]
    rfl
  simp [eligible, isCommitted]

/-- The store asks of the row what the model asks of the lease. -/
theorem eligible_iff_free {c : TimedClaim} (holds : Holds claims row state) (member : c ∈ claims)
    (agree : ∀ first ∈ claims, Agree first c) :
    eligible c.servedMs row ↔ ∀ lease ∈ state.lease, lease.2 ≤ nanos c.nowMs := by
  obtain ⟨-, held⟩ := holds
  split at held
  next free => simp [free, held c member]
  next holder expiresAtNs isHeld =>
    obtain ⟨committed, -, first, isFirst, expires, isEnd⟩ := held
    have clocks := agree first isFirst
    simp only [Agree] at clocks
    rw [eligible_of_committed committed, expires, isHeld]
    simp only [Option.mem_def, Option.some.injEq, forall_eq', isEnd, nanos]
    constructor
    · intro expired
      have later := clocks.mp (by omega)
      omega
    · intro expired
      have later := clocks.mpr (by omega)
      omega

/-- An acquired claim is the new lease. -/
theorem holds_claim {c : TimedClaim} (holds : Holds claims row state) (member : c ∈ claims)
    (fits : c.servedMs + c.ttlMs < 2 ^ 63) :
    Holds claims ((claim c.claimer (addI64 c.servedMs c.ttlMs)).apply row)
      ⟨some (c.claimer, nanos c.nowMs + nanos c.ttlMs)⟩ := by
  have sum : addI64 c.servedMs c.ttlMs = c.servedMs + c.ttlMs := by
    apply addI64_eq
    · omega
    · omega
  refine ⟨holds.1, rfl, rfl, c, member, ?_, rfl⟩
  simp only [claim]
  exact sum

/-- A release leaves no lease. -/
theorem holds_release {status : Int} {resultJson : String} (holds : Holds claims row state)
    (pending : (ObligationStatus.tryFrom status).getD .pending = .pending) :
    Holds claims ((resolve status resultJson).apply row) ⟨none⟩ := by
  refine ⟨holds.1, ?_⟩
  intro c member
  exact eligible_of_pending pending (holds.1 c member)

end Rows

/-! ## Runs -/

section Runs

variable {pk : String × Int} {claims : List TimedClaim} {s : MemRunStore} {row : ObligationRecord} {state : LeaseState}

theorem perform_eq {event : Event LeaseOp LeaseRet} {after : LeaseState}
    (applied : leaseModel.apply state event.op = (after, event.ret)) : leaseModel.perform state event = some after := by
  simp [Model.perform, applied]

/-- The model answers a claim as the store does. -/
theorem performed_claim {c : TimedClaim} (found : s.obligations.find? pk = some row) (holds : Holds claims row state)
    (member : c ∈ claims) (fair : Fair pk claims (.claim c)) : Answered pk claims s state (.claim c) := by
  obtain ⟨-, -, fits, -, agree⟩ := fair
  have asks := eligible_iff_free holds member agree
  by_cases free : eligible c.servedMs row
  · have granted := claimObligation_of_eligible c.claimer c.ttlMs found free
    refine ⟨_, _, ?_, ?_, holds_claim holds member fits⟩
    · simp only [Step.noted, granted, List.map_cons, List.map_nil, List.foldlM_cons, List.foldlM_nil]
      rw [perform_eq (apply_claim_of_free (asks.mp free))]
      rfl
    · simp only [Step.call, serve, granted]
      rw [find?_modify, if_pos rfl, found]
      rfl
  · have refused := claimObligation_of_leased c.claimer c.ttlMs found free
    rw [asks] at free
    simp only [not_forall, Nat.not_le] at free
    obtain ⟨⟨holder, expiresAtNs⟩, held, live⟩ := free
    refine ⟨state, row, ?_, ?_, holds⟩
    · have isHolder : row.claimedBy = holder := by
        have lease := holds.2
        rw [held] at lease
        exact lease.2.1
      simp only [Step.noted, refused, List.map_cons, List.map_nil, List.foldlM_cons, List.foldlM_nil]
      have same : leaseModel.apply state (claimEvent c false (some row)).op = (state, (claimEvent c false (some row)).ret) := by
        simp [claimEvent, apply_claim_of_live held live, isHolder]
      rw [perform_eq same]
      rfl
    · simp only [Step.call, serve, refused]
      exact found

theorem performed_release {r : TimedRelease} (found : s.obligations.find? pk = some row)
    (holds : Holds claims row state) (fair : Fair pk claims (.release r)) :
    Answered pk claims s state (.release r) := by
  obtain ⟨-, -, pending⟩ := fair
  refine ⟨⟨none⟩, (resolve r.status r.resultJson).apply row, ?_, ?_, holds_release holds pending⟩
  · simp only [Step.noted, List.map_cons, List.map_nil, List.foldlM_cons, List.foldlM_nil]
    rw [perform_eq rfl]
    rfl
  · simp only [Step.call, serve, resolveObligation, found]
    rw [find?_modify, if_pos rfl, found]
    rfl

/-- The model performs the notes of a run. -/
theorem performed_notes {steps : List Step} (numbered : Numbered s) (found : s.obligations.find? pk = some row)
    (holds : Holds claims row state) (members : ∀ c ∈ claimsOf steps, c ∈ claims)
    (fair : ∀ step ∈ steps, Fair pk claims step) :
    ∃ final, ((notes pk s steps).map Point.event).foldlM leaseModel.perform state = some final := by
  induction steps generalizing s row state with
  | nil => exact ⟨state, rfl⟩
  | cons step steps inductionHypothesis =>
    have kept := numbered_serve s (step.call pk) numbered
    have rest : ∀ step ∈ steps, Fair pk claims step := fun other member => fair other (List.mem_cons_of_mem _ member)
    have own := fair step List.mem_cons_self
    have answered : Answered pk claims s state step := by
      cases step with
      | claim c => exact performed_claim found holds (members c (by simp [claimsOf])) own
      | release r => exact performed_release found holds own
      | other call => exact ⟨state, row, rfl, obligation_of_serve numbered found own, holds⟩
    obtain ⟨after, row', first, found', holds'⟩ := answered
    have later : ∀ c ∈ claimsOf steps, c ∈ claims := by
      intro c member
      apply members
      cases step with
      | claim other => exact List.mem_cons_of_mem _ member
      | release r => exact member
      | other call => exact member
    obtain ⟨final, last⟩ := inductionHypothesis kept found' holds' later rest
    refine ⟨final, ?_⟩
    rw [notes, List.map_append, List.foldlM_append, first]
    exact last

/-- A call is served while it is under way. -/
theorem timed_notes {steps : List Step} (fair : ∀ step ∈ steps, Fair pk claims step) :
    ∀ point ∈ notes pk s steps, point.Timed := by
  induction steps generalizing s with
  | nil => simp [notes]
  | cons step steps inductionHypothesis =>
    have own := fair step List.mem_cons_self
    intro point member
    rw [notes, List.mem_append] at member
    cases member with
    | inr later => exact inductionHypothesis (fun other isOther => fair other (List.mem_cons_of_mem _ isOther)) point later
    | inl now =>
      cases step with
      | claim c =>
        simp only [Step.noted] at now
        split at now
        · rw [List.mem_singleton] at now
          rw [now]
          exact ⟨own.1, own.2.1⟩
        · simp at now
      | release r =>
        rw [Step.noted, List.mem_singleton] at now
        rw [now]
        exact ⟨own.1, own.2.1⟩
      | other call => simp [Step.noted] at now

end Runs

/-- However the calls of any number of clients on a due obligation interleave, with each other and with
    whatever else the store does, `lin::check` accepts the history they record. -/
theorem lease_history_accepted (setup : List Call) (pk : String × Int) (steps : List Step) {row : ObligationRecord}
    {history : List (Event LeaseOp LeaseRet)}
    (registered : (run serve empty setup).obligations.find? pk = some row)
    (free : ∀ c ∈ claimsOf steps, eligible c.servedMs row) (due : ∀ c ∈ claimsOf steps, row.nextAttemptAtMs ≤ c.servedMs)
    (fair : ∀ step ∈ steps, Fair pk (claimsOf steps) step)
    (ordered : (notes pk (run serve empty setup) steps).Pairwise fun first second => first.pointNs ≤ second.pointNs)
    (recorded : history.Perm ((notes pk (run serve empty setup) steps).map Point.event)) :
    check leaseModel history = .ok () := by
  have start : Holds (claimsOf steps) row leaseModel.initial := ⟨due, free⟩
  obtain ⟨final, performed⟩ := performed_notes (numbered_run setup) registered start (fun _ member => member) fair
  have timed : ∀ point ∈ notes pk (run serve empty setup) steps, point.Timed := timed_notes fair
  apply check_ok_of_linearizable
  · intro event member
    obtain ⟨point, isPoint, rfl⟩ := List.mem_map.mp (recorded.subset member)
    exact (timed point isPoint).1.trans (timed point isPoint).2
  · exact linearizable_of_points timed ordered recorded performed

/-- The obligation that the reactors race for. -/
def raced : List Call :=
  [.registerCompensation "r-1" "r-1/decision-0/wire/0" "reverse_wire" .null "" 0 1000]

/-- `reactor-B` is served first, though `reactor-A` began before it; `reactor-C` comes when the lease
    is over, after one more attempt of `reactor-A`. -/
def race : List Step :=
  [.claim ⟨"reactor-B", 60000, 20, 1001, 1002, 30, 50⟩, .other (.endRun "r-1" 2 1002),
    .claim ⟨"reactor-A", 60000, 10, 1001, 1002, 31, 60⟩, .claim ⟨"reactor-A", 60000, 70, 5000, 5001, 75, 80⟩,
    .claim ⟨"reactor-C", 60000, 90, 61002, 61002, 95, 99⟩]

/-- The history as its clients collect it. -/
def raceHistory : List (Event LeaseOp LeaseRet) :=
  ((notes ("r-1", 1) (run serve empty raced) race).map Point.event).reverse

theorem isSome_raced : ((run serve empty raced).obligations.find? ("r-1", 1)).isSome := by decide +kernel

theorem race_accepted : check leaseModel raceHistory = .ok () :=
  lease_history_accepted raced ("r-1", 1) race (Option.some_get isSome_raced).symm (by decide +kernel)
    (by decide +kernel) (by decide +kernel) (by decide +kernel) (List.reverse_perm _)

end Tape.Sim.MemRunStore
