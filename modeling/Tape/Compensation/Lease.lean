import Tape.Compensation.Obligation
import Tape.Lin

/-! # The lease on an obligation

`claim_obligation` keeps its lease in four columns: the status, the time of the next
attempt, the claimer and the expiry.  For an obligation that is due, and as long as only
claims are made on it, these columns stand for the one optional lease of the sequential
model, and each claim `UPDATE` is one step of the model.

The expiry is a sum of two `i64`s that nothing checks.  A sum that does not fit wraps
around to a negative number, which the `WHERE` clause never takes for an expired lease:
the claims still exclude each other, but the row no longer says until when.
-/

namespace Tape.Compensation

open Interleave Lin

/-! ## Rows and leases -/

/-- The row of a due obligation stands for the lease of the model. -/
def Represents (due : Int) (row : ObligationRecord) (state : LeaseState) : Prop :=
  match state.lease with
  | none => row.status = ObligationStatus.pending.code ∧ row.nextAttemptAtMs = due
  | some (holder, expiresAt) =>
    row.status = ObligationStatus.committed.code ∧ row.claimedBy = holder ∧
      row.claimExpiresAtMs = Int.bmod expiresAt (2 ^ 64) ∧ 0 < expiresAt ∧ expiresAt < 2 ^ 64

/-- What the claim `UPDATE` makes of a row. -/
def claimedRow (claimer : String) (leaseExp now : Int) (row : ObligationRecord) : ObligationRecord :=
  if ObligationStmt.claimable now row then
    (ObligationStmt.claimObligation row.runId row.seq claimer leaseExp now).assign row
  else row

section Rows

variable {due : Int} {row : ObligationRecord} {state : LeaseState}

theorem bmod_of_fits {expiresAt : Nat} (fits : expiresAt < 2 ^ 63) :
    Int.bmod expiresAt (2 ^ 64) = expiresAt :=
  Int.bmod_eq_of_le_mul_two (by omega) (by omega)

/-- An expiry that does not fit an `i64` is stored as a negative number. -/
theorem bmod_of_wraps {expiresAt : Nat} (wraps : 2 ^ 63 ≤ expiresAt) (bound : expiresAt < 2 ^ 64) :
    Int.bmod expiresAt (2 ^ 64) < 0 := by
  rw [Int.bmod_def]
  omega

/-- The guard of the `UPDATE` asks what the model asks. -/
theorem claimable_iff_free {now : Nat} (represents : Represents due row state) (timely : due ≤ now)
    (fits : now < 2 ^ 63) : ObligationStmt.claimable now row ↔ ∀ lease ∈ state.lease, lease.2 ≤ now := by
  unfold Represents at represents
  split at represents
  next free =>
    obtain ⟨pending, rfl⟩ := represents
    simp [ObligationStmt.claimable, pending, free, timely]
  next holder expiresAt held =>
    obtain ⟨committed, -, expiry, positive, bound⟩ := represents
    have unfolded : ObligationStmt.claimable now row ↔ row.claimExpiresAtMs ≤ now ∧ 0 < row.claimExpiresAtMs := by
      simp [ObligationStmt.claimable, committed, ObligationStatus.code]
    rw [unfolded, expiry, held]
    simp only [Option.mem_def, Option.some.injEq, forall_eq']
    by_cases whole : expiresAt < 2 ^ 63
    · rw [bmod_of_fits whole]
      omega
    · -- a wrapped expiry is never over, and neither is the model's
      have negative := bmod_of_wraps (Nat.le_of_not_lt whole) bound
      omega

/-- One claim `UPDATE` is one step of the model. -/
theorem represents_claim (claimer : String) (now ttl : Nat) (represents : Represents due row state)
    (timely : due ≤ now) (fitsNow : now < 2 ^ 63) (positive : 0 < ttl) (fitsTtl : ttl < 2 ^ 63) :
    (leaseModel.apply state (.claim claimer ttl now)).2.isAcquired = ObligationStmt.claimable now row ∧
      Represents due (claimedRow claimer (addI64 now ttl) now row)
        (leaseModel.apply state (.claim claimer ttl now)).1 := by
  have guard := claimable_iff_free represents timely fitsNow
  by_cases free : ∀ lease ∈ state.lease, lease.2 ≤ now
  · rw [apply_claim_of_free free, claimedRow, if_pos (guard.mpr free), guard.mpr free]
    refine ⟨rfl, rfl, rfl, ?_, ?_, ?_⟩
    · simp only [ObligationStmt.assign, addI64, Int.natCast_add]
    · omega
    · omega
  · have refused : ObligationStmt.claimable now row = false := by
      rw [← Bool.not_eq_true, guard]
      exact free
    simp only [not_forall, not_le] at free
    obtain ⟨⟨holder, expiresAt⟩, held, live⟩ := free
    rw [apply_claim_of_live held live, claimedRow, refused]
    exact ⟨rfl, represents⟩

end Rows

/-! ## Claims in the log -/

/-- An executed claim `UPDATE`: what its call asked for, and whether it changed the row. -/
structure ClaimUpdate where
  tid : Nat
  claimer : String
  ttlMs : Nat
  nowMs : Nat
  acquired : Bool
  deriving DecidableEq

namespace ClaimUpdate

def op (claim : ClaimUpdate) : LeaseOp := .claim claim.claimer claim.ttlMs claim.nowMs

/-- From when until when the claim asks for the lease. -/
def window (claim : ClaimUpdate) : Nat × Nat := (claim.nowMs, claim.nowMs + claim.ttlMs)

end ClaimUpdate

/-- What a `claim_obligation` call comes to when its `UPDATE` is executed. -/
def claimUpdateOf (tid : Nat) (claimer : String) (leaseTtlMs nowMs clock : Int) (acquired : Bool) : ClaimUpdate where
  tid := tid
  claimer := claimer
  ttlMs := (RunStore.claimTtl leaseTtlMs).toNat
  nowMs := (RunStore.claimTime nowMs clock).toNat
  acquired := acquired

/-- The obligation a claim `UPDATE` was executed for, and whether it won. -/
def executedClaim : TapeEvent → Option ((String × Int) × Bool)
  | ⟨_, .sql (.obligation (.claimObligation runId seq _ _ _)), .ok updated⟩ =>
    some ((runId, seq), wins.isPositive updated)
  | _ => none

/-- The claim `UPDATE` on `pk` that the event executed, for the call its thread serves. -/
def claimUpdate (calls : Nat → Option Call) (pk : String × Int) (event : TapeEvent) : Option ClaimUpdate :=
  match executedClaim event, calls event.tid with
  | some (pk', acquired), some (.claimObligation _ _ claimer leaseTtlMs nowMs clock) =>
    if pk' = pk then some (claimUpdateOf event.tid claimer leaseTtlMs nowMs clock acquired) else none
  | _, _ => none

/-- The claim `UPDATE`s on `pk`, in the order they were executed. -/
def claimUpdates (calls : Nat → Option Call) (pk : String × Int) (log : List TapeEvent) : List ClaimUpdate :=
  log.reverse.filterMap (claimUpdate calls pk)

theorem claimUpdates_cons (calls : Nat → Option Call) (pk : String × Int) (event : TapeEvent) (log : List TapeEvent) :
    claimUpdates calls pk (event :: log) = claimUpdates calls pk log ++ (claimUpdate calls pk event).toList := by
  rw [claimUpdates, List.reverse_cons, List.filterMap_append, claimUpdates]
  cases found : claimUpdate calls pk event <;> simp [found]

/-- A `claim_obligation` call as an RPC delivers it: its times are `i64`s, the effective time is not
    negative, and a claim on `pk` does not come before the obligation is due. -/
def isTimelyClaim (pk : String × Int) (due : Int) : Call → Bool
  | .claimObligation runId seq _ leaseTtlMs nowMs clock =>
    RunStore.claimTtl leaseTtlMs < 2 ^ 63 && 0 ≤ RunStore.claimTime nowMs clock &&
      RunStore.claimTime nowMs clock < 2 ^ 63 &&
      ((runId, seq) ≠ pk || due ≤ RunStore.claimTime nowMs clock)
  | _ => false

/-- The acts of a timely `claim_obligation` call; its `UPDATE` carries what the call asks for. -/
def ClaimsOnly (pk : String × Int) (due : Int) (_ : Nat) (call : Call) (_ : TapeHist) : Act → Prop
  | .sql (.obligation (.claimObligation runId seq claimer leaseExp now)) =>
    isTimelyClaim pk due call ∧ ∃ leaseTtlMs nowMs clock,
      call = .claimObligation runId seq claimer leaseTtlMs nowMs clock ∧
        now = RunStore.claimTime nowMs clock ∧ leaseExp = addI64 now (RunStore.claimTtl leaseTtlMs)
  | .sql (.obligation (.getObligation ..)) => True
  | .sql (.obligation _) => False
  | _ => True

theorem claim_of_executedClaim {tid : Nat} {act : Act} {res : act.Res} {claim : (String × Int) × Bool}
    (executed : executedClaim ⟨tid, act, res⟩ = some claim) :
    ∃ runId seq claimer leaseExp now, ∃ updated : Nat,
      ∃ isClaim : act = .obligation (.claimObligation runId seq claimer leaseExp now),
        isClaim ▸ res = .ok updated ∧ claim = ((runId, seq), wins.isPositive updated) := by
  unfold executedClaim at executed
  split at executed
  next _ runId seq claimer leaseExp now updated isClaim =>
    cases isClaim
    exact ⟨runId, seq, claimer, leaseExp, now, updated, rfl, rfl, (Option.some.inj executed).symm⟩
  next => cases executed

section Steps

variable {calls : Nat → Option Call} {pk : String × Int} {due : Int} {tid : Nat} {call : Call} {h : TapeHist}
  {act : Act} {res : act.Res} {state : World} {row : ObligationRecord}

/-- What one act of a claim call has to do with the row and with the list of claims. -/
theorem claimUpdate_cases (serves : calls tid = some call) (only : ClaimsOnly pk due tid call h act)
    (answers : tape.Answers act h.state res state) (found : h.state.obligations.find? pk = some row) :
    (claimUpdate calls pk ⟨tid, act, res⟩ = none ∧ state.obligations.find? pk = some row) ∨
      ∃ claimer leaseTtlMs nowMs clock,
        isTimelyClaim pk due (.claimObligation pk.1 pk.2 claimer leaseTtlMs nowMs clock) ∧
        claimUpdate calls pk ⟨tid, act, res⟩ = some (claimUpdateOf tid claimer leaseTtlMs nowMs clock
          (ObligationStmt.claimable (RunStore.claimTime nowMs clock) row)) ∧
        state.obligations.find? pk = some (claimedRow claimer
          (addI64 (RunStore.claimTime nowMs clock) (RunStore.claimTtl leaseTtlMs))
          (RunStore.claimTime nowMs clock) row) := by
  cases executed : executedClaim ⟨tid, act, res⟩ with
  | none =>
    refine .inl ⟨by simp [claimUpdate, executed], ?_⟩
    obtain kept | ⟨s, rfl, rfl, -, found'⟩ := obligation_of_answers answers found
    · exact kept
    · cases s with
      -- a claim that was executed is on the list
      | claimObligation => cases executed
      | getObligation => exact found'
      | _ => exact absurd only id
  | some claim =>
    obtain ⟨runId, seq, claimer, leaseExp, now, updated, rfl, rfl, rfl⟩ := claim_of_executedClaim executed
    obtain ⟨timely, leaseTtlMs, nowMs, clock, rfl, rfl, rfl⟩ := only
    obtain ⟨counted, rfl⟩ := exec_of_ok answers
    obtain rfl := Except.ok.inj counted
    have written := ObligationStmt.find?_exec_of_some (s := .claimObligation runId seq claimer
      (addI64 (RunStore.claimTime nowMs clock) (RunStore.claimTtl leaseTtlMs)) (RunStore.claimTime nowMs clock)) found
    have key := Sql.Table.key_of_find? found
    by_cases own : (runId, seq) = pk
    · subst own
      -- the UPDATE counts the row exactly if its WHERE holds of it
      have won : wins.isPositive (h.state.obligations.count (ObligationStmt.claimObligation runId seq claimer
          (addI64 (RunStore.claimTime nowMs clock) (RunStore.claimTtl leaseTtlMs))
          (RunStore.claimTime nowMs clock)).selects) =
          ObligationStmt.claimable (RunStore.claimTime nowMs clock) row := by
        rw [Bool.eq_iff_iff, wins.isPositive, decide_eq_true_eq, claim_pos_iff]
        simp [found]
      refine .inr ⟨claimer, leaseTtlMs, nowMs, clock, timely, ?_, ?_⟩
      · simp only [claimUpdate, executedClaim, serves, if_pos, ← won]
      · have selects : (ObligationStmt.claimObligation runId seq claimer
            (addI64 (RunStore.claimTime nowMs clock) (RunStore.claimTtl leaseTtlMs))
            (RunStore.claimTime nowMs clock)).selects row =
            ObligationStmt.claimable (RunStore.claimTime nowMs clock) row := by
          simp [ObligationStmt.selects, key]
        rw [ObligationStmt.apply, selects] at written
        exact written
    · refine .inl ⟨by simp [claimUpdate, executedClaim, serves, own], ?_⟩
      rwa [ObligationStmt.apply, if_neg (by simp [ObligationStmt.selects, key, Ne.symm own])] at written

/-! ## Simulation -/

/-- The claims made so far, run through the model, were answered as by the database, and the row
    stands for the lease the model is left with. -/
structure Simulates (calls : Nat → Option Call) (pk : String × Int) (due : Int) (h : TapeHist) : Prop where
  answers : (claimUpdates calls pk h.log).map ClaimUpdate.acquired =
    (leaseModel.run ((claimUpdates calls pk h.log).map ClaimUpdate.op)).2.map LeaseRet.isAcquired
  windows : ((claimUpdates calls pk h.log).filter ClaimUpdate.acquired).map ClaimUpdate.window =
    windows ((claimUpdates calls pk h.log).map ClaimUpdate.op)
  row : ∃ row, h.state.obligations.find? pk = some row ∧
    Represents due row (leaseModel.run ((claimUpdates calls pk h.log).map ClaimUpdate.op)).1

variable (tid) in
theorem represents_claimUpdate {lease : LeaseState} {claimer : String} {leaseTtlMs nowMs clock : Int}
    (represents : Represents due row lease)
    (timely : isTimelyClaim pk due (.claimObligation pk.1 pk.2 claimer leaseTtlMs nowMs clock)) :
    let claim := claimUpdateOf tid claimer leaseTtlMs nowMs clock
      (ObligationStmt.claimable (RunStore.claimTime nowMs clock) row)
    (leaseModel.apply lease claim.op).2.isAcquired = claim.acquired ∧
      Represents due (claimedRow claimer
          (addI64 (RunStore.claimTime nowMs clock) (RunStore.claimTtl leaseTtlMs))
          (RunStore.claimTime nowMs clock) row)
        (leaseModel.apply lease claim.op).1 := by
  simp only [isTimelyClaim, Bool.and_eq_true, Bool.or_eq_true, decide_eq_true_eq, ne_eq, not_true_eq_false,
    false_or] at timely
  obtain ⟨⟨⟨fitsTtl, notNegative⟩, fitsNow⟩, isDue⟩ := timely
  have positive := RunStore.claimTtl_pos leaseTtlMs
  have step := represents_claim claimer (RunStore.claimTime nowMs clock).toNat (RunStore.claimTtl leaseTtlMs).toNat
    represents (by omega) (by omega) (by omega) (by omega)
  rw [Int.toNat_of_nonneg notNegative, Int.toNat_of_nonneg positive.le] at step
  exact step

/-- The window the model grants a claim is the one it asked for. -/
theorem window_of_acquired {claim : ClaimUpdate} {ret : LeaseRet} (same : ret.isAcquired = claim.acquired) :
    (window claim.op ret).toList = ([claim].filter ClaimUpdate.acquired).map ClaimUpdate.window := by
  cases ret with
  | released =>
    have lost : claim.acquired = false := same.symm
    simp [window, ClaimUpdate.op, lost]
  | claimed acquired holder =>
    cases acquired with
    | false =>
      have lost : claim.acquired = false := same.symm
      simp [window, ClaimUpdate.op, lost]
    | true =>
      have won : claim.acquired = true := same.symm
      simp [window, ClaimUpdate.op, ClaimUpdate.window, won]

theorem Simulates.push (simulates : Simulates calls pk due h) (serves : calls tid = some call)
    (only : ClaimsOnly pk due tid call h act) (answers : tape.Answers act h.state res state) :
    Simulates calls pk due (h.push tid act res state) := by
  obtain ⟨row, found, represents⟩ := simulates.row
  rcases claimUpdate_cases serves only answers found with ⟨isNone, kept⟩ | ⟨claimer, ttl, nowMs, clock, timely, isClaim, written⟩
  · have same : claimUpdates calls pk (h.push tid act res state).log = claimUpdates calls pk h.log := by
      simp [claimUpdates_cons, isNone]
    exact ⟨by rw [same]; exact simulates.answers, by rw [same]; exact simulates.windows,
      by rw [same]; exact ⟨row, kept, represents⟩⟩
  · obtain ⟨same, represents'⟩ := represents_claimUpdate tid represents timely
    have grown : claimUpdates calls pk (h.push tid act res state).log = claimUpdates calls pk h.log ++
        [claimUpdateOf tid claimer ttl nowMs clock (ObligationStmt.claimable (RunStore.claimTime nowMs clock) row)] := by
      simp [claimUpdates_cons, isClaim]
    refine ⟨?_, ?_, _, written, ?_⟩
    · simp only [grown, List.map_append, List.map_singleton, Model.run_concat, simulates.answers, same]
    · simp only [grown, List.map_append, List.map_singleton, List.filter_append, windows_concat,
        simulates.windows, window_of_acquired same]
    · simpa only [grown, List.map_append, List.map_singleton, Model.run_concat] using represents'

end Steps

theorem claimsOnly_of_housekeeping {pk : String × Int} {due : Int} {tid : Nat} {call : Call} (act : Act)
    (housekeeping : Housekeeping act) (h : TapeHist) : ClaimsOnly pk due tid call h act := by
  cases housekeeping <;> trivial

/-- A call that returned says in its answer whether its claim `UPDATE` won. -/
def claimReturned (tid : Nat) (call : Call) (out : call.Out) (h : TapeHist) : Prop :=
  match call, out with
  | .claimObligation runId seq _ _ _ _, .ok (acquired, _) =>
    ∃ event ∈ h.log, event.tid = tid ∧ executedClaim event = some ((runId, seq), acquired)
  | _, _ => True

theorem lease_compose (pk : String × Int) (due : Int) :
    System.Compose tape (fun call => isTimelyClaim pk due call)
      (tape.tracked (fun _ _ _ _ => True) (ClaimsOnly pk due)) claimReturned := by
  refine System.tracked_compose fun {tid call h} admitted _ => ?_
  cases call with
  | claimObligation runId seq claimer leaseTtlMs nowMs clock =>
    refine (safe_claim_returns (fun _ => ⟨admitted, leaseTtlMs, nowMs, clock, rfl, rfl, rfl⟩) (fun _ => trivial)
      claimsOnly_of_housekeeping).mono ?_
    intro result h returned
    match result with
    | .ok (acquired, row) =>
      obtain ⟨updated, member, rfl⟩ := returned acquired row rfl
      exact ⟨_, member, rfl, rfl⟩
    | .error _ => trivial
  | _ => cases admitted

/-! ## Runs -/

/-- **The lease of an obligation refines the lease model.**  Along every interleaving of
    `claim_obligation` calls, from any database in which the obligation is `PENDING` and due, run the
    executed claim `UPDATE`s through the model: each of them changed the row exactly if the model
    grants the claim; the row is held by the model's holder, and until the model's expiry exactly if
    that fits an `i64`; a lease is granted only after the ones before it are over; and a call that
    returned answers what its `UPDATE` did. -/
theorem obligation_lease_refines_model (w : World) (runId : String) (seq : Int) (row : ObligationRecord)
    (choices : List (Choice Call)) (found : w.obligations.find? (runId, seq) = some row)
    (pending : row.status = ObligationStatus.pending.code)
    (along : tape.Along (System.Permits (fun call => isTimelyClaim (runId, seq) row.nextAttemptAtMs call)
      fun _ _ _ _ => True) (quiet w) choices) :
    let c := tape.run (quiet w) choices
    let claims := claimUpdates c.callOf (runId, seq) c.log
    let model := leaseModel.run (claims.map ClaimUpdate.op)
    claims.map ClaimUpdate.acquired = model.2.map LeaseRet.isAcquired ∧
    (∀ holder expiresAt, model.1.lease = some (holder, expiresAt) →
      ∃ current, c.state.obligations.find? (runId, seq) = some current ∧
        current.status = ObligationStatus.committed.code ∧ current.claimedBy = holder ∧
        (current.claimExpiresAtMs = expiresAt ↔ expiresAt < 2 ^ 63)) ∧
    ((claims.filter ClaimUpdate.acquired).map ClaimUpdate.window).Pairwise
      (fun first second => first.2 ≤ second.1) ∧
    ∀ tid claimer leaseTtlMs nowMs clock acquired current,
      c.pool[tid]? = some ⟨.claimObligation runId seq claimer leaseTtlMs nowMs clock,
        .ret (.ok (acquired, current))⟩ →
      claimUpdateOf tid claimer leaseTtlMs nowMs clock acquired ∈ claims := by
  intro c claims model
  have owned := quiet_owned w
  -- the row and the model go in step, claim for claim
  have simulates : Simulates c.callOf (runId, seq) row.nextAttemptAtMs c.toHist := by
    refine System.run_tracked (lease_compose _ _) ?_ owned (System.poolSafe_of_empty rfl)
      ⟨rfl, rfl, row, found, pending, rfl⟩ along
    exact fun tid call h act res state serves answers _ only simulates => simulates.push serves only answers
  refine ⟨simulates.answers, ?_, ?_, ?_⟩
  · intro holder expiresAt held
    obtain ⟨current, there, represents⟩ := simulates.row
    rw [Represents, held] at represents
    -- the row stores the expiry modulo 2^64
    obtain ⟨committed, holds, expiry, positive, bound⟩ := represents
    refine ⟨current, there, committed, holds, ?_⟩
    rw [expiry]
    constructor
    · intro same
      by_contra wraps
      -- an expiry that wraps is negative, and the model's is not
      have negative := bmod_of_wraps (Nat.le_of_not_lt wraps) bound
      omega
    · exact bmod_of_fits
  · rw [simulates.windows]
    refine windows_disjoint ?_
    intro op member
    obtain ⟨claim, -, rfl⟩ := List.mem_map.mp member
    simp [ClaimUpdate.op]
  · intro tid claimer leaseTtlMs nowMs clock acquired current returned
    have safe := System.run_safe (lease_compose (runId, seq) row.nextAttemptAtMs) owned (System.poolSafe_of_empty rfl) along
    obtain ⟨event, member, own, executed⟩ := safe.returned returned
    have serves : c.callOf tid = some (.claimObligation runId seq claimer leaseTtlMs nowMs clock) := by
      rw [Config.callOf, returned]
      rfl
    refine List.mem_filterMap.mpr ⟨event, List.mem_reverse.mpr member, ?_⟩
    simp [claimUpdate, executed, serves, own]

/-! ## Three drainers, and one with a very long lease -/

/-- `A` claims the obligation at 1000 for a minute; `B` asks for it at 2000 and `C` at 61000. -/
def threeDrainers : List (Choice Call) :=
  serve 0 (.claimObligation "r" 2 "A" 60000 1000 1000) ++ serve 1 (.claimObligation "r" 2 "B" 60000 2000 2000) ++
    serve 2 (.claimObligation "r" 2 "C" 60000 61000 61000)

/-- The lease columns of the obligation after a run. -/
def leaseColumns (choices : List (Choice Call)) : Option (String × Int) :=
  ((tape.run (quiet refundWorld) choices).state.obligations.find? ("r", 2)).map fun row =>
    (row.claimedBy, row.claimExpiresAtMs)

/-- The lease the model has after the claims of a run. -/
def modelLease (choices : List (Choice Call)) : Option (String × Nat) :=
  let c := tape.run (quiet refundWorld) choices
  (leaseModel.run ((claimUpdates c.callOf ("r", 2) c.log).map ClaimUpdate.op)).1.lease

/-- `A` is granted the lease, `B` is not, and `C` gets it the moment it is over. -/
theorem drainers_take_turns :
    modelLease threeDrainers = some ("C", 121000) ∧
      ∃ current, (tape.run (quiet refundWorld) threeDrainers).state.obligations.find? ("r", 2) = some current ∧
        current.status = ObligationStatus.committed.code ∧ current.claimedBy = "C" ∧
        current.claimExpiresAtMs = 121000 := by
  have held : modelLease threeDrainers = some ("C", 121000) := by decide +kernel
  obtain ⟨row, found, due⟩ : ∃ row, refundWorld.obligations.find? ("r", 2) = some row ∧
      row.status = ObligationStatus.pending.code ∧ row.nextAttemptAtMs = 10 := by decide +kernel
  have along : tape.Along (System.Permits (fun call => isTimelyClaim ("r", 2) row.nextAttemptAtMs call)
      fun _ _ _ _ => True) (quiet refundWorld) threeDrainers := by
    rw [due.2]
    decide +kernel
  obtain ⟨current, there, committed, holder, expiry⟩ :=
    (obligation_lease_refines_model refundWorld "r" 2 row threeDrainers found due.1 along).2.1 "C" 121000 held
  exact ⟨held, current, there, committed, holder, expiry.mpr (by decide)⟩

/-- `A` claims the due obligation for the longest time an `i64` can say. -/
def longClaim : List (Choice Call) := serve 0 (.claimObligation "r" 2 "A" (2 ^ 63 - 1) 1000 1000)

/-- The claim is granted, and the row says that its lease ran out before 1970. -/
theorem long_claim_wraps :
    modelLease longClaim = some ("A", 1000 + (2 ^ 63 - 1)) ∧
      leaseColumns longClaim = some ("A", 1000 + (2 ^ 63 - 1) - 2 ^ 64) := by
  decide +kernel

end Tape.Compensation
