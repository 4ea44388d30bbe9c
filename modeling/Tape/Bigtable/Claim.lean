import Tape.Bigtable.RunStore
import Tape.Interleave.Lease

/-! # Dispatch claims on a Bigtable

`claim_effect_dispatch` decides on a row it has read, and then asks one column of the row again: whether there
is a claimer, or whether the expiry is the one it read.  What it does not ask again may have changed: a
row that was completed or put off in between is claimed all the same.
-/

namespace Tape.BigtableRunStore

open Interleave Bigtable

/-! ## What a claim checks -/

/-- `PENDING`, `OUTBOX` and due. -/
def dispatchable (now : Int) (e : EffectRecord) : Bool :=
  e.status = EffectStatus.pending.code && e.dispatchMode = EffectDispatchMode.outbox.code && e.nextDispatchAtMs ≤ now

/-- No claimer, or an expiry that has come. -/
def leaseOpen (now : Int) (e : EffectRecord) : Bool :=
  e.dispatchClaimedBy = "" || 0 < e.dispatchClaimExpiresAtMs && e.dispatchClaimExpiresAtMs ≤ now

/-- The check of a claim that read `existing` lets it win on a row with these cells. -/
def wins (existing : EffectRecord) (m : RowMap) : Bool :=
  if existing.dispatchClaimedBy = "" then !(colHasNonempty "dispatch_claimed_by").accepts m
  else (colValueEq "dispatch_claim_expires_at_ms" (iv existing.dispatchClaimExpiresAtMs)).accepts m

/-- The event is a check of the row under `key` that was won: its mutations were applied. -/
def claimWon (key : String) : BigtableEvent → Bool
  | ⟨_, .checkAndMutateRow k _ trueMutations falseMutations, .ok matched⟩ =>
    k = rkEffect key && !(Op.taken trueMutations falseMutations matched).isEmpty
  | _ => false

section Check

variable {key : String} {existing : EffectRecord} {claimer : String} {newExp now : Int}

theorem claimOp_of_unclaimed (unclaimed : existing.dispatchClaimedBy = "") : claimOp key existing claimer newExp now =
    .checkAndMutateRow (rkEffect key) (colHasNonempty "dispatch_claimed_by") [] (claimMutations claimer newExp now) :=
  if_pos unclaimed

theorem claimOp_of_claimed (claimed : existing.dispatchClaimedBy ≠ "") : claimOp key existing claimer newExp now =
    .checkAndMutateRow (rkEffect key)
      (colValueEq "dispatch_claim_expires_at_ms" (iv existing.dispatchClaimExpiresAtMs))
      (claimMutations claimer newExp now) [] := if_neg claimed

theorem exec_claimOp (c : Contents) : ((claimOp key existing claimer newExp now).exec c).2 = c.mutate (rkEffect key)
    (if wins existing (c.cells (rkEffect key)) then claimMutations claimer newExp now else []) := by
  by_cases unclaimed : existing.dispatchClaimedBy = ""
  · rw [claimOp_of_unclaimed unclaimed]
    cases matched : (colHasNonempty "dispatch_claimed_by").accepts (c.cells (rkEffect key)) <;>
      simp [Op.exec, Op.taken, wins, unclaimed, matched]
  · rw [claimOp_of_claimed unclaimed]
    cases matched : (colValueEq "dispatch_claim_expires_at_ms" (iv existing.dispatchClaimExpiresAtMs)).accepts
      (c.cells (rkEffect key)) <;> simp [Op.exec, Op.taken, wins, unclaimed, matched]

theorem claimWon_claimOp (tid : Nat) (k : String) (c : Contents) :
    claimWon k ⟨tid, claimOp key existing claimer newExp now, .ok ((claimOp key existing claimer newExp now).exec c).1⟩ =
      (rkEffect key = rkEffect k && wins existing (c.cells (rkEffect key))) := by
  by_cases unclaimed : existing.dispatchClaimedBy = ""
  · rw [claimOp_of_unclaimed unclaimed]
    cases matched : (colHasNonempty "dispatch_claimed_by").accepts (c.cells (rkEffect key)) <;>
      simp [claimWon, Op.exec, Op.taken, wins, unclaimed, matched, claimMutations]
  · rw [claimOp_of_claimed unclaimed]
    cases matched : (colValueEq "dispatch_claim_expires_at_ms" (iv existing.dispatchClaimExpiresAtMs)).accepts
      (c.cells (rkEffect key)) <;> simp [claimWon, Op.exec, Op.taken, wins, unclaimed, matched, claimMutations]

end Check

/-! ## What the calls do -/

/-- The effect whose lease the call gives back. -/
def Call.gives? : Call → Option String
  | .recordDispatchAttempt _ key .. | .recordExternalObservation _ key .. => some key
  | _ => none

/-- No check, no row deleted, and no mode of dispatch; and of the columns of a lease none, but to give it back. -/
def tame (gives : Option String) : Op → Bool
  | .mutateRow k mutations => mutations.all (Mutation.spares "dispatch_mode") &&
    (mutations.any (Mutation.sets "dispatch_claimed_by") && gives.any (fun key => k = rkEffect key) ||
      mutations.all (Mutation.spares "dispatch_claimed_by") &&
        mutations.all (Mutation.spares "dispatch_claim_expires_at_ms"))
  | .checkAndMutateRow .. => false
  | _ => true

/-- The check of a claim: its last operation read the row, and found it dispatchable and its lease open. -/
inductive Claiming (tid : Nat) : Call → BigtableHist → Op → Prop
  | check {runId key claimer : String} {leaseTtlMs nowMs clock : Int} {h : BigtableHist} {m : RowMap}
      (last : lastOwn tid h.log = some ⟨tid, .readRow (rkEffect key), .ok (some m)⟩)
      (eligible : dispatchable (RunStore.claimTime nowMs clock) (effectFrom key m))
      (isOpen : leaseOpen (RunStore.claimTime nowMs clock) (effectFrom key m)) :
      Claiming tid (.claimEffectDispatch runId key claimer leaseTtlMs nowMs clock) h
        (claimOp key (effectFrom key m) claimer
          (addI64 (RunStore.claimTime nowMs clock) (RunStore.claimTtl leaseTtlMs)) (RunStore.claimTime nowMs clock))

def Proper (tid : Nat) (call : Call) (h : BigtableHist) (op : Op) : Prop :=
  tame call.gives? op ∨ Claiming tid call h op

/-- A `record_dispatch_attempt` or a `record_external_observation` gives the lease back, where `calls` are those the
    threads serve. -/
def released (calls : Nat → Option Call) (key : String) : BigtableEvent → Bool
  | ⟨tid, .mutateRow k mutations, .ok _⟩ => k = rkEffect key && mutations.any (Mutation.sets "dispatch_claimed_by") &&
    (calls tid).any fun call => call.gives? = some key
  | _ => false

/-- A check that is won, and the row it leaves. -/
inductive Winning (key : String) (tid : Nat) : Call → BigtableHist → Contents → Prop
  | claim {runId claimer : String} {leaseTtlMs nowMs clock : Int} {h : BigtableHist} {m : RowMap}
      (last : lastOwn tid h.log = some ⟨tid, .readRow (rkEffect key), .ok (some m)⟩)
      (eligible : dispatchable (RunStore.claimTime nowMs clock) (effectFrom key m))
      (isOpen : leaseOpen (RunStore.claimTime nowMs clock) (effectFrom key m))
      (wins : wins (effectFrom key m) (h.state.cells (rkEffect key))) :
      Winning key tid (.claimEffectDispatch runId key claimer leaseTtlMs nowMs clock) h
        (h.state.mutate (rkEffect key) (claimMutations claimer
          (addI64 (RunStore.claimTime nowMs clock) (RunStore.claimTtl leaseTtlMs)) (RunStore.claimTime nowMs clock)))

section Steps

variable {key : String} {tid : Nat} {call : Call} {h : BigtableHist} {op : Op} {res : Reply op} {c : Contents} {m : RowMap}

/-- An answer is that of the table, or the request failed and nothing changed. -/
theorem answers_cases {s : Contents} (answers : bigtable.Answers op s res c) :
    res = .ok (op.exec s).1 ∧ c = (op.exec s).2 ∨ res = .error requestFailed ∧ c = s := by
  cases answers with
  | exec => exact .inl ⟨rfl, rfl⟩
  | fault failed => exact .inr ⟨(Option.some.inj failed).symm, rfl⟩

theorem not_claimWon_of_error (e : StoreError) : claimWon key ⟨tid, op, .error e⟩ = false := by
  cases op <;> rfl

theorem rkEffect_injective {k key : String} (same : rkEffect k = rkEffect key) : k = key := by
  simpa [rkEffect] using same

/-- A claim is won by its check alone. -/
theorem winning_of_won (proper : Proper tid call h op) (answers : bigtable.Answers op h.state res c)
    (won : claimWon key ⟨tid, op, res⟩) : Winning key tid call h c := by
  rcases answers_cases answers with ⟨rfl, rfl⟩ | ⟨rfl, rfl⟩
  · rcases proper with isTame | claiming
    · cases op <;> simp [claimWon, tame] at won isTame
    · cases claiming with
      | check last eligible isOpen =>
        rw [claimWon_claimOp, Bool.and_eq_true, decide_eq_true_eq] at won
        obtain ⟨same, isWon⟩ := won
        obtain rfl := rkEffect_injective same
        rw [exec_claimOp, if_pos isWon]
        exact .claim last eligible isOpen isWon
  · rw [not_claimWon_of_error] at won
    cases won

/-- What a step does to the row under `key`. -/
inductive RowStep (key : String) (tid : Nat) (call : Call) : (op : Op) → Reply op → RowMap → RowMap → Prop
  | same {op : Op} {res : Reply op} {m : RowMap} : RowStep key tid call op res m m
  | written {mutations : List Mutation} {m : RowMap} (isTame : tame call.gives? (.mutateRow (rkEffect key) mutations)) :
      RowStep key tid call (.mutateRow (rkEffect key) mutations) (.ok ()) m (Mutation.applyAll mutations m)
  | claimed {op : Op} {res : Reply op} {m : RowMap} (claimer : String) (newExp now : Int)
      (isWon : claimWon key ⟨tid, op, res⟩) :
      RowStep key tid call op res m (Mutation.applyAll (claimMutations claimer newExp now) m)

/-- A row stays, and is what one of these steps made it. -/
theorem row_step (proper : Proper tid call h op) (answers : bigtable.Answers op h.state res c)
    (found : h.state.read (rkEffect key) = some m) :
    ∃ m', c.read (rkEffect key) = some m' ∧ RowStep key tid call op res m m' := by
  rcases answers_cases answers with ⟨rfl, rfl⟩ | ⟨rfl, rfl⟩
  · obtain rfl := Contents.cells_of_read found
    rcases proper with isTame | claiming
    · cases op with
      | readRow | readPrefix | readRange | increment => exact ⟨_, found, .same⟩
      | checkAndMutateRow => cases isTame
      | mutateRow k mutations =>
        by_cases own : k = rkEffect key
        · subst own
          have some_ := Mutation.applyAll_ne_nil (Bool.and_eq_true_iff.mp isTame).1 (Contents.ne_nil_of_read found)
          exact ⟨_, Contents.read_mutate_self some_, .written isTame⟩
        · exact ⟨_, (Contents.read_mutate_ne h.state mutations own).trans found, .same⟩
    · cases claiming with
      | @check runId k claimer leaseTtlMs nowMs clock _ read =>
        rw [exec_claimOp]
        by_cases own : rkEffect k = rkEffect key
        · obtain rfl := rkEffect_injective own
          split
          next isWon =>
            refine ⟨_, Contents.read_mutate_self (List.cons_ne_nil _ _), .claimed _ _ _ ?_⟩
            rw [claimWon_claimOp, isWon]
            simp
          next => exact ⟨_, (Contents.read_mutate_nil _ _ _).trans found, .same⟩
        · exact ⟨_, (Contents.read_mutate_ne h.state _ own).trans found, .same⟩
  · exact ⟨m, found, .same⟩

end Steps

/-! ## The lease -/

/-- A claimer that the check can see: it has a name, and the name is one line. -/
def visible (claimer : String) : Bool := ValueFilter.nonempty.accepts claimer

/-- From when until when the call asks for the lease. -/
def claimWindow : Call → Option (Int × Int)
  | .claimEffectDispatch _ _ _ leaseTtlMs nowMs clock =>
    some (RunStore.claimTime nowMs clock, RunStore.claimTime nowMs clock + RunStore.claimTtl leaseTtlMs)
  | _ => none

/-- The row has a claimer, until then at least: an expiry that wrapped around never comes. -/
def Leased (m : RowMap) (until_ : Int) : Prop :=
  visible (gs m "dispatch_claimed_by") ∧
    (gi m "dispatch_claim_expires_at_ms" ≤ 0 ∨ until_ ≤ gi m "dispatch_claim_expires_at_ms")

/-- The dispatch lease of an effect, where `calls` are those the threads serve. -/
def dispatchLease (key : String) (calls : Nat → Option Call) : Lease Contents Op Reply where
  grant event := if claimWon key event then (calls event.tid).bind claimWindow else none
  release := released calls key
  held c until_ := ∃ m, c.read (rkEffect key) = some m ∧ Leased m until_

/-- Every claim has a claimer that can be seen, and times that are `i64`. -/
def NamedClaims : Call → Prop
  | .claimEffectDispatch _ _ claimer leaseTtlMs nowMs clock =>
    visible claimer ∧ inI64 (RunStore.claimTime nowMs clock) ∧ inI64 (RunStore.claimTtl leaseTtlMs)
  | _ => True

instance (call : Call) : Decidable (NamedClaims call) := by
  unfold NamedClaims
  split <;> infer_instance

section Lease

variable {key : String} {tid : Nat} {call : Call} {h : BigtableHist} {op : Op} {res : Reply op} {c : Contents}
  {m : RowMap}

theorem inI64_gi (m : RowMap) (qualifier : String) : inI64 (gi m qualifier) := by
  unfold gi parseI64
  cases parseI64.signed (gs m qualifier).toList with
  | none => exact ⟨by decide, by decide⟩
  | some n =>
    by_cases bound : inI64 n
    · simp [Option.filter_some, bound]
    · rw [Option.filter_some, if_neg (by simpa using bound)]
      exact ⟨by decide, by decide⟩

theorem gi_of_get? {qualifier : String} {n : Int} (cell : m.get? qualifier = some (iv n)) (bound : inI64 n) :
    gi m qualifier = n := by
  rw [gi, gs, cell, Option.getD_some, iv, parseI64_toString bound]
  rfl

/-- An expiry is what it should be, or has wrapped around. -/
theorem addI64_cases {now ttl : Int} (first : inI64 now) (second : inI64 ttl) (positive : 0 < ttl) :
    inI64 (addI64 now ttl) ∧ (addI64 now ttl ≤ 0 ∨ addI64 now ttl = now + ttl) := by
  obtain ⟨low, high⟩ := first
  obtain ⟨_, bound⟩ := second
  by_cases fits : now + ttl < 2 ^ 63
  · rw [addI64_eq (by omega) fits]
    exact ⟨⟨by omega, fits⟩, .inr rfl⟩
  · have wrapped : addI64 now ttl = now + ttl - 2 ^ 64 := by
      rw [addI64, Int.bmod_def]
      omega
    rw [wrapped]
    exact ⟨⟨by omega, by omega⟩, .inl (by omega)⟩

theorem leased_claimed {claimer : String} {now ttl : Int} (named : visible claimer) (first : inI64 now)
    (second : inI64 ttl) (positive : 0 < ttl) :
    Leased (Mutation.applyAll (claimMutations claimer (addI64 now ttl) now) m) (now + ttl) := by
  obtain ⟨bound, expiry⟩ := addI64_cases first second positive
  have written : gi (Mutation.applyAll (claimMutations claimer (addI64 now ttl) now) m) "dispatch_claim_expires_at_ms" =
      addI64 now ttl := gi_of_get? (by simp [claimMutations, set, Mutation.apply]) bound
  refine ⟨by simpa [claimMutations, set, Mutation.apply, gs] using named, ?_⟩
  rw [written]
  exact expiry.imp_right fun same => same.ge

/-- A claim that wins on a leased row has waited for the lease. -/
theorem le_of_wins {read : RowMap} {now until_ : Int} (leased : Leased m until_)
    (isOpen : leaseOpen now (effectFrom key read)) (isWon : wins (effectFrom key read) m) : until_ ≤ now := by
  obtain ⟨claimed, expiry⟩ := leased
  by_cases unclaimed : (effectFrom key read).dispatchClaimedBy = ""
  · -- the check for a claimer has found one
    have seen : (colHasNonempty "dispatch_claimed_by").accepts m := by
      cases cell : m.get? "dispatch_claimed_by" with
      | none => simp [gs, cell, visible, ValueFilter.accepts] at claimed
      | some claimer => simpa [RowFilter.accepts, colHasNonempty, cell, gs, visible] using claimed
    simp [wins, unclaimed, seen] at isWon
  · have same : m.get? "dispatch_claim_expires_at_ms" = some (iv (effectFrom key read).dispatchClaimExpiresAtMs) := by
      simp only [wins, unclaimed, if_false, RowFilter.accepts, colValueEq, ValueFilter.accepts, Option.any_eq_true,
        decide_eq_true_eq] at isWon
      obtain ⟨value, cell, rfl⟩ := isWon
      exact cell
    have read_ : gi m "dispatch_claim_expires_at_ms" = (effectFrom key read).dispatchClaimExpiresAtMs :=
      gi_of_get? same (inI64_gi read _)
    simp only [leaseOpen, unclaimed, decide_false, Bool.false_or, Bool.and_eq_true, decide_eq_true_eq] at isOpen
    omega

theorem dispatchLease_guards {calls : Nat → Option Call} (isCall : calls tid = some call) (named : NamedClaims call)
    (proper : Proper tid call h op) (answers : bigtable.Answers op h.state res c) :
    (dispatchLease key calls).Guards h.state ⟨tid, op, res⟩ c := by
  -- a grant is a check that was won, by a call with its window
  have granted : ∀ {now expiry}, (dispatchLease key calls).grant ⟨tid, op, res⟩ = some (now, expiry) →
      claimWon key ⟨tid, op, res⟩ ∧ claimWindow call = some (now, expiry) := by
    intro now expiry grant
    simp only [dispatchLease, isCall, Option.bind_some] at grant
    split at grant
    next isWon => exact ⟨isWon, grant⟩
    next => cases grant
  have won : claimWon key ⟨tid, op, res⟩ → ∃ now ttl, claimWindow call = some (now, now + ttl) ∧ 0 < ttl ∧
      (∀ until_, (dispatchLease key calls).held h.state until_ → until_ ≤ now) ∧
      ∃ m, c.read (rkEffect key) = some m ∧ Leased m (now + ttl) := by
    intro isWon
    cases winning_of_won proper answers isWon with
    | claim last eligible isOpen wins =>
      obtain ⟨isVisible, first, second⟩ := named
      refine ⟨_, _, rfl, RunStore.claimTtl_pos _, ?_, _, Contents.read_mutate_self (List.cons_ne_nil _ _),
        leased_claimed isVisible first second (RunStore.claimTtl_pos _)⟩
      rintro until_ ⟨m, found, leased⟩
      obtain rfl := Contents.cells_of_read found
      exact le_of_wins leased isOpen wins
  constructor
  · intro now expiry grant until_ held
    obtain ⟨isWon, window⟩ := granted grant
    obtain ⟨now', ttl, isWindow, -, waits, -⟩ := won isWon
    rw [isWindow] at window
    cases window
    exact waits until_ held
  · intro now expiry grant
    obtain ⟨isWon, window⟩ := granted grant
    obtain ⟨now', ttl, isWindow, -, -, m, found, leased⟩ := won isWon
    rw [isWindow] at window
    cases window
    exact ⟨m, found, leased⟩
  · rintro unreleased until_ held
    obtain ⟨m, found, leased⟩ := held
    obtain ⟨m', found', step⟩ := row_step proper answers found
    cases step with
    | same => exact ⟨m, found', leased⟩
    | written isTame =>
      rcases Bool.or_eq_true_iff.mp (Bool.and_eq_true_iff.mp isTame).2 with gives | spares
      · -- it gives the lease back
        obtain ⟨sets, isGiven⟩ := Bool.and_eq_true_iff.mp gives
        obtain ⟨given, gave, same⟩ := (Option.any_eq_true _ _).mp isGiven
        obtain rfl := rkEffect_injective (of_decide_eq_true same)
        simp [dispatchLease, released, sets, isCall, gave] at unreleased
      · obtain ⟨claimer, expiry⟩ := Bool.and_eq_true_iff.mp spares
        refine ⟨_, found', ?_⟩
        simpa only [Leased, gs, gi, Mutation.get?_applyAll_of_spares claimer,
          Mutation.get?_applyAll_of_spares expiry] using leased
    | claimed claimer newExp claimedAt isWon =>
      -- the lease now runs from a time that waited for the old one
      obtain ⟨now, ttl, -, positive, waits, m'', found'', isVisible, expiry⟩ := won isWon
      have waited := waits until_ ⟨m, found, leased⟩
      exact ⟨m'', found'', isVisible, expiry.imp_right fun bound => by omega⟩

end Lease

/-! ## Between the read and the check -/

/-- The mutation leaves the row `PENDING` and due. -/
def keepsDue (now : Int) : Mutation → Bool
  | .setCell qualifier value =>
    if qualifier = "status" then asI32 ((parseI64 value).getD 0) = EffectStatus.pending.code
    else if qualifier = "next_dispatch_at_ms" then (parseI64 value).getD 0 ≤ now
    else true
  | .deleteFromRow => false

/-- A write that gives the row another status than `PENDING`, or puts it off to later than `now`. -/
def putsOff (key : String) (now : Int) : BigtableEvent → Bool
  | ⟨_, .mutateRow k mutations, .ok _⟩ => k = rkEffect key && !mutations.all (keepsDue now)
  | _ => false

/-- The operation is no check of a claim that is won after another call has put the row off, since the claim's read. -/
def Undisturbed (key : String) (tid : Nat) (call : Call) (h : BigtableHist) (op : Op) : Prop :=
  claimWon key ⟨tid, op, (bigtable.exec op h.state).1⟩ →
    (claimWindow call).all fun window => calmSince tid (putsOff key window.1) h.log

instance (key : String) (tid : Nat) (call : Call) (h : BigtableHist) (op : Op) : Decidable (Undisturbed key tid call h op) :=
  inferInstanceAs (Decidable (_ → _))

/-- The row is there, and can be dispatched at `now`. -/
def Due (key : String) (now : Int) (c : Contents) : Prop :=
  ∃ m, c.read (rkEffect key) = some m ∧ dispatchable now (effectFrom key m)

/-- A row that a thread found dispatchable stays so until it is put off. -/
def Standing (key : String) (h : BigtableHist) : Prop :=
  ∀ newer tid m older now, h.log = newer ++ ⟨tid, .readRow (rkEffect key), .ok (some m)⟩ :: older →
    (∀ event ∈ newer, putsOff key now event = false) → dispatchable now (effectFrom key m) → Due key now h.state

section Standing

variable {key : String} {tid : Nat} {call : Call} {h : BigtableHist} {op : Op} {res : Reply op} {c : Contents}
  {now : Int} {m : RowMap}

theorem dispatchable_iff : dispatchable now (effectFrom key m) ↔
    asI32 (gi m "status") = EffectStatus.pending.code ∧ asI32 (gi m "dispatch_mode") = EffectDispatchMode.outbox.code ∧
      gi m "next_dispatch_at_ms" ≤ now := by
  simp only [dispatchable, Bool.and_eq_true, decide_eq_true_eq, and_assoc]
  rfl

theorem gi_set_ne {qualifier other value : String} (differs : qualifier ≠ other) :
    gi (m.set qualifier value) other = gi m other := by
  simp [gi, gs, differs]

theorem gi_set_self {qualifier value : String} : gi (m.set qualifier value) qualifier = (parseI64 value).getD 0 := by
  simp [gi, gs]

theorem dispatchable_apply {mutation : Mutation} (spares : mutation.spares "dispatch_mode") (keeps : keepsDue now mutation)
    (can : dispatchable now (effectFrom key m)) : dispatchable now (effectFrom key (mutation.apply m)) := by
  rw [dispatchable_iff] at can ⊢
  obtain ⟨pending, outbox, due⟩ := can
  cases mutation with
  | deleteFromRow => cases spares
  | setCell qualifier value =>
    have otherMode : qualifier ≠ "dispatch_mode" := of_decide_eq_true spares
    rw [Mutation.apply, gi_set_ne otherMode]
    by_cases isStatus : qualifier = "status"
    · subst isStatus
      rw [gi_set_self, gi_set_ne (by decide)]
      exact ⟨by simpa [keepsDue] using keeps, outbox, due⟩
    · rw [gi_set_ne isStatus]
      by_cases isTime : qualifier = "next_dispatch_at_ms"
      · subst isTime
        rw [gi_set_self]
        exact ⟨pending, outbox, by simpa [keepsDue] using keeps⟩
      · rw [gi_set_ne isTime]
        exact ⟨pending, outbox, due⟩

theorem dispatchable_applyAll {mutations : List Mutation} (spares : mutations.all (Mutation.spares "dispatch_mode"))
    (keeps : mutations.all (keepsDue now)) (can : dispatchable now (effectFrom key m)) :
    dispatchable now (effectFrom key (Mutation.applyAll mutations m)) := by
  induction mutations generalizing m with
  | nil => exact can
  | cons mutation mutations inductionHypothesis =>
    obtain ⟨spared, restSpared⟩ := Bool.and_eq_true_iff.mp spares
    obtain ⟨kept, restKept⟩ := Bool.and_eq_true_iff.mp keeps
    exact inductionHypothesis restSpared restKept (dispatchable_apply spared kept can)

/-- A step that does not put the row off leaves it due. -/
theorem due_step (proper : Proper tid call h op) (answers : bigtable.Answers op h.state res c)
    (kept : putsOff key now ⟨tid, op, res⟩ = false) (due : Due key now h.state) : Due key now c := by
  obtain ⟨m, found, can⟩ := due
  obtain ⟨m', found', step⟩ := row_step proper answers found
  refine ⟨m', found', ?_⟩
  cases step with
  | same => exact can
  | @written mutations _ isTame =>
    have keeps : mutations.all (keepsDue now) := by simpa [putsOff] using kept
    exact dispatchable_applyAll (Bool.and_eq_true_iff.mp isTame).1 keeps can
  | claimed claimer newExp claimedAt isWon =>
    -- a claim does not write what makes the row dispatchable
    exact dispatchable_applyAll rfl rfl can

theorem Standing.push (standing : Standing key h) (proper : Proper tid call h op)
    (answers : bigtable.Answers op h.state res c) : Standing key (h.push tid op res c) := by
  intro newer reader m older now split calm can
  cases newer with
  | nil =>
    -- the read is this step
    obtain ⟨event, -⟩ := List.cons.inj split
    cases event
    rcases answers_cases answers with ⟨found, rfl⟩ | ⟨failed, -⟩
    · exact ⟨m, (Except.ok.inj found).symm, can⟩
    · cases failed
  | cons event newer =>
    obtain ⟨rfl, rest⟩ := List.cons.inj split
    have before : Due key now h.state :=
      standing newer reader m older now rest (fun event member => calm event (List.mem_cons_of_mem _ member)) can
    exact due_step proper answers (calm _ List.mem_cons_self) before

end Standing

/-! ## The programs -/

/-- All the operations are tame. -/
abbrev AllTame {α : Type} (gives : Option String) (program : BigtableM α) : Prop :=
  program.run.All fun op => tame gives op

section Programs

variable {α β : Type} {gives : Option String} {runId key : String} {ts : Int}

theorem AllTame.pure (value : α) : AllTame gives (Pure.pure value) := trivial

theorem AllTame.bind {program : BigtableM α} {f : α → BigtableM β} (first : AllTame gives program)
    (rest : ∀ value, AllTame gives (f value)) : AllTame gives (program >>= f) := Prog.All.exceptBind first rest

theorem AllTame.perform {op : Op} (isTame : tame gives op) : AllTame gives (perform op) :=
  ⟨isTame, fun _ => trivial⟩

theorem tame_of_gives {mutations : List Mutation} (spared : mutations.all (Mutation.spares "dispatch_mode"))
    (sets : mutations.any (Mutation.sets "dispatch_claimed_by")) :
    tame (some key) (.mutateRow (rkEffect key) mutations) := by
  simp [tame, spared, sets]

theorem allTame_getEffect : AllTame gives (getEffect key) := .bind (.perform rfl) fun _ => .pure _

theorem allTame_nextSeq : AllTame gives (nextSeq runId) :=
  .bind (.perform rfl) fun _ => .bind (.perform rfl) fun _ => .pure _

theorem allTame_journal {seq : Int} {kind : String} {payload : Json} :
    AllTame gives (journal runId seq kind payload ts) := by
  refine .bind (.perform rfl) fun globalSeq => ?_
  split
  · exact .bind (.perform rfl) fun _ => .perform rfl
  · exact .perform rfl

theorem allTame_registerCompensation {effectKey kind compensatorRef : String} {payload : Json} {maxAttempts : Int} :
    AllTame gives (registerCompensation runId effectKey kind payload compensatorRef maxAttempts ts) := by
  refine .bind (.perform rfl) fun rows => ?_
  split
  · exact .pure _
  · refine .bind allTame_nextSeq fun seq => ?_
    refine .bind (.perform rfl) fun _ => ?_
    exact .bind allTame_journal fun _ => .pure _

theorem allTame_recordDispatchAttempt {error : String} {nextDispatchAtMs : Int} :
    AllTame (some key) (recordDispatchAttempt runId key error nextDispatchAtMs ts) := by
  refine .bind allTame_getEffect fun found => ?_
  cases found with
  | none => exact .pure _
  | some existing =>
    refine .bind (.perform (tame_of_gives rfl rfl)) fun _ => ?_
    refine .bind allTame_nextSeq fun seq => ?_
    exact .bind allTame_journal fun _ => allTame_getEffect

theorem allTame_recordExternalObservation {resolution : Int} {externalRef responseJson errorJson kind : String}
    {registerTs : Int} :
    AllTame (some key)
      (recordExternalObservation runId key resolution externalRef responseJson errorJson kind ts registerTs) := by
  refine .bind allTame_getEffect fun found => ?_
  cases found with
  | none => exact .pure _
  | some existing =>
    refine .bind (.perform (tame_of_gives rfl rfl)) fun _ => ?_
    refine .bind allTame_nextSeq fun seq => ?_
    refine .bind allTame_journal fun _ => ?_
    split
    · exact .bind allTame_registerCompensation fun _ => allTame_getEffect
    · exact allTame_getEffect

theorem allTame_completeEffect {status : Int} {responseJson errorJson : String} :
    AllTame gives (completeEffect runId key status responseJson errorJson ts) := by
  refine .bind allTame_getEffect fun found => ?_
  cases found with
  | none => exact .pure _
  | some existing =>
    dsimp only
    split
    · exact .pure _
    · refine .bind (.perform rfl) fun _ => ?_
      refine .bind allTame_nextSeq fun seq => ?_
      exact .bind allTame_journal fun _ => .pure _

theorem allTame_eventsSince {fromTsMs : Int} {kind : String} {limit : Int} :
    AllTame gives (eventsSince fromTsMs runId kind limit) := by
  unfold eventsSince
  split
  · exact .bind (.bind (.perform rfl) fun _ => .pure _) fun _ => .pure _
  · exact .bind (.perform rfl) fun _ => .pure _

theorem allTame_subscribeEvents {kind : String} (polls : Nat) {fromTsMs : Int} :
    AllTame gives (subscribeEvents runId kind polls fromTsMs) := by
  induction polls generalizing fromTsMs with
  | zero => exact .pure _
  | succ polls inductionHypothesis =>
    refine .bind (Prog.All.bind allTame_eventsSince fun _ => trivial) fun batch => ?_
    cases batch with
    | none => exact .pure _
    | some batch => exact .bind inductionHypothesis fun _ => .pure _

end Programs

/-! ## Claims in a run -/

/-- What a claim that was won leaves behind. -/
def claimPost (tid : Nat) : (call : Call) → call.Out → BigtableHist → Prop
  | .claimEffectDispatch _ key .., .ok (true, _), h => ∃ event ∈ h.log, event.tid = tid ∧ claimWon key event
  | _, _, _ => True

abbrev claimContract (tid : Nat) (call : Call) : Contract Contents Op Reply :=
  bigtable.tracked (fun _ _ _ _ => True) Proper tid call

section Safe

variable {α : Type} {tid : Nat} {call : Call} {h : BigtableHist} {post : Except StoreError α → BigtableHist → Prop}

theorem safe_of_tame (returns : ∀ value h, post value h) {program : BigtableM α} (all : AllTame call.gives? program)
    (h : BigtableHist) : bigtable.Safe (claimContract tid call) tid post program.run h :=
  System.Safe.of_all_proper returns (all.mono fun _ isTame _ => .inl isTame) h

theorem safe_getEffect {key : String} {f : Option EffectRecord → BigtableM α} (failed : ∀ e h, post (.error e) h)
    (rest : ∀ (h' : BigtableHist) (row : Option RowMap) (state : Contents),
      bigtable.Safe (claimContract tid call) tid post (f (row.map (effectFrom key))).run
        (h'.push tid (.readRow (rkEffect key)) (.ok row) state)) :
    bigtable.Safe (claimContract tid call) tid post (getEffect key >>= f).run h := by
  intro h' foreign _ res state answers
  refine ⟨⟨_, _, _, rfl, answers, trivial, .inl rfl⟩, ?_⟩
  cases res with
  | error e => exact fun h'' _ => failed e h''
  | ok row => exact rest h' row state

theorem safe_check {key : String} {filter : RowFilter} {trueMutations falseMutations : List Mutation}
    {f : Bool → BigtableM α} (failed : ∀ e h, post (.error e) h)
    (proper : ∀ h', Foreign tid h h' → Proper tid call h' (.checkAndMutateRow key filter trueMutations falseMutations))
    (rest : ∀ (h' : BigtableHist) (matched : Bool) (state : Contents),
      bigtable.Safe (claimContract tid call) tid post (f matched).run
        (h'.push tid (.checkAndMutateRow key filter trueMutations falseMutations) (.ok matched) state)) :
    bigtable.Safe (claimContract tid call) tid post
      (checkAndMutate key filter trueMutations falseMutations >>= f).run h := by
  intro h' foreign _ res state answers
  refine ⟨⟨_, _, _, rfl, answers, trivial, proper h' foreign⟩, ?_⟩
  cases res with
  | error e => exact fun h'' _ => failed e h''
  | ok matched => exact rest h' matched state

theorem claimPost_of_won {tid : Nat} {runId key claimer : String} {leaseTtlMs nowMs clock : Int} {h : BigtableHist}
    (won : ∃ event ∈ h.log, event.tid = tid ∧ claimWon key event) (value : Except StoreError (Bool × Option EffectRecord)) :
    claimPost tid (.claimEffectDispatch runId key claimer leaseTtlMs nowMs clock) value h := by
  cases value with
  | error e => trivial
  | ok result =>
    obtain ⟨acquired, updated⟩ := result
    cases acquired with
    | false => trivial
    | true => exact won

/-- What comes after the check tells whether it was won. -/
theorem safe_report {tid : Nat} {runId key claimer kind : String} {payload : Json} {leaseTtlMs nowMs clock ts : Int}
    {acquired : Bool} {h : BigtableHist} (won : acquired → ∃ event ∈ h.log, event.tid = tid ∧ claimWon key event) :
    bigtable.Safe (claimContract tid (.claimEffectDispatch runId key claimer leaseTtlMs nowMs clock)) tid
      (claimPost tid (.claimEffectDispatch runId key claimer leaseTtlMs nowMs clock))
      (do
        let updated ← getEffect key
        if acquired then do
          let seq ← nextSeq runId
          journal runId seq kind payload ts
          pure (acquired, updated)
        else pure (acquired, updated) : BigtableM (Bool × Option EffectRecord)).run h := by
  cases acquired with
  | false => exact safe_getEffect (fun _ _ => trivial) fun _ _ _ _ _ => trivial
  | true =>
    obtain ⟨event, member, facts⟩ := won rfl
    have all : AllTame none (do
        let updated ← getEffect key
        let seq ← nextSeq runId
        journal runId seq kind payload ts
        pure (true, updated)) :=
      .bind allTame_getEffect fun _ => .bind allTame_nextSeq fun _ => .bind allTame_journal fun _ => .pure _
    -- from here on the event stays in the log
    refine System.Safe.mono (fun value h stays => claimPost_of_won ⟨event, stays, facts⟩ value) ?_
    exact System.Safe.mem_of_all_proper (all.mono fun _ isTame _ => .inl isTame) member

theorem safe_claimEffectDispatch {tid : Nat} {runId key claimer : String} {leaseTtlMs nowMs clock : Int}
    {h : BigtableHist} :
    bigtable.Safe (claimContract tid (.claimEffectDispatch runId key claimer leaseTtlMs nowMs clock)) tid
      (claimPost tid (.claimEffectDispatch runId key claimer leaseTtlMs nowMs clock))
      (claimEffectDispatch runId key claimer leaseTtlMs nowMs clock).run h := by
  unfold claimEffectDispatch
  refine safe_getEffect (fun _ _ => trivial) fun h₁ row state => ?_
  cases row with
  | none => exact fun _ _ => trivial
  | some m =>
    dsimp only [Option.map_some]
    split
    next => exact fun _ _ => trivial
    next eligible =>
      split
      next => exact fun _ _ => trivial
      next isOpen =>
        -- the check is made on the row that was read
        have proper : ∀ h₂, Foreign tid (h₁.push tid (.readRow (rkEffect key)) (.ok (some m)) state) h₂ →
            Claiming tid (.claimEffectDispatch runId key claimer leaseTtlMs nowMs clock) h₂
              (claimOp key (effectFrom key m) claimer
                (addI64 (RunStore.claimTime nowMs clock) (RunStore.claimTtl leaseTtlMs))
                (RunStore.claimTime nowMs clock)) := by
          intro h₂ foreign
          refine .check (foreign.lastOwn_eq.trans (lastOwn_push_self ..)) ?_ ?_
          · simpa [dispatchable, not_or, and_assoc] using eligible
          · by_cases unclaimed : (effectFrom key m).dispatchClaimedBy = ""
            · simp [leaseOpen, unclaimed]
            · simpa [leaseOpen, unclaimed] using isOpen
        by_cases unclaimed : (effectFrom key m).dispatchClaimedBy = ""
        · rw [if_pos unclaimed]
          rw [claimOp_of_unclaimed unclaimed] at proper
          refine safe_check (fun _ _ => trivial) (fun h₂ foreign => .inr (proper h₂ foreign)) fun h₂ matched state => ?_
          refine safe_report fun acquired => ⟨_, List.mem_cons_self, rfl, ?_⟩
          have unmatched : matched = false := by simpa using acquired
          simp [claimWon, unmatched, Op.taken, claimMutations]
        · rw [if_neg unclaimed]
          rw [claimOp_of_claimed unclaimed] at proper
          refine safe_check (fun _ _ => trivial) (fun h₂ foreign => .inr (proper h₂ foreign)) fun h₂ matched state => ?_
          refine safe_report fun acquired => ⟨_, List.mem_cons_self, rfl, ?_⟩
          have isMatched : matched = true := by simpa using acquired
          simp [claimWon, isMatched, Op.taken, claimMutations]

end Safe

theorem claims_compose {admits : Call → Prop} :
    System.Compose bigtable admits (bigtable.tracked (fun _ _ _ _ => True) Proper) claimPost := by
  refine System.tracked_compose fun {tid call h} _ _ => ?_
  cases call with
  | claimEffectDispatch => exact safe_claimEffectDispatch
  | recordDispatchAttempt =>
    refine safe_of_tame (fun _ _ => trivial) ?_ h
    exact allTame_recordDispatchAttempt
  | recordExternalObservation =>
    refine safe_of_tame (fun _ _ => trivial) ?_ h
    exact allTame_recordExternalObservation
  | completeEffect => exact safe_of_tame (fun _ _ => trivial) allTame_completeEffect h
  | journal => exact safe_of_tame (fun _ _ => trivial) allTame_journal h
  | subscribeEvents _ _ _ polls => exact safe_of_tame (fun _ _ => trivial) (allTame_subscribeEvents polls) h

/-- From when until when thread `tid` has claimed the effect, if it returned `acquired = true`. -/
def acquired (key : String) (c : BigtableConfig) (tid : Nat) : Option (Int × Int) :=
  match c.pool[tid]? with
  | some ⟨.claimEffectDispatch runId k claimer leaseTtlMs nowMs clock, .ret (.ok (true, _))⟩ =>
    if k = key then claimWindow (.claimEffectDispatch runId k claimer leaseTtlMs nowMs clock) else none
  | _ => none

/-- The thread's next operation is a check that will be won, on a row that is `PENDING`, `OUTBOX` and due. -/
def grantsDue (key : String) (now : Int) (tid : Nat) (c : BigtableConfig) : Bool :=
  (c.pending tid).any fun running => claimWon key ⟨tid, running.2, (bigtable.exec running.2 c.state).1⟩ &&
    (c.state.read (rkEffect key)).any fun m => dispatchable now (effectFrom key m)

/-- Both claims were won, the first before the second in the log; and the second waited for the lease of the first,
    or the lease was given back in between. -/
def ClaimedAfter (key : String) (c : BigtableConfig) (tid₁ : Nat) (expiry₁ : Int) (tid₂ : Nat) (now₂ : Int) : Prop :=
  ∃ newer second between first older, c.log = newer ++ second :: (between ++ first :: older) ∧
    first.tid = tid₁ ∧ claimWon key first ∧ second.tid = tid₂ ∧ claimWon key second ∧
      (expiry₁ ≤ now₂ ∨ ∃ event ∈ between, released c.callOf key event)

/-- Only dispatchable effects are handed out, and only once. -/
structure SoundClaims (key : String) (start : BigtableConfig) (choices : List (Choice Call)) : Prop where
  due : ∀ tid now expiry, acquired key (bigtable.run start choices) tid = some (now, expiry) →
    ∃ before after, choices = before ++ .exec tid :: after ∧ grantsDue key now tid (bigtable.run start before)
  exclusive : ∀ tid₁ now₁ expiry₁ tid₂ now₂ expiry₂, tid₁ ≠ tid₂ →
    acquired key (bigtable.run start choices) tid₁ = some (now₁, expiry₁) →
    acquired key (bigtable.run start choices) tid₂ = some (now₂, expiry₂) →
    ClaimedAfter key (bigtable.run start choices) tid₁ expiry₁ tid₂ now₂ ∨
      ClaimedAfter key (bigtable.run start choices) tid₂ expiry₂ tid₁ now₁

section Run

variable {key : String} {table : Contents} {choices : List (Choice Call)}

/-- What a claim returned was decided by a check of its own. -/
theorem won_of_acquired {admits : Call → Prop}
    (along : bigtable.Along (System.Permits admits fun _ _ _ _ => True) (quiet table) choices) {tid : Nat}
    {window : Int × Int} (isAcquired : acquired key (bigtable.run (quiet table) choices) tid = some window) :
    (∃ event ∈ (bigtable.run (quiet table) choices).log, event.tid = tid ∧ claimWon key event) ∧
      ((bigtable.run (quiet table) choices).callOf tid).bind claimWindow = some window := by
  have safe := System.run_safe claims_compose (quiet_owned table) (System.poolSafe_of_empty rfl) along
  unfold acquired at isAcquired
  split at isAcquired
  next runId k claimer leaseTtlMs nowMs clock updated returned =>
    by_cases own : k = key
    · subst own
      rw [if_pos rfl] at isAcquired
      refine ⟨safe.returned returned, ?_⟩
      rw [Config.callOf, returned]
      exact isAcquired
    · rw [if_neg own] at isAcquired
      cases isAcquired
  next => cases isAcquired

theorem standing_run (choices : List (Choice Call)) : Standing key (bigtable.run (quiet table) choices).toHist := by
  refine System.run_tracked claims_compose ?_ (quiet_owned table) (System.poolSafe_of_empty rfl) ?_
    (System.along_free bigtable (quiet table) choices)
  · exact fun tid call h op res state _ answers _ proper standing => standing.push proper answers
  · intro newer tid m older now split
    simp [quiet] at split

/-- A claim that nobody disturbs is won on a row that can be dispatched. -/
theorem due_of_acquired (undisturbed : bigtable.Along (System.Executes (Undisturbed key)) (quiet table) choices)
    {tid : Nat} {now expiry : Int}
    (isAcquired : acquired key (bigtable.run (quiet table) choices) tid = some (now, expiry)) :
    ∃ before after, choices = before ++ .exec tid :: after ∧
      grantsDue key now tid (bigtable.run (quiet table) before) := by
  have free := System.along_free bigtable (quiet table) choices
  obtain ⟨⟨event, member, own, won⟩, window⟩ := won_of_acquired free isAcquired
  obtain ⟨newer, older, split⟩ := List.append_of_mem member
  have executed : bigtable.fault event.op ≠ some event.res := by
    intro failed
    obtain ⟨_, op, res⟩ := event
    obtain rfl : Except.error requestFailed = res := Option.some.inj failed
    rw [not_claimWon_of_error] at won
    cases won
  obtain ⟨before, after, call, rfl, -, pending, result⟩ :=
    System.exec_of_split split (List.nil_suffix) executed
  rw [own] at pending ⊢
  refine ⟨before, after, rfl, ?_⟩
  rw [System.run_append] at window
  -- the thread serves the call it returned from
  have serves : claimWindow call = some (now, expiry) := by
    rw [System.callOf_run (Config.callOf_of_pending pending) _] at window
    exact window
  have proper := System.along_proper claims_compose (quiet_owned table) (System.poolSafe_of_empty rfl) free
  have isProper : Proper tid call (bigtable.run (quiet table) before).toHist event.op := by
    have here := (System.Along.append.mp proper).2.1
    simp only [System.Permits, own, pending] at here
    exact here.2
  have isWon : claimWon key ⟨tid, event.op, (bigtable.exec event.op (bigtable.run (quiet table) before).state).1⟩ := by
    rw [← result, ← own]
    exact won
  have calm : calmSince tid (putsOff key now) (bigtable.run (quiet table) before).log := by
    have here := (System.Along.append.mp undisturbed).2.1
    simp only [System.Executes, own, pending] at here
    simpa [serves] using here isWon
  have due : Due key now (bigtable.run (quiet table) before).state := by
    obtain ⟨c, winning⟩ : ∃ c, Winning key tid call (bigtable.run (quiet table) before).toHist c :=
      ⟨_, winning_of_won isProper .exec isWon⟩
    cases winning with
    | claim last eligible isOpen wins =>
      obtain ⟨between, oldest, since, quiet_⟩ := calmSince_split calm last
      obtain ⟨rfl, -⟩ := Prod.mk.inj (Option.some.inj serves)
      exact standing_run before between tid _ oldest _ since quiet_ eligible
  obtain ⟨m, found, can⟩ := due
  simp [grantsDue, pending, isWon, found, can]

/-- Where every claim has a name, the log of a run keeps the lease exclusive. -/
theorem dispatchLease_run (key : String)
    (named : bigtable.Along (System.Permits NamedClaims fun _ _ _ _ => True) (quiet table) choices) :
    (dispatchLease key (bigtable.run (quiet table) choices).callOf).Exclusive (bigtable.run (quiet table) choices).log := by
  have admitted := System.run_admitted (by simp [quiet]) named
  refine (System.run_tracked (I := fun h =>
    (dispatchLease key (bigtable.run (quiet table) choices).callOf).Recorded h ∧
      (dispatchLease key (bigtable.run (quiet table) choices).callOf).Exclusive h.log)
    claims_compose ?_ (quiet_owned table) (System.poolSafe_of_empty rfl) ?_ named).2
  · rintro tid call h op res state serves answers - proper ⟨recorded, exclusive⟩
    have isNamed : NamedClaims call := by
      obtain ⟨thread, alive, rfl⟩ := Option.map_eq_some_iff.mp serves
      exact admitted thread (List.mem_of_getElem? alive)
    have guards : (dispatchLease key (bigtable.run (quiet table) choices).callOf).Guards h.state ⟨tid, op, res⟩ state :=
      dispatchLease_guards serves isNamed proper answers
    exact ⟨recorded.push guards, exclusive.push recorded guards⟩
  · exact ⟨by simp [Lease.Recorded, quiet], by simp [Lease.Exclusive, quiet]⟩

theorem claimedAfter_of_exclusive {c : BigtableConfig} (exclusive : (dispatchLease key c.callOf).Exclusive c.log)
    {newer between older : List BigtableEvent} {first second : BigtableEvent}
    (split : c.log = newer ++ second :: (between ++ first :: older)) (won₁ : claimWon key first)
    (won₂ : claimWon key second) {now₁ expiry₁ now₂ expiry₂ : Int}
    (window₁ : (c.callOf first.tid).bind claimWindow = some (now₁, expiry₁))
    (window₂ : (c.callOf second.tid).bind claimWindow = some (now₂, expiry₂)) :
    ClaimedAfter key c first.tid expiry₁ second.tid now₂ :=
  ⟨newer, second, between, first, older, split, rfl, won₁, rfl, won₂, exclusive.expired_or_released split
    ((if_pos won₁).trans window₁) ((if_pos won₂).trans window₂)⟩

/-- **Claims are sound.**  In every interleaving in which every claimer has a name, and no check of a claim is won
    after the row was put off since the claim's read: whoever is told that it has claimed the effect made its check
    on a row that was `PENDING`, `OUTBOX` and due, and of two such claims the later one waited for the lease of
    the other, unless an attempt or an observation was recorded in between. -/
theorem dispatch_claims_sound (key : String) (table : Contents) (choices : List (Choice Call))
    (named : bigtable.Along (System.Permits NamedClaims fun _ _ _ _ => True) (quiet table) choices)
    (undisturbed : bigtable.Along (System.Executes (Undisturbed key)) (quiet table) choices) :
    SoundClaims key (quiet table) choices := by
  constructor
  · exact fun tid now expiry acquired => due_of_acquired undisturbed acquired
  · intro tid₁ now₁ expiry₁ tid₂ now₂ expiry₂ differ acquired₁ acquired₂
    obtain ⟨⟨event₁, member₁, rfl, won₁⟩, window₁⟩ := won_of_acquired named acquired₁
    obtain ⟨⟨event₂, member₂, rfl, won₂⟩, window₂⟩ := won_of_acquired named acquired₂
    have exclusive := dispatchLease_run key named
    have distinct : event₁ ≠ event₂ := fun same => differ (congrArg Event.tid same)
    rcases ordered_of_mem member₁ member₂ distinct with ⟨_, _, _, split⟩ | ⟨_, _, _, split⟩
    · exact .inl (claimedAfter_of_exclusive exclusive split won₁ won₂ window₁ window₂)
    · exact .inr (claimedAfter_of_exclusive exclusive split won₂ won₁ window₂ window₁)

end Run

/-! ## Three dispatchers -/

/-- An `OUTBOX` effect that is `PENDING` and due. -/
def oneEffect : Contents :=
  Contents.empty.write "e#k" [("status", "1"), ("dispatch_mode", "2"), ("next_dispatch_at_ms", "5")]

/-- A claim at `now`, for ten milliseconds. -/
def claimAt (claimer : String) (now : Int) : Call := .claimEffectDispatch "r" "k" claimer 10 now now

/-- The second dispatcher comes when the lease of the first has run out. -/
theorem bigtable_claims_take_turns :
    acquired "k" (bigtable.run (quiet oneEffect) (serve 0 (claimAt "D1" 100) ++ serve 1 (claimAt "D2" 110))) 1 =
        some (110, 120) ∧
      SoundClaims "k" (quiet oneEffect) (serve 0 (claimAt "D1" 100) ++ serve 1 (claimAt "D2" 110)) :=
  ⟨by decide +kernel, dispatch_claims_sound "k" oneEffect _ (by decide +kernel) (by decide +kernel)⟩

/-- Between the read and the check of a claim the effect is completed. -/
def completedClaim : List (Choice Call) :=
  serve 0 (claimAt "D1" 100) 1 ++ serve 1 (.completeEffect "r" "k" EffectStatus.confirmed.code "done" "" 101) ++
    List.replicate 16 (.exec 0)

/-- A dispatcher without a name, and another one a millisecond later. -/
def namelessClaims : List (Choice Call) := serve 0 (claimAt "" 100) ++ serve 1 (claimAt "D2" 101)

/-- The completed effect is claimed all the same; and the effect without a name to its lease is claimed twice. -/
theorem claims_unsound :
    ¬ SoundClaims "k" (quiet oneEffect) completedClaim ∧ ¬ SoundClaims "k" (quiet oneEffect) namelessClaims := by
  constructor
  · intro sound
    obtain ⟨before, after, split, grants⟩ := sound.due 0 100 110 (by decide +kernel)
    have never : ∀ n < 64, completedClaim[n]?.bind Choice.exec? = some 0 →
        grantsDue "k" 100 0 (bigtable.run (quiet oneEffect) (completedClaim.take n)) = false := by decide +kernel
    have short : completedClaim.length < 64 := by decide
    rw [split, List.length_append] at short
    have refused := never before.length (by omega) (by rw [split]; simp [Choice.exec?])
    rw [show completedClaim.take before.length = before by rw [split, List.take_left], grants] at refused
    cases refused
  · intro sound
    have unreleased : ∀ event ∈ (bigtable.run (quiet oneEffect) namelessClaims).log,
        released (bigtable.run (quiet oneEffect) namelessClaims).callOf "k" event = false := by
      simp only [← Bool.not_eq_true, ← List.any_eq_false]
      decide +kernel
    rcases sound.exclusive 0 100 110 1 101 111 (by decide) (by decide +kernel) (by decide +kernel) with after | after
    all_goals
      obtain ⟨newer, second, between, first, older, split, -, -, -, -, waited | ⟨event, member, isRelease⟩⟩ := after
      · exact absurd waited (by decide)
      · rw [unreleased event (by simp [split, member])] at isRelease
        cases isRelease

end Tape.BigtableRunStore
