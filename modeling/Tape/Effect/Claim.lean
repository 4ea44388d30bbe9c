import Tape.Interleave.Lease
import Tape.Effect.Outcome

/-! # Dispatch claims

`claim_effect_dispatch` takes the dispatch lease of an effect by one guarded
`UPDATE`.  The lease is the pair of columns `dispatch_claimed_by`,
`dispatch_claim_expires_at_ms`, and an empty claimer reads as "not leased".  So the
claims on an effect exclude each other as long as every claimer has a name and the
expiry it computes does not wrap around.
-/

namespace Tape.Effect

open Interleave

/-- The time and expiry of a claim that was won on the effect. -/
def acquired (runId key : String) : TapeEvent → Option (Int × Int)
  | ⟨_, .sql (.effect (.claimDispatch r k _ leaseExp now)), .ok updated⟩ =>
    grantOf updated (r, k) (now, leaseExp)
  | _ => none
where
  grantOf (updated : Nat) (pk : String × String) (times : Int × Int) : Option (Int × Int) :=
    if pk = (runId, key) ∧ 0 < updated then some times else none

/-- A `record_dispatch_attempt` or `record_external_observation` took effect. -/
def released (runId key : String) : TapeEvent → Bool
  | ⟨_, .sql (.effect (.recordAttempt r k ..)), .ok _⟩ => (r, k) = (runId, key)
  | ⟨_, .sql (.effect (.recordObservation r k ..)), .ok _⟩ => (r, k) = (runId, key)
  | _ => false

def dispatchLease (runId key : String) : Lease World Act Act.Res where
  grant := acquired runId key
  release := released runId key
  held w until_ := ∃ row, w.effects.find? (runId, key) = some row ∧ row.dispatchClaimedBy ≠ "" ∧
    until_ ≤ row.dispatchClaimExpiresAtMs

/-- A claim under a name, for a lease that does not end before it starts. -/
def SoundClaim : Act → Prop
  | .sql (.effect (.claimDispatch _ _ claimer leaseExp now)) => claimer ≠ "" ∧ now ≤ leaseExp
  | _ => True

/-- A claim is won exactly on a dispatchable row, which it then leases. -/
theorem acquired_cases {runId key : String} {tid : Nat} {act : Act} {w w' : World} {res : act.Res}
    {now expiry : Int} (answers : tape.Answers act w res w')
    (won : acquired runId key ⟨tid, act, res⟩ = some (now, expiry)) :
    ∃ claimer row, act = .effect (.claimDispatch runId key claimer expiry now) ∧
      w.effects.find? (runId, key) = some row ∧ EffectStmt.dispatchable now row ∧
      w'.effects.find? (runId, key) = some
        { row with dispatchClaimedBy := claimer, dispatchClaimExpiresAtMs := expiry, tsMs := expiry } := by
  unfold acquired at won
  split at won
  next _ r k claimer leaseExp n updated isClaim =>
    cases isClaim
    unfold acquired.grantOf at won
    split at won
    next granted =>
      obtain ⟨same, changed⟩ := granted
      cases won
      cases same
      obtain ⟨counted, rfl⟩ := exec_of_ok answers
      have isCount := Except.ok.inj counted
      rw [isCount] at changed
      -- the `UPDATE` changed a row exactly if there was one to claim
      obtain ⟨row, found, due⟩ := EffectStmt.claimDispatch_pos_iff.mp changed
      refine ⟨claimer, row, rfl, found, due, ?_⟩
      have written := EffectStmt.find?_exec_of_some
        (s := .claimDispatch runId key claimer expiry now) found
      have selected : (EffectStmt.claimDispatch runId key claimer expiry now).selects row = true := by
        simp [EffectStmt.selects, Sql.Table.key_of_find? found, due]
      rw [EffectStmt.apply, if_pos selected] at written
      exact written
    next => cases won
  next => cases won

theorem dispatchLease_keeps {runId key : String} {tid : Nat} {act : Act} {w w' : World} {res : act.Res}
    (sound : SoundClaim act) (answers : tape.Answers act w res w')
    (unreleased : released runId key ⟨tid, act, res⟩ = false) {until_ : Int}
    (held : (dispatchLease runId key).held w until_) : (dispatchLease runId key).held w' until_ := by
  obtain ⟨row, found, claimed, runs⟩ := held
  have same := Sql.Table.key_of_find? found
  rcases effect_of_answers answers found with kept | ⟨s, rfl, rfl, -, found'⟩
  · exact ⟨row, kept, claimed, runs⟩
  · refine ⟨_, found', ?_⟩
    unfold EffectStmt.apply
    split
    next selected =>
      cases s with
      | setOutcome => exact ⟨claimed, runs⟩
      | zeroEffects => exact ⟨claimed, runs⟩
      | claimDispatch r k claimer leaseExp now =>
        -- a later claim waited for this lease
        have expired : row.dispatchClaimExpiresAtMs ≤ now := by
          simp only [EffectStmt.selects, EffectStmt.dispatchable, Bool.and_eq_true, Bool.or_eq_true,
            decide_eq_true_eq, claimed, false_or] at selected
          exact selected.2.2
        have later : now ≤ leaseExp := sound.2
        exact ⟨sound.1, by simp only [EffectStmt.assign]; omega⟩
      | recordAttempt r k | recordObservation r k =>
        -- the statement was executed on this very row, so it was a release
        have own : (r, k) = (runId, key) := by
          rw [← same]
          exact (of_decide_eq_true selected).symm
        simp [released, Act.exec, Stmt.exec, EffectStmt.exec, EffectStmt.exec.update, own] at unreleased
      | _ => cases selected
    next => exact ⟨claimed, runs⟩

theorem dispatchLease_guards {runId key : String} {tid : Nat} {act : Act} {w w' : World} {res : act.Res}
    (sound : SoundClaim act) (answers : tape.Answers act w res w') :
    (dispatchLease runId key).Guards w ⟨tid, act, res⟩ w' where
  waits now expiry won until_ held := by
    obtain ⟨claimer, row, -, found, due, -⟩ := acquired_cases answers won
    obtain ⟨row', found', claimed, runs⟩ := held
    obtain rfl : row = row' := Option.some.inj (found.symm.trans found')
    simp only [EffectStmt.dispatchable, Bool.and_eq_true, Bool.or_eq_true, decide_eq_true_eq, claimed,
      false_or] at due
    exact le_trans runs due.2
  records now expiry won := by
    obtain ⟨claimer, row, rfl, -, -, written⟩ := acquired_cases answers won
    exact ⟨_, written, sound.1, le_refl _⟩
  keeps unreleased until_ held := dispatchLease_keeps sound answers unreleased held

/-! ## From calls to their claims -/

/-- The claim a `claim_effect_dispatch` call makes. -/
def claimAct (runId key claimer : String) (leaseTtlMs nowMs clock : Int) : Act :=
  .effect (.claimDispatch runId key claimer
    (addI64 (RunStore.claimTime nowMs clock) (RunStore.claimTtl leaseTtlMs)) (RunStore.claimTime nowMs clock))

/-- The claimer has a name, and the expiry fits an `i64`. -/
def NamedClaim (claimer : String) (now ttl : Int) : Prop :=
  claimer ≠ "" ∧ -2 ^ 63 ≤ now + ttl ∧ now + ttl < 2 ^ 63

instance (claimer : String) (now ttl : Int) : Decidable (NamedClaim claimer now ttl) :=
  inferInstanceAs (Decidable (_ ∧ _ ∧ _))

/-- Every claim of the run is made under a name and with an expiry that fits. -/
def NamedClaims : Call → Prop
  | .claimEffectDispatch _ _ claimer leaseTtlMs nowMs clock =>
    NamedClaim claimer (RunStore.claimTime nowMs clock) (RunStore.claimTtl leaseTtlMs)
  | call => isOutcomeCall call

instance (call : Call) : Decidable (NamedClaims call) := by
  unfold NamedClaims
  split <;> infer_instance

theorem soundClaim_of_named {runId key claimer : String} {leaseTtlMs nowMs clock : Int}
    (named : NamedClaim claimer (RunStore.claimTime nowMs clock) (RunStore.claimTtl leaseTtlMs)) :
    SoundClaim (claimAct runId key claimer leaseTtlMs nowMs clock) := by
  obtain ⟨name, low, high⟩ := named
  refine ⟨name, ?_⟩
  rw [addI64_eq low high]
  have positive := RunStore.claimTtl_pos leaseTtlMs
  omega

/-- A call relies on its own past only, and guarantees sound claims. -/
def claimContract (tid : Nat) (_ : Call) : Contract World Act Act.Res where
  rely := Foreign tid
  allowed _ _ := True
  guar h h' := ∃ act res state, h' = h.push tid act res state ∧ tape.Answers act h.state res state ∧
    SoundClaim act
  rely_refl := Foreign.refl tid
  rely_trans := Foreign.trans

/-- A claim call that returned `acquired = true` won its claim. -/
def claimPost (tid : Nat) (call : Call) (out : call.Out) (h : TapeHist) : Prop :=
  match call, out with
  | .claimEffectDispatch runId key claimer leaseTtlMs nowMs clock, .ok (true, _) =>
    ∃ event ∈ h.log, event.tid = tid ∧ event.op = claimAct runId key claimer leaseTtlMs nowMs clock ∧
      acquired runId key event = some (RunStore.claimTime nowMs clock,
        addI64 (RunStore.claimTime nowMs clock) (RunStore.claimTtl leaseTtlMs))
  | _, _ => True

section Claims

variable {tid : Nat} {call : Call}

/-- An act that is no claim. -/
def Claimless (act : Act) : Prop :=
  ∀ runId key claimer leaseExp now, act ≠ .effect (.claimDispatch runId key claimer leaseExp now)

theorem Claimless.sound {act : Act} (claimless : Claimless act) : SoundClaim act := by
  unfold SoundClaim
  split
  next runId key claimer leaseExp now => exact absurd rfl (claimless runId key claimer leaseExp now)
  next => trivial

theorem claimless_of_ne_claim {s : EffectStmt} (noClaim : ∀ r k c e n, s ≠ .claimDispatch r k c e n) :
    Claimless (.effect s) := by
  intro r k c e n same
  cases same
  exact noClaim r k c e n rfl

theorem claimless_of_ne_effect {act : Act} (other : ∀ s, act ≠ .effect s) : Claimless act :=
  fun _ _ _ _ _ same => other _ same

theorem claimless_of_housekeeping (act : Act) (housekeeping : Housekeeping act) : Claimless act := by
  cases housekeeping <;> intro _ _ _ _ _ same <;> cases same

theorem safe_of_claimless {α : Type} {post : α → TapeHist → Prop} (returns : ∀ value h, post value h)
    {program : Prog Act Act.Res α} (all : program.All Claimless) (h : TapeHist) :
    tape.Safe (claimContract tid call) tid post program h :=
  System.Safe.of_all (K := claimContract tid call)
    (fun _ act res state claimless _ answers => ⟨act, res, state, rfl, answers, claimless.sound⟩) returns all h

theorem safe_claimEffectDispatch {runId key claimer : String} {leaseTtlMs nowMs clock : Int} {h : TapeHist}
    (named : NamedClaim claimer (RunStore.claimTime nowMs clock) (RunStore.claimTtl leaseTtlMs)) :
    tape.Safe (claimContract tid (.claimEffectDispatch runId key claimer leaseTtlMs nowMs clock)) tid
      (claimPost tid (.claimEffectDispatch runId key claimer leaseTtlMs nowMs clock))
      (RunStore.claimEffectDispatch runId key claimer leaseTtlMs nowMs clock).run h := by
  refine safe_query (fun _ _ => trivial) fun h₁ res state _ _ answers => ?_
  refine ⟨⟨_, _, _, rfl, answers, soundClaim_of_named named⟩, fun (updated : Nat) isOk => ?_⟩
  subst isOk
  refine safe_query (fun _ _ => trivial) fun h₂ res' state' foreign _ answers' => ?_
  refine ⟨⟨_, _, _, rfl, answers', trivial⟩, fun row isOk' h₃ foreign' => ?_⟩
  -- the claim event is in the log from here on
  have kept := foreign'.mem (List.mem_cons_of_mem _ (foreign.mem List.mem_cons_self))
  by_cases changed : 0 < updated
  · simp only [changed, decide_true]
    exact ⟨_, kept, rfl, rfl, by simp [acquired, acquired.grantOf, changed]⟩
  · simp only [changed, decide_false]
    trivial

end Claims

theorem claims_compose : System.Compose tape NamedClaims claimContract claimPost where
  compatible {tid call other call' h h'} ne guar := by
    obtain ⟨act, res, state, rfl, -, -⟩ := guar
    exact Foreign.push h act res state ne
  fresh {tid call h} named _ := by
    cases call with
    | claimEffectDispatch => exact safe_claimEffectDispatch named
    | completeEffect =>
      refine safe_of_claimless (fun _ _ => trivial) (all_completeEffect claimless_of_housekeeping ?_ ?_) h
      all_goals exact claimless_of_ne_claim (by simp)
    | reconcileEffect =>
      refine safe_of_claimless (fun _ _ => trivial) (all_reconcileEffect claimless_of_housekeeping ?_ ?_) h
      all_goals exact claimless_of_ne_claim (by simp)
    | recordDispatchAttempt =>
      refine safe_of_claimless (fun _ _ => trivial)
        (all_recordDispatchAttempt claimless_of_housekeeping ?_ fun _ _ => ?_) h
      all_goals exact claimless_of_ne_claim (by simp)
    | recordExternalObservation =>
      refine safe_of_claimless (fun _ _ => trivial)
        (all_recordExternalObservation claimless_of_housekeeping ?_ (fun _ _ => ?_) ?_ fun _ => ?_) h
      · exact claimless_of_ne_claim (by simp)
      · exact claimless_of_ne_claim (by simp)
      · exact claimless_of_ne_effect (by simp)
      · exact claimless_of_ne_effect (by simp)
    | _ => cases named

/-- Both claims were won, the first before the second in the log; and the second waited for the
    lease of the first, or the lease was released in between. -/
def ClaimedAfter (runId key : String) (log : List TapeEvent) (tid₁ : Nat) (expiry₁ : Int) (tid₂ : Nat)
    (now₂ : Int) : Prop :=
  ∃ newer second between first older, log = newer ++ second :: (between ++ first :: older) ∧
    first.tid = tid₁ ∧ (∃ now₁, acquired runId key first = some (now₁, expiry₁)) ∧
    second.tid = tid₂ ∧ (∃ expiry₂, acquired runId key second = some (now₂, expiry₂)) ∧
    (expiry₁ ≤ now₂ ∨ ∃ event ∈ between, released runId key event)

theorem claimedAfter_of_exclusive {runId key : String} {log : List TapeEvent} {first second : TapeEvent}
    {now₁ expiry₁ now₂ expiry₂ : Int} (exclusive : (dispatchLease runId key).Exclusive log)
    {newer between older : List TapeEvent} (split : log = newer ++ second :: (between ++ first :: older))
    (won₁ : acquired runId key first = some (now₁, expiry₁))
    (won₂ : acquired runId key second = some (now₂, expiry₂)) :
    ClaimedAfter runId key log first.tid expiry₁ second.tid now₂ := by
  exact ⟨newer, second, between, first, older, split, rfl, ⟨now₁, won₁⟩, rfl, ⟨expiry₂, won₂⟩,
    exclusive.expired_or_released split won₁ won₂⟩

theorem dispatchLease_invariant (runId key : String) :
    ∀ tid call (h h' : TapeHist), (claimContract tid call).guar h h' →
      ((dispatchLease runId key).Recorded h ∧ (dispatchLease runId key).Exclusive h.log) →
      (dispatchLease runId key).Recorded h' ∧ (dispatchLease runId key).Exclusive h'.log := by
  rintro tid call h h' ⟨act, res, state, rfl, answers, sound⟩ ⟨recorded, exclusive⟩
  have guards : (dispatchLease runId key).Guards h.state ⟨tid, act, res⟩ state :=
    dispatchLease_guards sound answers
  exact ⟨recorded.push guards, exclusive.push recorded guards⟩

/-- **Claims exclude each other.**  In every interleaving of the five methods in which every claim
    has a claimer's name and an expiry that fits, of two claims on an effect that returned
    `acquired = true` one was made first, and the other one waited until its lease ran out, unless
    a `record_dispatch_attempt` or `record_external_observation` came in between. -/
theorem dispatch_claims_exclusive (runId key : String) (w : World) (choices : List (Choice Call))
    (named : tape.Along (System.Permits NamedClaims fun _ _ _ _ => True) (quiet w) choices)
    {tid₁ tid₂ : Nat} (differ : tid₁ ≠ tid₂)
    {claimer₁ claimer₂ : String} {ttl₁ nowMs₁ clock₁ ttl₂ nowMs₂ clock₂ : Int}
    {row₁ row₂ : Option EffectRecord}
    (won₁ : (tape.run (quiet w) choices).pool[tid₁]? =
      some ⟨.claimEffectDispatch runId key claimer₁ ttl₁ nowMs₁ clock₁, .ret (.ok (true, row₁))⟩)
    (won₂ : (tape.run (quiet w) choices).pool[tid₂]? =
      some ⟨.claimEffectDispatch runId key claimer₂ ttl₂ nowMs₂ clock₂, .ret (.ok (true, row₂))⟩) :
    let n₁ := RunStore.claimTime nowMs₁ clock₁
    let n₂ := RunStore.claimTime nowMs₂ clock₂
    let log := (tape.run (quiet w) choices).log
    ClaimedAfter runId key log tid₁ (n₁ + RunStore.claimTtl ttl₁) tid₂ n₂ ∨
      ClaimedAfter runId key log tid₂ (n₂ + RunStore.claimTtl ttl₂) tid₁ n₁ := by
  intro n₁ n₂ log
  have owned := quiet_owned w
  have empty : tape.PoolSafe claimContract claimPost (quiet w) := System.poolSafe_of_empty rfl
  have safe := System.run_safe claims_compose owned empty named
  have admitted := System.run_admitted (by simp) named
  have exclusive : (dispatchLease runId key).Exclusive log :=
    (System.run_hist claims_compose (dispatchLease_invariant runId key) owned empty
      ⟨by simp [Lease.Recorded], by simp [Lease.Exclusive]⟩ named).2
  obtain ⟨event₁, member₁, own₁, -, grant₁⟩ := safe.returned won₁
  obtain ⟨event₂, member₂, own₂, -, grant₂⟩ := safe.returned won₂
  -- the expiry each call computed did not wrap around
  have fits₁ := admitted _ (List.mem_of_getElem? won₁)
  have fits₂ := admitted _ (List.mem_of_getElem? won₂)
  rw [addI64_eq fits₁.2.1 fits₁.2.2] at grant₁
  rw [addI64_eq fits₂.2.1 fits₂.2.2] at grant₂
  have distinct : event₁ ≠ event₂ := by
    rintro rfl
    exact differ (own₁.symm.trans own₂)
  rcases ordered_of_mem member₁ member₂ distinct with ⟨_, _, _, split⟩ | ⟨_, _, _, split⟩
  · have after := claimedAfter_of_exclusive exclusive split grant₁ grant₂
    rw [own₁, own₂] at after
    exact .inl after
  · have after := claimedAfter_of_exclusive exclusive split grant₂ grant₁
    rw [own₁, own₂] at after
    exact .inr after

/-! ## Two dispatchers without a name -/

/-- Two claims on the wire of `wireWorld`, one second apart, each for a minute. -/
def twoClaims (first second : String) (later : Int) : List (Choice Call) :=
  serve 0 (.claimEffectDispatch "r" "k" first 60000 1000 1000) ++
    serve 1 (.claimEffectDispatch "r" "k" second 60000 later later)

/-- Thread `tid` is a claim on the wire at time `now` that returned `acquired = true`. -/
def claimWon (c : TapeConfig) (tid : Nat) (claimer : String) (now : Int) : Bool :=
  match c.pool[tid]? with
  | some ⟨.claimEffectDispatch r k name ttl nowMs clock, .ret (.ok (true, _))⟩ =>
    r = "r" && k = "k" && name = claimer && ttl = 60000 && nowMs = now && clock = now
  | _ => false

theorem pool_of_claimWon (c : TapeConfig) (tid : Nat) (claimer : String) (now : Int)
    (won : claimWon c tid claimer now) : ∃ row, c.pool[tid]? =
      some ⟨.claimEffectDispatch "r" "k" claimer 60000 now now, .ret (.ok (true, row))⟩ := by
  unfold claimWon at won
  split at won
  next r k name ttl nowMs clock row returned =>
    simp only [Bool.and_eq_true, decide_eq_true_eq] at won
    obtain ⟨⟨⟨⟨⟨rfl, rfl⟩, rfl⟩, rfl⟩, rfl⟩, rfl⟩ := won
    exact ⟨row, returned⟩
  next => cases won

/-- An empty claimer leaves the row looking unleased: a second claim one second later is won too. -/
theorem unnamed_claims_overlap :
    claimWon (tape.run (quiet wireWorld) (twoClaims "" "D2" 2000)) 0 "" 1000 = true ∧
      claimWon (tape.run (quiet wireWorld) (twoClaims "" "D2" 2000)) 1 "D2" 2000 = true ∧
      (tape.run (quiet wireWorld) (twoClaims "" "D2" 2000)).log.any (released "r" "k") = false := by
  refine ⟨?_, ?_, ?_⟩ <;> decide +kernel

/-- With names, the second dispatcher gets the effect once the minute is over. -/
theorem named_claims_take_turns :
    ClaimedAfter "r" "k" (tape.run (quiet wireWorld) (twoClaims "D1" "D2" 61000)).log 0 61000 1 61000 ∨
      ClaimedAfter "r" "k" (tape.run (quiet wireWorld) (twoClaims "D1" "D2" 61000)).log 1 121000 0 1000 := by
  obtain ⟨row₁, won₁⟩ := pool_of_claimWon (tape.run (quiet wireWorld) (twoClaims "D1" "D2" 61000)) 0 "D1" 1000
    (by decide +kernel)
  obtain ⟨row₂, won₂⟩ := pool_of_claimWon (tape.run (quiet wireWorld) (twoClaims "D1" "D2" 61000)) 1 "D2" 61000
    (by decide +kernel)
  exact dispatch_claims_exclusive "r" "k" wireWorld (twoClaims "D1" "D2" 61000) (by decide +kernel)
    (by decide) won₁ won₂

end Tape.Effect
