import Tape.Effect.Claim

/-! # Calling the connector

`dispatch_one` calls the connector only under a dispatch lease it has won, and at
most once.  A lease lasts a minute.  A dispatcher that crashes or stalls after its
call leaves the effect `PENDING`, and once the lease has run out the effect is handed
to the next dispatcher.  So two calls for a `NON_IDEMPOTENT` effect are separated by
the expiry of a lease, by a recorded failure or by a recorded observation, and by
nothing weaker than these.
-/

namespace Tape.Effect

open Interleave

/-! ## What the log says about the connector -/

/-- The act calls the connector of the effect. -/
def isDispatch (runId key : String) : Act → Bool
  | .outside (.dispatch effect _) => effect.pk = (runId, key)
  | _ => false

/-- The call came back with a definitive failure. -/
def DispatchOutcome.isFailed : DispatchOutcome → Bool
  | .failed .. => true
  | _ => false

def isFailedDispatch (runId key : String) : Act → Bool
  | .outside (.dispatch effect outcome) => effect.pk = (runId, key) && DispatchOutcome.isFailed outcome
  | _ => false

/-- The act records an attempt that leaves the effect `PENDING`. -/
def isRetry (runId key : String) : Act → Bool
  | .sql (.effect (.recordAttempt r k status ..)) => (r, k) = (runId, key) && status = EffectStatus.pending.code
  | _ => false

/-- The event is a retry that was recorded. -/
def retryRecorded (runId key : String) (event : TapeEvent) : Bool :=
  released runId key event && isRetry runId key event.op

def observationRecorded (runId key : String) : TapeEvent → Bool
  | ⟨_, .sql (.effect (.recordObservation r k ..)), .ok _⟩ => (r, k) = (runId, key)
  | _ => false

/-- The act makes an effect `PENDING` by `complete_effect` or `reconcile_effect`. -/
def reopens (runId key : String) : Act → Bool
  | .sql (.effect (.setOutcome r k status ..)) => (r, k) = (runId, key) && status = EffectStatus.pending.code
  | _ => false

/-! ## The lease, and what withholds an effect from dispatchers -/

/-- Under the dispatch lease as under any status but `PENDING`, no claim is won. -/
def outboxLease (runId key : String) : Lease World Act Act.Res where
  grant := acquired runId key
  release event := retryRecorded runId key event || observationRecorded runId key event
  held w until_ := ∃ row, w.effects.find? (runId, key) = some row ∧
    (row.status = EffectStatus.pending.code →
      row.dispatchClaimedBy ≠ "" ∧ until_ ≤ row.dispatchClaimExpiresAtMs)

theorem outboxLease_keeps {runId key : String} {tid : Nat} {act : Act} {w w' : World} {res : act.Res}
    (sound : SoundClaim act) (settles : reopens runId key act = false)
    (answers : tape.Answers act w res w')
    (unreleased : (outboxLease runId key).release ⟨tid, act, res⟩ = false) {until_ : Int}
    (held : (outboxLease runId key).held w until_) : (outboxLease runId key).held w' until_ := by
  obtain ⟨row, found, withheld⟩ := held
  have same := Sql.Table.key_of_find? found
  rcases effect_of_answers answers found with kept | ⟨s, rfl, rfl, -, found'⟩
  · exact ⟨row, kept, withheld⟩
  · refine ⟨_, found', ?_⟩
    unfold EffectStmt.apply
    split
    next selected =>
      cases s with
      | setOutcome r k status =>
        -- the row is settled, or at least not `PENDING`
        have own : (r, k) = (runId, key) := (of_decide_eq_true selected).symm.trans same
        intro pending
        have reopened : status = EffectStatus.pending.code := pending
        simp [reopens, own, reopened] at settles
      | zeroEffects => exact withheld
      | claimDispatch r k claimer leaseExp now =>
        simp only [EffectStmt.selects, EffectStmt.dispatchable, Bool.and_eq_true, Bool.or_eq_true,
          decide_eq_true_eq] at selected
        obtain ⟨named, runs⟩ := withheld selected.2.1.1.1
        have expired : row.dispatchClaimExpiresAtMs ≤ now := selected.2.2.resolve_left named
        have later : now ≤ leaseExp := sound.2
        intro _
        exact ⟨sound.1, by simp only [EffectStmt.assign]; omega⟩
      | recordAttempt r k status =>
        -- executed on this very row and no retry, so the attempt left it `UNKNOWN`
        have own : (r, k) = (runId, key) := (of_decide_eq_true selected).symm.trans same
        intro pending
        have retried : status = EffectStatus.pending.code := pending
        cases own
        simp [outboxLease, retryRecorded, released, isRetry, Act.exec, Stmt.exec, EffectStmt.exec,
          EffectStmt.exec.update, retried] at unreleased
      | recordObservation r k =>
        have own : (r, k) = (runId, key) := (of_decide_eq_true selected).symm.trans same
        cases own
        simp [outboxLease, observationRecorded, Act.exec, Stmt.exec, EffectStmt.exec,
          EffectStmt.exec.update] at unreleased
      | _ => cases selected
    next => exact withheld

theorem outboxLease_guards {runId key : String} {tid : Nat} {act : Act} {w w' : World} {res : act.Res}
    (sound : SoundClaim act) (settles : reopens runId key act = false)
    (answers : tape.Answers act w res w') : (outboxLease runId key).Guards w ⟨tid, act, res⟩ w' where
  waits now expiry won until_ held := by
    obtain ⟨claimer, row, -, found, due, -⟩ := acquired_cases answers won
    obtain ⟨row', found', withheld⟩ := held
    obtain rfl : row = row' := Option.some.inj (found.symm.trans found')
    simp only [EffectStmt.dispatchable, Bool.and_eq_true, Bool.or_eq_true, decide_eq_true_eq] at due
    obtain ⟨named, runs⟩ := withheld due.1.1.1
    exact le_trans runs (due.2.resolve_left named)
  records now expiry won := by
    obtain ⟨claimer, row, rfl, -, -, written⟩ := acquired_cases answers won
    exact ⟨_, written, fun _ => ⟨sound.1, le_refl _⟩⟩
  keeps unreleased until_ held := outboxLease_keeps sound settles answers unreleased held

/-! ## Semantics are fixed -/

def hasSemantics (runId key : String) (semantics : Int) (w : World) : Prop :=
  ∃ row, w.effects.find? (runId, key) = some row ∧ row.semantics = semantics

theorem hasSemantics_of_answers {runId key : String} {semantics : Int} {act : Act} {w w' : World}
    {res : act.Res} (answers : tape.Answers act w res w') (has : hasSemantics runId key semantics w) :
    hasSemantics runId key semantics w' := by
  obtain ⟨row, found, rfl⟩ := has
  rcases effect_of_answers answers found with kept | ⟨s, -, -, -, found'⟩
  · exact ⟨row, kept, rfl⟩
  · refine ⟨_, found', ?_⟩
    unfold EffectStmt.apply
    split
    · cases s <;> rfl
    · rfl

theorem hasSemantics_unique {runId key : String} {first second : Int} {w : World}
    (left : hasSemantics runId key first w) (right : hasSemantics runId key second w) : first = second := by
  obtain ⟨row, found, rfl⟩ := left
  obtain ⟨row', found', rfl⟩ := right
  rw [Option.some.inj (found.symm.trans found')]

/-! ## What a dispatcher does -/

/-- `act`, executed by thread `tid` after `h`, is one a dispatcher or a reactor executes. -/
structure DispatchStep (runId key : String) (tid : Nat) (h : TapeHist) (act : Act) : Prop where
  sound : SoundClaim act
  settles : reopens runId key act = false
  /-- A retry of a non-idempotent effect follows a definitive failure of the thread's own call. -/
  retries : isRetry runId key act →
    (∃ event ∈ h.log, event.tid = tid ∧ isFailedDispatch runId key event.op) ∨
      ∃ semantics, hasSemantics runId key semantics h.state ∧ semantics ≠ EffectSemantics.nonIdempotent.code
  /-- The connector is called under a lease the thread has won. -/
  leased : isDispatch runId key act → ∃ event ∈ h.log, event.tid = tid ∧
    ∃ now, acquired runId key event = some (now, now + Sdk.dispatchLeaseMs)
  once : isDispatch runId key act → ∀ event ∈ h.log, event.tid = tid → isDispatch runId key event.op = false

def dispatchContract (runId key : String) (tid : Nat) (_ : Call) : Contract World Act Act.Res where
  rely h h' := Foreign tid h h' ∧ ∀ semantics, hasSemantics runId key semantics h.state →
    hasSemantics runId key semantics h'.state
  allowed _ _ := True
  guar h h' := ∃ act res state, h' = h.push tid act res state ∧ tape.Answers act h.state res state ∧
    DispatchStep runId key tid h act
  rely_refl h := ⟨Foreign.refl tid h, fun _ has => has⟩
  rely_trans first second := ⟨first.1.trans second.1, fun _ has => second.2 _ (first.2 _ has)⟩

/-- An act that neither claims nor calls anything and does not make the effect `PENDING`. -/
structure Passive (runId key : String) (act : Act) : Prop where
  claimless : Claimless act
  settles : reopens runId key act = false
  retries : isRetry runId key act = false
  calls : isDispatch runId key act = false

section Safety

variable {runId key : String} {tid : Nat} {call : Call}

theorem Passive.step {act : Act} (passive : Passive runId key act) (h : TapeHist) :
    DispatchStep runId key tid h act where
  sound := passive.claimless.sound
  settles := passive.settles
  retries retry := by simp [passive.retries] at retry
  leased calls := by simp [passive.calls] at calls
  once calls := by simp [passive.calls] at calls

theorem passive_of_neutral (act : Act) (neutral : isNeutral act) : Passive runId key act := by
  have other : ∀ s, act ≠ .effect s := by
    rintro s rfl
    cases neutral
  rcases act with (s | s | s | s | s | s | s) | c | x
  case outside =>
    refine ⟨claimless_of_ne_effect other, rfl, rfl, ?_⟩
    cases x <;> first | rfl | cases neutral
  all_goals
    first
    | exact absurd rfl (other s)
    | exact ⟨claimless_of_ne_effect other, rfl, rfl, rfl⟩

theorem passive_getEffect (r k : String) : Passive runId key (.effect (.getEffect r k)) :=
  ⟨claimless_of_ne_claim (by simp), rfl, rfl, rfl⟩

theorem passive_setOutcome {r k : String} {status : Int} {responseJson errorJson : String} {ts : Int}
    (settles : status = EffectStatus.confirmed.code ∨ status = EffectStatus.failed.code) :
    Passive runId key (.effect (.setOutcome r k status responseJson errorJson ts)) := by
  refine ⟨claimless_of_ne_claim (by simp), ?_, rfl, rfl⟩
  rcases settles with rfl | rfl <;> simp [reopens, EffectStatus.code]

theorem passive_recordObservation (r k : String) (status : Int) (responseJson errorJson externalRef : String)
    (nextDispatch ts : Int) :
    Passive runId key
      (.effect (.recordObservation r k status responseJson errorJson externalRef nextDispatch ts)) :=
  ⟨claimless_of_ne_claim (by simp), rfl, rfl, rfl⟩

theorem safe_of_passive {α : Type} {program : Prog Act Act.Res α} (all : program.All (Passive runId key))
    (h : TapeHist) :
    tape.Safe (dispatchContract runId key tid call) tid (fun _ _ => True) program h :=
  System.Safe.of_all (K := dispatchContract runId key tid call)
    (fun h act res state passive _ answers => ⟨act, res, state, rfl, answers, passive.step h⟩)
    (fun _ _ => trivial) all h

theorem passive_of_housekeeping (act : Act) (housekeeping : Housekeeping act) : Passive runId key act :=
  passive_of_neutral act (isNeutral_of_housekeeping housekeeping)

theorem passive_reconcileEffect {r k : String} {status : Int} {responseJson errorJson : String} {ts : Int}
    (settles : status = EffectStatus.confirmed.code ∨ status = EffectStatus.failed.code) :
    Prog.All (Passive runId key) (RunStore.reconcileEffect r k status responseJson errorJson ts).run :=
  all_reconcileEffect passive_of_housekeeping (passive_getEffect r k) (passive_setOutcome settles)

theorem passive_recordExternalObservation (r k : String) (resolution : Int)
    (externalRef responseJson errorJson kind : String) (ts registerTs : Int) :
    Prog.All (Passive runId key) (RunStore.recordExternalObservation r k resolution externalRef responseJson
      errorJson kind ts registerTs).run :=
  all_recordExternalObservation passive_of_housekeeping (passive_getEffect r k)
    (fun _ _ => passive_recordObservation ..) (passive_of_neutral _ rfl) fun _ => passive_of_neutral _ rfl

theorem passive_reconcileOnce (job : Sdk.ReconcileJob) :
    Prog.All (Passive runId key) (Sdk.reconcileOnce job).run := by
  refine reconcileOnce_of (all_composable (Passive runId key)) ?_ ?_ ?_ ?_
  · exact fun x neutral => all_external (passive_of_neutral _ neutral)
  · exact fun _ _ _ _ _ _ settles => passive_reconcileEffect settles
  · exact fun _ _ _ _ => all_query ⟨claimless_of_ne_claim (by simp), rfl, rfl, rfl⟩
  · intro e resolution externalRef responseJson errorJson kind ts registerTs
    refine .exceptBind (all_external ⟨claimless_of_ne_effect (by simp), rfl, rfl, rfl⟩) fun _ => ?_
    exact .exceptBind (all_rpcFound (passive_recordExternalObservation ..)) fun _ => trivial

theorem passive_fireDueTimersOnce (job : Sdk.TimerJob) :
    Prog.All (Passive runId key) (Sdk.fireDueTimersOnce job).run := by
  have neutral : ∀ act, Neutral act → Prog.All (Passive runId key) (Prog.perform act : Prog Act Act.Res _) :=
    fun act neutral => ⟨passive_of_neutral act neutral.1, fun _ => trivial⟩
  refine fireDueTimersOnce_of (all_composable (Passive runId key)) ?_ ?_ ?_ ?_ ?_ ?_
  · exact fun x neutral => all_external (passive_of_neutral _ neutral)
  · exact fun _ _ _ _ _ _ settles => passive_reconcileEffect settles
  · exact fun r k => all_query (passive_getEffect r k)
  · exact fun _ => neutral _ (.of_isNeutral rfl nofun)
  · exact fun _ _ _ _ _ _ _ => neutral_sendSignal (all_composable _) neutral
  · exact fun _ _ _ => neutral_listDueTimers (all_composable _) neutral

/-! ### Reporting the outcome -/

/-- An act by which a dispatcher reports what the call for `cur` came to. -/
structure Reports (runId key : String) (cur : EffectRecord) (outcome : DispatchOutcome) (act : Act) :
    Prop where
  claimless : Claimless act
  settles : reopens runId key act = false
  calls : isDispatch runId key act = false
  retries : isRetry runId key act → cur.pk = (runId, key) ∧
    (DispatchOutcome.isFailed outcome ∨ cur.semantics ≠ EffectSemantics.nonIdempotent.code)

theorem Passive.reports {cur : EffectRecord} {outcome : DispatchOutcome} {act : Act}
    (passive : Passive runId key act) : Reports runId key cur outcome act :=
  ⟨passive.claimless, passive.settles, passive.calls, fun retry => by simp [passive.retries] at retry⟩

theorem reports_recordAttempt {cur : EffectRecord} {outcome : DispatchOutcome} {status attempts : Int}
    {error : String} {nextAt ts : Int}
    (retries : status = EffectStatus.pending.code →
      DispatchOutcome.isFailed outcome ∨ cur.semantics ≠ EffectSemantics.nonIdempotent.code) :
    Reports runId key cur outcome
      (.effect (.recordAttempt cur.runId cur.idempotencyKey status attempts error nextAt ts)) := by
  refine ⟨claimless_of_ne_claim (by simp), rfl, rfl, fun retry => ?_⟩
  simp only [isRetry, Bool.and_eq_true, decide_eq_true_eq] at retry
  exact ⟨retry.1, retries retry.2⟩

/-- Whatever the connector came back with, a non-idempotent effect is left for a retry only after
    a definitive failure: an exception or a lost reply makes it `UNKNOWN`. -/
theorem reports_recordOutcome (job : Sdk.DispatchJob) (cur : EffectRecord) :
    Prog.All (Reports runId key cur job.outcome) (Sdk.recordOutcome job cur).run := by
  have neutral : ∀ act, isNeutral act → Reports runId key cur job.outcome act :=
    fun act neutral => (passive_of_neutral act neutral).reports
  have housekeeping : ∀ act, Housekeeping act → Reports runId key cur job.outcome act :=
    fun act housekeeping => (passive_of_housekeeping act housekeeping).reports
  have get : Reports runId key cur job.outcome (.effect (.getEffect cur.runId cur.idempotencyKey)) :=
    (passive_getEffect _ _).reports
  have retry : ∀ error retryAtMs,
      (DispatchOutcome.isFailed job.outcome ∨ cur.semantics ≠ EffectSemantics.nonIdempotent.code) →
      Prog.All (Reports runId key cur job.outcome) (Sdk.retry job cur error retryAtMs).run := by
    intro error retryAtMs may
    unfold Sdk.retry
    split
    · trivial
    · refine .exceptBind (all_rpcFound (all_recordDispatchAttempt housekeeping get fun _ _ => ?_)) ?_
      · exact reports_recordAttempt fun _ => may
      · exact fun _ => trivial
  unfold Sdk.recordOutcome
  split
  next error raised =>
    split
    · -- no retry: the effect becomes `UNKNOWN`
      refine .exceptBind (all_rpcFound (all_recordDispatchAttempt housekeeping get fun _ _ => ?_)) ?_
      · exact reports_recordAttempt fun pending => by cases pending
      · exact fun _ => trivial
    next idempotent => exact retry _ _ (.inr idempotent)
  next externalRef response confirmed =>
    refine .exceptBind (all_rpcFound (all_completeEffect housekeeping get ?_)) fun _ => ?_
    · exact (passive_setOutcome (.inl rfl)).reports
    · refine .exceptBind (all_external ?_) fun _ => .exceptBind ?_ fun _ => trivial
      · exact ⟨claimless_of_ne_effect (by simp), rfl, rfl, fun retry => by cases retry⟩
      · exact neutral_registerInverse (all_composable _)
          (fun act isNeutral => ⟨neutral act isNeutral.1, fun _ => trivial⟩) job cur
  next error unknown =>
    refine .exceptBind (all_rpcFound (all_recordDispatchAttempt housekeeping get fun _ _ => ?_)) ?_
    · exact reports_recordAttempt fun pending => by cases pending
    · exact fun _ => trivial
  next error retryAtMs failed =>
    simp only
    split
    · refine .exceptBind (all_rpcFound (all_recordExternalObservation housekeeping get ?_ ?_ ?_)) ?_
      · exact fun _ _ => (passive_recordObservation ..).reports
      · exact neutral _ rfl
      · exact fun _ => neutral _ rfl
      · exact fun _ => trivial
    · exact retry _ _ (.inl (by rw [failed]; rfl))

/-- What a dispatcher knows once the connector has answered. -/
def Called (runId key : String) (tid : Nat) (cur : EffectRecord) (outcome : DispatchOutcome) (h : TapeHist) :
    Prop :=
  cur.pk = (runId, key) → ⟨tid, .outside (.dispatch cur outcome), ()⟩ ∈ h.log ∧
    hasSemantics runId key cur.semantics h.state

theorem Reports.step {cur : EffectRecord} {outcome : DispatchOutcome} {act : Act} {h : TapeHist}
    (reports : Reports runId key cur outcome act) (called : Called runId key tid cur outcome h) :
    DispatchStep runId key tid h act where
  sound := reports.claimless.sound
  settles := reports.settles
  retries retry := by
    obtain ⟨same, failed | idempotent⟩ := reports.retries retry
    · exact .inl ⟨_, (called same).1, rfl, by simp [isFailedDispatch, same, failed]⟩
    · exact .inr ⟨_, (called same).2, idempotent⟩
  leased calls := by simp [reports.calls] at calls
  once calls := by simp [reports.calls] at calls

theorem safe_recordOutcome (job : Sdk.DispatchJob) (cur : EffectRecord) {h : TapeHist}
    (called : Called runId key tid cur job.outcome h) :
    tape.Safe (dispatchContract runId key tid call) tid (fun _ _ => True) (Sdk.recordOutcome job cur).run h := by
  refine System.Safe.of_all_knowing (K := dispatchContract runId key tid call)
    (p := Reports runId key cur job.outcome) (Called runId key tid cur job.outcome) ?_ ?_
    (fun _ _ _ => trivial) (reports_recordOutcome job cur) called
  · intro h h' rely called same
    exact ⟨rely.1.mem (called same).1, rely.2 _ (called same).2⟩
  · intro h act res state reports _ called answers
    refine ⟨⟨act, res, state, rfl, answers, reports.step called⟩, fun same => ?_⟩
    exact ⟨List.mem_cons_of_mem _ (called same).1, hasSemantics_of_answers answers (called same).2⟩

/-! ### Claiming and calling -/

/-- What a dispatcher knows between its claim and its call. -/
def Leased (runId key : String) (tid : Nat) (cur : EffectRecord) (h : TapeHist) : Prop :=
  cur.pk = (runId, key) →
    (∃ event ∈ h.log, event.tid = tid ∧
      ∃ now, acquired runId key event = some (now, now + Sdk.dispatchLeaseMs)) ∧
    (∀ event ∈ h.log, event.tid = tid → isDispatch runId key event.op = false) ∧
    hasSemantics runId key cur.semantics h.state

theorem Leased.stable {cur : EffectRecord} {h h' : TapeHist} (leased : Leased runId key tid cur h)
    (rely : (dispatchContract runId key tid call).rely h h') : Leased runId key tid cur h' := by
  intro same
  obtain ⟨⟨event, member, own, granted⟩, uncalled, has⟩ := leased same
  refine ⟨⟨event, rely.1.mem member, own, granted⟩, fun event member own => ?_, rely.2 _ has⟩
  exact uncalled event (rely.1.own member own) own

/-- A claim that was won leaves the dispatcher with the row and the lease. -/
theorem safe_claimForDispatch {r k claimer : String} {now : Int} {h : TapeHist}
    (named : NamedClaim claimer now Sdk.dispatchLeaseMs) (fresh : lastOwn tid h.log = none) :
    tape.Safe (dispatchContract runId key tid call) tid
      (fun result h => ∀ cur, result = .ok (true, some cur) → Leased runId key tid cur h)
      (RunStore.claimEffectDispatch r k claimer Sdk.dispatchLeaseMs now now).run h := by
  have atNow : RunStore.claimTime now now = now := by simp [RunStore.claimTime]
  have forLease : RunStore.claimTtl Sdk.dispatchLeaseMs = Sdk.dispatchLeaseMs := rfl
  have expiry := addI64_eq named.2.1 named.2.2
  have sound : SoundClaim (claimAct r k claimer Sdk.dispatchLeaseMs now now) :=
    soundClaim_of_named (by rw [atNow, forLease]; exact named)
  have untouched : ∀ event ∈ h.log, event.tid ≠ tid := by
    intro event member
    simpa using List.find?_eq_none.mp fresh event member
  -- the `UPDATE` that takes the lease
  refine safe_query (fun _ _ _ failed => by cases failed) fun h₁ res state rely _ answers => ?_
  refine ⟨⟨_, _, _, rfl, answers, ⟨sound, rfl, ?_, ?_, ?_⟩⟩, fun (updated : Nat) isOk => ?_⟩
  · exact fun retry => by cases retry
  · exact fun calls => by cases calls
  · exact fun calls => by cases calls
  subst isOk
  -- the read of the row that was leased
  refine safe_query (fun _ _ _ failed => by cases failed) fun h₂ res' state' rely₂ _ answers₂ => ?_
  refine ⟨⟨_, _, _, rfl, answers₂, (passive_getEffect r k).step h₂⟩, fun row isOk => ?_⟩
  subst isOk
  intro h₃ rely₃ cur returned same
  obtain ⟨won, rfl⟩ : 0 < updated ∧ row = some cur := by
    obtain ⟨changed, isRow⟩ := Prod.mk.inj (Except.ok.inj returned)
    exact ⟨of_decide_eq_true changed, isRow⟩
  have found := find?_of_getEffect answers₂
  obtain ⟨rfl, rfl⟩ : r = runId ∧ k = key := by
    rw [Sql.Table.key_of_find? found] at same
    simpa using same
  refine ⟨⟨_, rely₃.1.mem (List.mem_cons_of_mem _ (rely₂.1.mem List.mem_cons_self)), rfl, now, ?_⟩, ?_, ?_⟩
  · simp [acquired, acquired.grantOf, won, atNow, forLease, expiry]
  · -- the thread's own events are the claim and the read
    intro event member own
    rcases List.mem_cons.mp (rely₃.1.own member own) with rfl | member
    · rfl
    · rcases List.mem_cons.mp (rely₂.1.own member own) with rfl | member
      · rfl
      · exact absurd own (untouched event (rely.1.own member own))
  · exact rely₃.2 _ (hasSemantics_of_answers answers₂ ⟨cur, found, rfl⟩)

theorem safe_dispatchOne {job : Sdk.DispatchJob} {h : TapeHist}
    (named : NamedClaim job.claimer job.claimAt Sdk.dispatchLeaseMs) (fresh : lastOwn tid h.log = none) :
    tape.Safe (dispatchContract runId key tid call) tid (fun _ _ => True) (Sdk.dispatchOne job).run h := by
  unfold Sdk.dispatchOne
  split
  · exact fun _ _ => trivial
  refine System.Safe.exceptBind (fun _ _ => trivial) (safe_rpc (System.Safe.mono ?_
    (safe_claimForDispatch named fresh)))
  intro result h leased h' rely
  match result with
  | .error _ => exact fun _ failed => by cases failed
  | .ok (false, _) =>
    rintro _ ⟨⟩
    exact fun _ _ => trivial
  | .ok (true, none) =>
    rintro _ ⟨⟩
    exact fun _ _ => trivial
  | .ok (true, some cur) =>
    rintro _ ⟨⟩
    -- the lease is this thread's, and it has not called the connector yet
    have leased' := (leased cur rfl).stable rely
    simp only [Bool.not_true, Bool.false_eq_true, if_false]
    split
    · exact fun _ _ => trivial
    refine safe_external (fun _ _ => trivial) fun h₁ rely₁ _ => ?_
    have atCall := leased'.stable rely₁
    refine ⟨⟨_, _, _, rfl, .exec, ⟨trivial, rfl, ?_, ?_, ?_⟩⟩, safe_recordOutcome job cur fun same => ?_⟩
    · exact fun retry => by cases retry
    · exact fun calls => (atCall (of_decide_eq_true calls)).1
    · exact fun calls => (atCall (of_decide_eq_true calls)).2.1
    · exact ⟨List.mem_cons_self, (atCall same).2.2⟩

end Safety

/-- Outbox dispatchers under a name, the reactors that reconcile effects, and observations. -/
def OutboxCall : Call → Prop
  | .dispatchOne job => NamedClaim job.claimer job.claimAt Sdk.dispatchLeaseMs
  | .reconcileOnce _ | .fireDueTimersOnce _ | .recordExternalObservation .. => True
  | _ => False

instance (call : Call) : Decidable (OutboxCall call) := by
  unfold OutboxCall
  split <;> infer_instance

theorem dispatch_compose (runId key : String) :
    System.Compose tape OutboxCall (dispatchContract runId key) (fun _ _ _ _ => True) where
  compatible {tid call other call' h h'} ne guar := by
    obtain ⟨act, res, state, rfl, answers, -⟩ := guar
    exact ⟨Foreign.push h act res state ne, fun _ has => hasSemantics_of_answers answers has⟩
  fresh {tid call h} admitted fresh := by
    cases call with
    | dispatchOne job => exact safe_dispatchOne admitted fresh
    | reconcileOnce job => exact safe_of_passive (passive_reconcileOnce job) h
    | fireDueTimersOnce job => exact safe_of_passive (passive_fireDueTimersOnce job) h
    | recordExternalObservation => exact safe_of_passive (passive_recordExternalObservation ..) h
    | _ => cases admitted

/-! ## Two calls for one effect -/

/-- A call of the connector follows a claim of the same thread, and is its only one. -/
def CalledOnce (runId key : String) (event : TapeEvent) (older : List TapeEvent) : Prop :=
  isDispatch runId key event.op →
    (∃ claim ∈ older, claim.tid = event.tid ∧
      ∃ now, acquired runId key claim = some (now, now + Sdk.dispatchLeaseMs)) ∧
    ∀ earlier ∈ older, earlier.tid = event.tid → isDispatch runId key earlier.op = false

/-- A retry follows a call of the same thread that definitively failed. -/
def RetriesFailure (runId key : String) (event : TapeEvent) (older : List TapeEvent) : Prop :=
  isRetry runId key event.op →
    ∃ earlier ∈ older, earlier.tid = event.tid ∧ isFailedDispatch runId key earlier.op

structure DispatchLog (runId key : String) (h : TapeHist) : Prop where
  recorded : (outboxLease runId key).Recorded h
  exclusive : (outboxLease runId key).Exclusive h.log
  called : Logged (CalledOnce runId key) h.log
  retried : Logged (RetriesFailure runId key) h.log ∨
    ∃ semantics, hasSemantics runId key semantics h.state ∧ semantics ≠ EffectSemantics.nonIdempotent.code

theorem DispatchLog.push {runId key : String} {tid : Nat} {h : TapeHist} {act : Act} {res : act.Res}
    {state : World} (inv : DispatchLog runId key h) (answers : tape.Answers act h.state res state)
    (step : DispatchStep runId key tid h act) : DispatchLog runId key (h.push tid act res state) := by
  have guards : (outboxLease runId key).Guards h.state ⟨tid, act, res⟩ state :=
    outboxLease_guards step.sound step.settles answers
  refine ⟨inv.recorded.push guards, inv.exclusive.push inv.recorded guards, ⟨?_, inv.called⟩, ?_⟩
  · exact fun calls => ⟨step.leased calls, step.once calls⟩
  · rcases inv.retried with logged | ⟨semantics, has, idempotent⟩
    · by_cases retry : isRetry runId key act
      · rcases step.retries retry with failed | ⟨semantics, has, idempotent⟩
        · exact .inl ⟨fun _ => failed, logged⟩
        · exact .inr ⟨semantics, hasSemantics_of_answers answers has, idempotent⟩
      · exact .inl ⟨fun isRetry => absurd isRetry retry, logged⟩
    · exact .inr ⟨semantics, hasSemantics_of_answers answers has, idempotent⟩

/-- A definitive failure, reported by the thread whose call it was, or an observation. -/
def Resolved (runId key : String) (event : TapeEvent) (older : List TapeEvent) : Prop :=
  observationRecorded runId key event ∨
    retryRecorded runId key event ∧
      ∃ earlier ∈ older, earlier.tid = event.tid ∧ isFailedDispatch runId key earlier.op

/-- Threads `tid₁` and `tid₂` both won a lease on the effect, in this order; the second one not
    before the first lease ran out, unless something was resolved in between. -/
def TakesTurns (runId key : String) (log : List TapeEvent) (tid₁ tid₂ : Nat) : Prop :=
  ∃ newer second between first older, log = newer ++ second :: (between ++ first :: older) ∧
    first.tid = tid₁ ∧ second.tid = tid₂ ∧
    ∃ now₁ now₂, acquired runId key first = some (now₁, now₁ + Sdk.dispatchLeaseMs) ∧
      acquired runId key second = some (now₂, now₂ + Sdk.dispatchLeaseMs) ∧
      (now₁ + Sdk.dispatchLeaseMs ≤ now₂ ∨
        ∃ after event before, between = after ++ event :: before ∧
          Resolved runId key event (before ++ first :: older))

theorem takesTurns_of_split {runId key : String} {log newer between older : List TapeEvent}
    {first second : TapeEvent} {now₁ now₂ : Int}
    (exclusive : (outboxLease runId key).Exclusive log) (retried : Logged (RetriesFailure runId key) log)
    (split : log = newer ++ second :: (between ++ first :: older))
    (won₁ : acquired runId key first = some (now₁, now₁ + Sdk.dispatchLeaseMs))
    (won₂ : acquired runId key second = some (now₂, now₂ + Sdk.dispatchLeaseMs)) :
    TakesTurns runId key log first.tid second.tid := by
  refine ⟨newer, second, between, first, older, split, rfl, rfl, now₁, now₂, won₁, won₂, ?_⟩
  obtain expired | ⟨event, member, isRelease⟩ := exclusive.expired_or_released split won₁ won₂
  · exact .inl expired
  · obtain ⟨after, before, rfl⟩ := List.append_of_mem member
    refine .inr ⟨after, event, before, rfl, ?_⟩
    rcases Bool.or_eq_true _ _ |>.mp isRelease with retry | observed
    · have isRetry := (Bool.and_eq_true _ _ |>.mp retry).2
      have at_event : log = (newer ++ second :: after) ++ event :: (before ++ first :: older) := by
        rw [split]
        simp
      have failed := retried.of_split _ at_event isRetry
      exact .inr ⟨retry, failed⟩
    · exact .inl observed

/-- **Two calls of the connector.**  In every interleaving of named dispatchers, reactors and
    observations, two `connector.dispatch` calls for a `NON_IDEMPOTENT` effect are made by two
    dispatchers under two leases, and the later lease was won after the earlier one had run out,
    unless a definitive failure or an observation was recorded between the two claims. -/
theorem dispatch_calls_take_turns (runId key : String) (w : World) (choices : List (Choice Call))
    (admitted : tape.Along (System.Permits OutboxCall fun _ _ _ _ => True) (quiet w) choices)
    (row : EffectRecord) (found : (tape.run (quiet w) choices).state.effects.find? (runId, key) = some row)
    (nonIdempotent : row.semantics = EffectSemantics.nonIdempotent.code)
    {newer between older : List TapeEvent} {first second : TapeEvent}
    (split : (tape.run (quiet w) choices).log = newer ++ second :: (between ++ first :: older))
    (call₁ : isDispatch runId key first.op) (call₂ : isDispatch runId key second.op) :
    first.tid ≠ second.tid ∧
      (TakesTurns runId key (tape.run (quiet w) choices).log first.tid second.tid ∨
        TakesTurns runId key (tape.run (quiet w) choices).log second.tid first.tid) := by
  have owned := quiet_owned w
  have inv : DispatchLog runId key (tape.run (quiet w) choices).toHist := by
    refine System.run_hist (dispatch_compose runId key) ?_ owned (System.poolSafe_of_empty rfl) ?_ admitted
    · rintro tid call h h' ⟨act, res, state, rfl, answers, step⟩ holds
      exact holds.push answers step
    · exact ⟨by simp [Lease.Recorded], by simp [Lease.Exclusive], trivial, .inl trivial⟩
  -- the semantics of an effect never change, so the second disjunct is out
  have retried : Logged (RetriesFailure runId key) (tape.run (quiet w) choices).log := by
    refine inv.retried.resolve_right ?_
    rintro ⟨semantics, has, idempotent⟩
    exact idempotent (hasSemantics_unique has ⟨row, found, nonIdempotent⟩)
  -- each call has its own claim, in the log before it
  obtain ⟨⟨claim₂, member₂, own₂, now₂, won₂⟩, once⟩ := inv.called.of_split newer split call₂
  have at_first : (tape.run (quiet w) choices).log = (newer ++ second :: between) ++ first :: older := by
    rw [split]
    simp
  obtain ⟨⟨claim₁, member₁, own₁, now₁, won₁⟩, -⟩ := inv.called.of_split _ at_first call₁
  have differ : first.tid ≠ second.tid := by
    intro same
    have uncalled := once first (by simp) same
    simp [uncalled] at call₁
  refine ⟨differ, ?_⟩
  have distinct : claim₁ ≠ claim₂ := by
    rintro rfl
    exact differ (own₁.symm.trans own₂)
  have inLog₁ : claim₁ ∈ (tape.run (quiet w) choices).log := by
    rw [split]
    simp [member₁]
  have inLog₂ : claim₂ ∈ (tape.run (quiet w) choices).log := by
    rw [split]
    exact List.mem_append_right _ (List.mem_cons_of_mem _ member₂)
  rw [← own₁, ← own₂]
  rcases ordered_of_mem inLog₁ inLog₂ distinct with ⟨_, _, _, claims⟩ | ⟨_, _, _, claims⟩
  · exact .inl (takesTurns_of_split inv.exclusive retried claims won₁ won₂)
  · exact .inr (takesTurns_of_split inv.exclusive retried claims won₂ won₁)

/-! ## A dispatcher that crashes after its call -/

/-- A dispatcher's job on the wire of `wireWorld`. -/
def wireJob (claimer : String) (claimAt : Int) (outcome : DispatchOutcome) : Sdk.DispatchJob where
  runId := "r"
  idempotencyKey := "k"
  claimer := claimer
  outcome := outcome
  claimAt := claimAt
  recordAt := claimAt + 1000

/-- `D1` claims the wire, calls the bank and is never heard of again; a minute later `D2` calls the
    bank too. -/
def crashAfterCall : List (Choice Call) :=
  serve 0 (.dispatchOne (wireJob "D1" 1000 (.confirmed "ref 1" []))) 3 ++
    serve 1 (.dispatchOne (wireJob "D2" 61000 (.confirmed "ref 2" []))) 3

def crashLog : List TapeEvent := (tape.run (quiet wireWorld) crashAfterCall).log

/-- The bank was called twice for the non-idempotent wire, with nothing recorded. -/
theorem wire_dispatched_twice :
    tape.Along (System.Permits OutboxCall fun _ _ _ _ => True) (quiet wireWorld) crashAfterCall ∧
      (tape.run (quiet wireWorld) crashAfterCall).state.effects.rows.map EffectRecord.semantics =
        [EffectSemantics.nonIdempotent.code] ∧
      (crashLog.countP fun event => isDispatch "r" "k" event.op) = 2 ∧
      (crashLog.all fun event => (outcomeTarget event.op).isNone) = true := by
  refine ⟨?_, ?_, ?_, ?_⟩ <;> decide +kernel

/-- They took turns, though: `D2` waited for the lease of `D1` to run out. -/
theorem crashed_wire_takes_turns : ∃ first second : TapeEvent, first ∈ crashLog ∧ second ∈ crashLog ∧
    isDispatch "r" "k" first.op ∧ isDispatch "r" "k" second.op ∧ first.tid ≠ second.tid ∧
    (TakesTurns "r" "k" crashLog first.tid second.tid ∨ TakesTurns "r" "k" crashLog second.tid first.tid) := by
  have twice : 2 ≤ crashLog.countP fun event => isDispatch "r" "k" event.op := by decide +kernel
  obtain ⟨newer, second, between, first, older, split, call₂, call₁⟩ := split_of_two_le_countP twice
  have wire : ((tape.run (quiet wireWorld) crashAfterCall).state.effects.find? ("r", "k")).any
      (fun row => row.semantics = EffectSemantics.nonIdempotent.code) = true := by decide +kernel
  obtain ⟨row, found, nonIdempotent⟩ := (Option.any_eq_true _ _).mp wire
  obtain ⟨differ, turns⟩ := dispatch_calls_take_turns "r" "k" wireWorld crashAfterCall (by decide +kernel)
    row found (of_decide_eq_true nonIdempotent) split call₁ call₂
  exact ⟨first, second, by simp [split], by simp [split], call₁, call₂, differ, turns⟩

end Tape.Effect
