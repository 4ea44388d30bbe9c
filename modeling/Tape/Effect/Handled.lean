import Tape.Effect.Dispatch
import Tape.Interleave.Spawned
import Tape.Sdk.Pubsub

/-! # Handling a published effect

A dispatcher publishes an effect while it holds the effect's dispatch lease, and confirms the effect as
soon as the message has landed.  A subscriber that receives the message asks for the same lease before it
runs its handler.  So the handler runs only for an effect whose dispatcher has let its lease run out and
has recorded nothing, or one that was handed out again by a retry or an observation; where dispatchers
report in time, every message is acknowledged and no handler ever runs.
-/

namespace Tape.Effect

open Interleave

/-! ## What the log says about outcomes -/

/-- The event left the effect's row with a status other than `PENDING`. -/
def outcomeRecorded (runId key : String) : TapeEvent → Bool
  | ⟨_, .sql (.effect (.setOutcome r k status ..)), .ok updated⟩ => written updated (r, k) status
  | ⟨_, .sql (.effect (.recordAttempt r k status ..)), .ok updated⟩ => written updated (r, k) status
  | _ => false
where
  written (updated : Nat) (pk : String × String) (status : Int) : Bool :=
    pk = (runId, key) && status ≠ EffectStatus.pending.code && 0 < updated

/-- A statement that sets the status of a row to something else than `PENDING` withholds the row from every claim. -/
theorem held_of_written {runId key r k : String} {status : Int} {s : EffectStmt} {w : World}
    (selects : ∀ row, s.selects row = decide (row.pk = (r, k))) (assigns : ∀ row, (s.assign row).status = status)
    (recorded : outcomeRecorded.written runId key (w.effects.count s.selects) (r, k) status) (until_ : Int) :
    (outboxLease runId key).held { w with effects := (s.exec w).2 } until_ := by
  simp only [outcomeRecorded.written, Bool.and_eq_true, decide_eq_true_eq] at recorded
  obtain ⟨⟨same, isSettled⟩, changed⟩ := recorded
  obtain ⟨row, found, selected⟩ := (Sql.Table.count_pos_iff _ _).mp changed
  have isRow : row.pk = (r, k) := by simpa [selects] using selected
  have found' := EffectStmt.find?_exec_of_some (s := s) found
  rw [EffectStmt.apply, if_pos selected, isRow, same] at found'
  refine ⟨_, found', fun pending => absurd ?_ isSettled⟩
  rw [← assigns row]
  exact pending

/-- An effect that is not `PENDING` is withheld from every claim. -/
theorem held_of_outcomeRecorded {runId key : String} {tid : Nat} {act : Act} {w w' : World} {res : act.Res}
    (answers : tape.Answers act w res w') (recorded : outcomeRecorded runId key ⟨tid, act, res⟩) (until_ : Int) :
    (outboxLease runId key).held w' until_ := by
  unfold outcomeRecorded at recorded
  split at recorded
  next _ r k status responseJson errorJson ts updated isOutcome =>
    cases isOutcome
    obtain ⟨counted, rfl⟩ := exec_of_ok answers
    exact held_of_written (s := .setOutcome r k status responseJson errorJson ts) (fun _ => rfl) (fun _ => rfl)
      (Except.ok.inj counted ▸ recorded) until_
  next _ r k status attempts error nextAt ts updated isAttempt =>
    cases isAttempt
    obtain ⟨counted, rfl⟩ := exec_of_ok answers
    exact held_of_written (s := .recordAttempt r k status attempts error nextAt ts) (fun _ => rfl) (fun _ => rfl)
      (Except.ok.inj counted ▸ recorded) until_
  next => cases recorded

/-! ## What a worker does -/

/-- The thread has won the lease of the effect. -/
def HasClaimed (runId key : String) (tid : Nat) (log : List TapeEvent) : Prop :=
  ∃ event ∈ log, event.tid = tid ∧ (acquired runId key event).isSome

/-- The delivery, if it is one, is of a message that names the effect. -/
def IsAbout (runId key : String) (served : Call ⊕ Sdk.Delivery) : Prop :=
  ∀ d, served = .inr d → d.message.runId = runId ∧ d.message.effectKey = key

/-- `act`, executed by thread `tid` after `h`, is one that a dispatcher, a subscriber or a reactor executes. -/
structure WorkerStep (runId key : String) (tid : Nat) (served : Call ⊕ Sdk.Delivery) (h : TapeHist) (act : Act) :
    Prop where
  sound : SoundClaim act
  settles : reopens runId key act = false
  /-- What is done for the effect outside is done under a lease that the thread has won. -/
  leased : isDispatch runId key act → HasClaimed runId key tid h.log
  about : isDispatch runId key act → IsAbout runId key served

/-- What happened from `h` to `h'` was done by other threads, and the effect kept its semantics. -/
def KeepsSemantics (runId key : String) (tid : Nat) (h h' : TapeHist) : Prop :=
  Foreign tid h h' ∧
    ∀ semantics, hasSemantics runId key semantics h.state → hasSemantics runId key semantics h'.state

theorem KeepsSemantics.refl (runId key : String) (tid : Nat) (h : TapeHist) : KeepsSemantics runId key tid h h :=
  ⟨Foreign.refl tid h, fun _ has => has⟩

theorem KeepsSemantics.trans {runId key : String} {tid : Nat} {h₁ h₂ h₃ : TapeHist}
    (first : KeepsSemantics runId key tid h₁ h₂) (second : KeepsSemantics runId key tid h₂ h₃) :
    KeepsSemantics runId key tid h₁ h₃ :=
  ⟨first.1.trans second.1, fun _ has => second.2 _ (first.2 _ has)⟩

def workerContract (runId key : String) (tid : Nat) (served : Call ⊕ Sdk.Delivery) : Contract World Act Act.Res where
  rely := KeepsSemantics runId key tid
  allowed _ _ := True
  guar h h' := ∃ act res state, h' = h.push tid act res state ∧ tape.Answers act h.state res state ∧
    WorkerStep runId key tid served h act
  rely_refl := KeepsSemantics.refl runId key tid
  rely_trans := KeepsSemantics.trans

section Safety

variable {runId key : String} {tid : Nat}

theorem DispatchStep.worker {h : TapeHist} {act : Act} (step : DispatchStep runId key tid h act) (call : Call) :
    WorkerStep runId key tid (.inl call) h act where
  sound := step.sound
  settles := step.settles
  leased calls := by
    obtain ⟨event, member, own, now, won⟩ := step.leased calls
    exact ⟨event, member, own, by simp [won]⟩
  about _ _ isDelivery := by cases isDelivery

theorem refines_dispatchContract (call : Call) :
    System.Refines (dispatchContract runId key tid call) (workerContract runId key tid (.inl call)) where
  rely since := since
  allowed _ := trivial
  guar guar := by
    obtain ⟨act, res, state, pushed, answers, step⟩ := guar
    exact ⟨act, res, state, pushed, answers, step.worker call⟩

/-- An act that neither claims nor calls anything and does not make the effect `PENDING` by an outcome. -/
structure Clerical (runId key : String) (act : Act) : Prop where
  claimless : Claimless act
  settles : reopens runId key act = false
  calls : isDispatch runId key act = false

theorem Passive.clerical {act : Act} (passive : Passive runId key act) : Clerical runId key act :=
  ⟨passive.claimless, passive.settles, passive.calls⟩

variable {served : Call ⊕ Sdk.Delivery}

theorem Clerical.step {act : Act} (clerical : Clerical runId key act) (h : TapeHist) :
    WorkerStep runId key tid served h act where
  sound := clerical.claimless.sound
  settles := clerical.settles
  leased calls := by simp [clerical.calls] at calls
  about calls := by simp [clerical.calls] at calls

theorem safe_of_clerical {α : Type} {program : Prog Act Act.Res α} (all : program.All (Clerical runId key))
    (h : TapeHist) : tape.Safe (workerContract runId key tid served) tid (fun _ _ => True) program h :=
  System.Safe.of_all (K := workerContract runId key tid served)
    (fun h act res state clerical _ answers => ⟨act, res, state, rfl, answers, clerical.step h⟩)
    (fun _ _ => trivial) all h

theorem clerical_recordAttempt (d : Sdk.Delivery) (error : String) (nextAt : Int) :
    Prog.All (Clerical runId key) (d.recordAttempt error nextAt).run := by
  refine .exceptBind (all_rpcFound (all_recordDispatchAttempt ?_ ?_ fun _ _ => ?_)) fun _ => trivial
  · exact fun act housekeeping => (passive_of_housekeeping act housekeeping).clerical
  · exact (passive_getEffect _ _).clerical
  · exact ⟨claimless_of_ne_claim (by simp), rfl, rfl⟩

theorem clerical_report (d : Sdk.Delivery) : Prog.All (Clerical runId key) d.report.run := by
  unfold Sdk.Delivery.report
  split
  next externalRef response confirmed =>
    refine .exceptBind (all_rpcFound (all_completeEffect ?_ ?_ ?_)) fun _ => trivial
    · exact fun act housekeeping => (passive_of_housekeeping act housekeeping).clerical
    · exact (passive_getEffect _ _).clerical
    · exact (passive_setOutcome (.inl rfl)).clerical
  next => exact clerical_recordAttempt ..
  next => exact clerical_recordAttempt ..
  next => exact clerical_recordAttempt ..

theorem safe_handle (d : Sdk.Delivery) {h : TapeHist}
    (claimed : (d.message.runId, d.message.effectKey) = (runId, key) → HasClaimed runId key tid h.log) :
    tape.Safe (workerContract runId key tid (.inr d)) tid (fun _ _ => True) d.handle.run h := by
  unfold Sdk.Delivery.handle
  split
  next error malformed =>
    have swallowed := (all_composable (Clerical runId key)).swallow
      (clerical_recordAttempt d ("malformed body: " ++ error) 0)
    refine safe_of_clerical (Prog.All.exceptBind swallowed fun _ => ?_) h
    trivial
  next =>
    refine safe_external (fun _ _ => trivial) fun h₁ rely _ =>
      ⟨⟨_, _, _, rfl, .exec, trivial, rfl, ?_, ?_⟩, ?_⟩
    · intro calls
      obtain ⟨event, member, own, won⟩ := claimed (of_decide_eq_true calls)
      exact ⟨event, rely.1.mem member, own, won⟩
    · intro calls delivery same
      cases same
      exact Prod.mk.inj (of_decide_eq_true calls)
    · refine safe_of_clerical ?_ _
      split
      · exact .exceptBind ((all_composable _).swallow (clerical_report d)) fun _ => trivial
      · refine .exceptBind (.bind (clerical_report d) fun _ => trivial) fun result => ?_
        cases result with
        | ok value => trivial
        | error e => trivial

/-- A claim that was won is in the log. -/
theorem safe_claimForHandler {r k claimer : String} {ttl now : Int} {h : TapeHist}
    (named : NamedClaim claimer now (RunStore.claimTtl ttl)) :
    tape.Safe (workerContract runId key tid served) tid
      (fun result h => ∀ row, result = .ok (true, row) → (r, k) = (runId, key) → HasClaimed runId key tid h.log)
      (RunStore.claimEffectDispatch r k claimer ttl now now).run h := by
  have atNow : RunStore.claimTime now now = now := by simp [RunStore.claimTime]
  have sound : SoundClaim (claimAct r k claimer ttl now now) := soundClaim_of_named (by rw [atNow]; exact named)
  refine safe_query (fun _ _ _ failed => by cases failed) fun h₁ res state rely _ answers => ?_
  refine ⟨⟨_, _, _, rfl, answers, sound, rfl, ?_, ?_⟩, fun (updated : Nat) isOk => ?_⟩
  · exact fun calls => by cases calls
  · exact fun calls => by cases calls
  subst isOk
  refine safe_query (fun _ _ _ failed => by cases failed) fun h₂ res' state' rely₂ _ answers₂ => ?_
  refine ⟨⟨_, _, _, rfl, answers₂, (passive_getEffect r k).clerical.step h₂⟩, fun row isOk => ?_⟩
  subst isOk
  intro h₃ rely₃ row' returned same
  have changed : 0 < updated := of_decide_eq_true (Prod.mk.inj (Except.ok.inj returned)).1
  refine ⟨_, rely₃.1.mem (List.mem_cons_of_mem _ (rely₂.1.mem List.mem_cons_self)), rfl, ?_⟩
  simp [acquired, acquired.grantOf, changed, same]

/-- `try: … except Exception as ex: …`: the program goes on with what came of it. -/
theorem safe_tried {α β : Type} {K : Contract World Act Act.Res} {action : Sdk.SdkM α}
    {f : Except Sdk.Status α → Sdk.SdkM β} {post : Except Sdk.Status β → TapeHist → Prop} {h : TapeHist}
    (safe : tape.Safe K tid (fun result h => tape.Safe K tid post (f result).run h) action.run h) :
    tape.Safe K tid post (Sdk.tried action >>= f).run h := by
  refine System.Safe.bind (System.Safe.bind (safe.mono ?_))
  exact fun result h next h' rely => next.stable rely

theorem safe_onMessage {d : Sdk.Delivery} {h : TapeHist}
    (named : NamedClaim d.subscriber.claimer d.claimAt (RunStore.claimTtl d.subscriber.leaseTtlMs)) :
    tape.Safe (workerContract runId key tid (.inr d)) tid (fun _ _ => True) (Sdk.onMessage d).run h := by
  unfold Sdk.onMessage
  split
  · exact fun _ _ => trivial
  split
  · exact fun _ _ => trivial
  · exact fun _ _ => trivial
  refine safe_tried (safe_rpc ((safe_claimForHandler named).mono fun result h claimed h' rely => ?_))
  match result with
  | .error _ => exact fun _ _ => trivial
  | .ok (false, _) => exact fun _ _ => trivial
  | .ok (true, row) =>
    refine safe_handle d fun same => ?_
    obtain ⟨event, member, own, won⟩ := claimed row rfl same
    exact ⟨event, rely.1.mem member, own, won⟩

end Safety

/-- Outbox workers and reactors as in `OutboxCall`, and deliveries to subscribers under a name. -/
def WorkerCall : Call ⊕ Sdk.Delivery → Prop
  | .inl call => OutboxCall call
  | .inr d => NamedClaim d.subscriber.claimer d.claimAt (RunStore.claimTtl d.subscriber.leaseTtlMs)

instance : DecidablePred WorkerCall
  | .inl call => inferInstanceAs (Decidable (OutboxCall call))
  | .inr _ => inferInstanceAs (Decidable (NamedClaim ..))

theorem worker_compose (runId key : String) :
    System.Compose pubsub WorkerCall (workerContract runId key) (fun _ _ _ _ => True) where
  compatible {tid call other call' h h'} ne guar := by
    obtain ⟨act, res, state, rfl, answers, -⟩ := guar
    exact ⟨Foreign.push h act res state ne, fun _ has => hasSemantics_of_answers answers has⟩
  fresh {tid served h} admitted fresh := by
    cases served with
    | inl call => exact ((dispatch_compose runId key).fresh admitted fresh).adding (refines_dispatchContract call)
    | inr d =>
      exact (safe_onMessage admitted).adding ⟨fun since => since, fun allowed => allowed, fun guar => guar⟩

/-! ## Deliveries follow publications -/

/-- The event calls a connector that publishes the message. -/
def publishes (connectors : List Sdk.PubSubConnector) (m : Sdk.Message) (event : TapeEvent) : Bool :=
  match event.op with
  | .outside (.dispatch effect _) => connectors.any fun connector => connector.message effect = m
  | _ => false

theorem isDispatch_of_publishes {connectors : List Sdk.PubSubConnector} {m : Sdk.Message} {event : TapeEvent}
    {runId key : String} (isPublished : publishes connectors m event) (isRun : m.runId = runId)
    (isKey : m.effectKey = key) : isDispatch runId key event.op := by
  unfold publishes at isPublished
  split at isPublished
  next effect outcome isCall =>
    simp only [List.any_eq_true, decide_eq_true_eq] at isPublished
    obtain ⟨connector, -, rfl⟩ := isPublished
    rw [Sdk.PubSubConnector.runId_message] at isRun
    rw [Sdk.PubSubConnector.effectKey_message] at isKey
    rw [isCall]
    simp [isDispatch, EffectRecord.pk, isRun, isKey]
  next => cases isPublished

/-- The thread is no delivery. -/
def isClient (served : Option (Call ⊕ Sdk.Delivery)) : Bool := served.any Sum.isLeft

/-- The broker delivers what a client of the server has published through one of the connectors, and that any
    number of times. -/
def Delivers (connectors : List Sdk.PubSubConnector) (c : PubsubConfig) : Choice (Call ⊕ Sdk.Delivery) → Prop
  | .spawn (.inr d) => c.log.any fun event => publishes connectors d.message event && isClient (c.callOf event.tid)
  | _ => True

instance (connectors : List Sdk.PubSubConnector) (c : PubsubConfig) :
    DecidablePred (Delivers connectors c)
  | .spawn (.inr _) => inferInstanceAs (Decidable (_ = true))
  | .spawn (.inl _) | .exec _ | .fault _ => isTrue trivial

/-- What thread `tid` delivers was published before the thread executed anything. -/
def PublishedFor (connectors : List Sdk.PubSubConnector) (c : PubsubConfig) (tid : Nat) (d : Sdk.Delivery) : Prop :=
  ∃ publication past, publication :: past <:+ c.log ∧ publishes connectors d.message publication ∧
    isClient (c.callOf publication.tid) ∧ ∀ event ∈ publication :: past, event.tid ≠ tid

theorem PublishedFor.step {connectors : List Sdk.PubSubConnector} {c : PubsubConfig} {tid : Nat} {d : Sdk.Delivery}
    (published : PublishedFor connectors c tid d) (choice : Choice (Call ⊕ Sdk.Delivery)) :
    PublishedFor connectors (pubsub.step c choice) tid d := by
  obtain ⟨publication, past, isPast, publishes, isClient, others⟩ := published
  refine ⟨publication, past, isPast.trans (System.log_step_suffix c choice), publishes, ?_, others⟩
  cases known : c.callOf publication.tid with
  | none =>
    rw [known] at isClient
    cases isClient
  | some served =>
    rw [known] at isClient
    rw [System.callOf_step known]
    exact isClient

theorem run_published {connectors : List Sdk.PubSubConnector} {w : World}
    {choices : List (Choice (Call ⊕ Sdk.Delivery))}
    (delivers : pubsub.Along (Delivers connectors) (quietPubsub w) choices) {tid : Nat} {d : Sdk.Delivery}
    (serves : (pubsub.run (quietPubsub w) choices).callOf tid = some (.inr d)) :
    PublishedFor connectors (pubsub.run (quietPubsub w) choices) tid d := by
  have kept := System.run_invariant (S := pubsub)
    (I := fun c => c.Owned ∧ ∀ tid d, c.callOf tid = some (.inr d) → PublishedFor connectors c tid d)
    (fun c choice holds meets => ?_) ⟨quietPubsub_owned w, ?_⟩ delivers
  · exact kept.2 tid d serves
  · refine ⟨holds.1.step, fun tid d serves => ?_⟩
    cases System.callOf_step_cases serves with
    | inl old => exact (holds.2 tid d old).step choice
    | inr newest =>
      obtain ⟨rfl, rfl⟩ := newest
      obtain ⟨publication, member, isPublished⟩ := List.any_eq_true.mp meets
      obtain ⟨newer, past, split⟩ := List.append_of_mem member
      rw [Bool.and_eq_true] at isPublished
      -- the thread is newer than whatever has executed anything
      have others : ∀ event ∈ publication :: past, event.tid ≠ c.pool.length := by
        intro event isPast
        refine Nat.ne_of_lt (holds.1 event ?_)
        rw [split]
        exact List.mem_append_right newer isPast
      exact PublishedFor.step ⟨publication, past, ⟨newer, split.symm⟩, isPublished.1, isPublished.2, others⟩ _
  · intro tid d serves
    cases serves

/-! ## The lease of the publication -/

/-- Whoever acts on the effect outside has claimed it, and a delivery acts on the effect of its message. -/
def ClaimedFor (runId key : String) (serving : Nat → Option (Call ⊕ Sdk.Delivery)) (event : TapeEvent)
    (older : List TapeEvent) : Prop :=
  isDispatch runId key event.op →
    HasClaimed runId key event.tid older ∧ ∀ served, serving event.tid = some served → IsAbout runId key served

structure WorkerLog (runId key : String) (serving : Nat → Option (Call ⊕ Sdk.Delivery)) (h : TapeHist) : Prop where
  recorded : (outboxLease runId key).Recorded h
  exclusive : (outboxLease runId key).Exclusive h.log
  closing : (outboxLease runId key).Closing (outcomeRecorded runId key) h
  closed : (outboxLease runId key).Closed (outcomeRecorded runId key) h.log
  claimed : Logged (ClaimedFor runId key serving) h.log

theorem WorkerLog.push {runId key : String} {serving : Nat → Option (Call ⊕ Sdk.Delivery)} {tid : Nat}
    {served : Call ⊕ Sdk.Delivery} {h : TapeHist} {act : Act} {res : act.Res} {state : World}
    (inv : WorkerLog runId key serving h) (serves : serving tid = some served)
    (answers : tape.Answers act h.state res state) (step : WorkerStep runId key tid served h act) :
    WorkerLog runId key serving (h.push tid act res state) := by
  have guards : (outboxLease runId key).Guards h.state ⟨tid, act, res⟩ state :=
    outboxLease_guards step.sound step.settles answers
  refine ⟨inv.recorded.push guards, inv.exclusive.push inv.recorded guards, ?_,
    inv.closed.push inv.closing guards, ?_⟩
  · exact inv.closing.push guards fun recorded until_ => held_of_outcomeRecorded answers recorded until_
  · refine ⟨fun calls => ⟨step.leased calls, fun other isOther => ?_⟩, inv.claimed⟩
    rw [serves, Option.some.injEq] at isOther
    exact isOther ▸ step.about calls

theorem run_workerLog {runId key : String} {w : World} {choices : List (Choice (Call ⊕ Sdk.Delivery))}
    (admitted : pubsub.Along (System.Permits WorkerCall fun _ _ _ _ => True) (quietPubsub w) choices) :
    WorkerLog runId key (pubsub.run (quietPubsub w) choices).callOf (pubsub.run (quietPubsub w) choices).toHist := by
  refine System.run_hist_serving (worker_compose runId key) ?_ (quietPubsub_owned w) (System.poolSafe_of_empty rfl) ?_
    admitted
  · rintro tid served h h' serves ⟨act, res, state, rfl, answers, step⟩ holds
    exact holds.push serves answers step
  · exact ⟨by simp [Lease.Recorded, quietPubsub], by simp [Lease.Exclusive, quietPubsub],
      by simp [Lease.Closing, quietPubsub], by simp [Lease.Closed, quietPubsub], trivial⟩

/-- `claim` took the effect over from the thread of `publication`: the lease of that thread had run out by then and
    nothing had been recorded since, or the effect was handed out again.  `after` is what was executed between the
    two, `past` what was executed before the publication. -/
def TookOver (runId key : String) (claim : TapeEvent) (after : List TapeEvent) (publication : TapeEvent)
    (past : List TapeEvent) : Prop :=
  ∃ before lease older, past = before ++ lease :: older ∧ lease.tid = publication.tid ∧
    ∃ published expiry now until_, acquired runId key lease = some (published, expiry) ∧
      acquired runId key claim = some (now, until_) ∧
      ((expiry ≤ now ∧ ∀ event ∈ after ++ publication :: before, outcomeRecorded runId key event = false) ∨
        ∃ event ∈ after ++ publication :: before,
          retryRecorded runId key event || observationRecorded runId key event)

/-- Two claims in the order of the log: the second took over from the first. -/
theorem tookOver_of_split {runId key : String} {serving : Nat → Option (Call ⊕ Sdk.Delivery)} {h : TapeHist}
    (inv : WorkerLog runId key serving h) {newer after before older : List TapeEvent}
    {claim publication lease : TapeEvent}
    (split : h.log = newer ++ claim :: (after ++ publication :: (before ++ lease :: older)))
    (publisher : lease.tid = publication.tid)
    (won : (acquired runId key claim).isSome) (leased : (acquired runId key lease).isSome) :
    TookOver runId key claim after publication (before ++ lease :: older) := by
  obtain ⟨⟨published, expiry⟩, isLease⟩ := Option.isSome_iff_exists.mp leased
  obtain ⟨⟨now, until_⟩, isClaim⟩ := Option.isSome_iff_exists.mp won
  refine ⟨before, lease, older, rfl, publisher, published, expiry, now, until_, isLease, isClaim, ?_⟩
  have together : h.log = newer ++ claim :: ((after ++ publication :: before) ++ lease :: older) := by
    rw [split]
    simp
  cases inv.exclusive.expired_or_released together isLease isClaim with
  | inr released => exact .inr released
  | inl expired =>
    by_cases recorded : ∃ event ∈ after ++ publication :: before, outcomeRecorded runId key event
    · -- an outcome closes the lease until it is released
      obtain ⟨event, member, isOutcome⟩ := recorded
      obtain ⟨since, earlier, isSplit⟩ := List.append_of_mem member
      have atOutcome : h.log = newer ++ claim :: (since ++ event :: (earlier ++ lease :: older)) := by
        rw [together, isSplit]
        simp
      obtain ⟨release, isSince, released⟩ := inv.closed _ _ _ _ _ atOutcome isOutcome won
      refine .inr ⟨release, ?_, released⟩
      rw [isSplit]
      exact List.mem_append_left _ isSince
    · simp only [not_exists, not_and, Bool.not_eq_true] at recorded
      exact .inl ⟨expired, recorded⟩

/-- **Handlers.**  In every interleaving of named dispatchers, named subscribers, reactors and observations in which
    messages are delivered only after they were published: when a handler runs for an effect, its thread has won the
    lease before, after a publication of its message; and that claim took the effect over from every publication of
    the message that came before it. -/
theorem handled_after_lapse (connectors : List Sdk.PubSubConnector) (runId key : String) (w : World)
    (choices : List (Choice (Call ⊕ Sdk.Delivery)))
    (admitted : pubsub.Along (System.Permits WorkerCall fun _ _ _ _ => True) (quietPubsub w) choices)
    (delivers : pubsub.Along (Delivers connectors) (quietPubsub w) choices) {newest older : List TapeEvent}
    {handled : TapeEvent} (ran : (pubsub.run (quietPubsub w) choices).log = newest ++ handled :: older)
    (calls : isDispatch runId key handled.op) {d : Sdk.Delivery}
    (serves : (pubsub.run (quietPubsub w) choices).callOf handled.tid = some (.inr d)) :
    ∃ newer claim before, older = newer ++ claim :: before ∧ claim.tid = handled.tid ∧
      (∃ publication ∈ before, publishes connectors d.message publication ∧
        isClient ((pubsub.run (quietPubsub w) choices).callOf publication.tid)) ∧
      ∀ after publication past, before = after ++ publication :: past →
        publishes connectors d.message publication → TookOver runId key claim after publication past := by
  have inv : WorkerLog runId key (pubsub.run (quietPubsub w) choices).callOf
      (pubsub.run (quietPubsub w) choices).toHist := run_workerLog admitted
  obtain ⟨publication, past, isPast, isPublished, byClient, others⟩ := run_published delivers serves
  obtain ⟨⟨claim, isOlder, own, won⟩, about⟩ := inv.claimed.of_split newest ran calls
  obtain ⟨isRun, isKey⟩ := about _ serves d rfl
  obtain ⟨newer, before, rfl⟩ := List.append_of_mem isOlder
  refine ⟨newer, claim, before, rfl, own, ⟨publication, ?_, isPublished, byClient⟩, ?_⟩
  · -- the claim is newer than the publication, as everything the thread does is
    obtain ⟨front, split⟩ := isPast
    have whole : (newest ++ handled :: newer) ++ claim :: before = front ++ publication :: past := by
      rw [split, ran]
      simp
    cases List.append_eq_append_iff.mp whole with
    | inl shorter =>
      obtain ⟨between, -, ends⟩ := shorter
      cases between with
      | nil =>
        obtain ⟨same, -⟩ := List.cons.inj ends
        exact absurd own (others claim (same ▸ List.mem_cons_self))
      | cons first rest =>
        obtain ⟨-, rfl⟩ := List.cons.inj ends
        simp
    | inr longer =>
      obtain ⟨between, -, ends⟩ := longer
      exact absurd own (others claim (by simp [ends]))
  · intro after publication past split isPublished
    -- a publication of the message dispatches the effect, so its thread had claimed it
    have isOwn : isDispatch runId key publication.op := isDispatch_of_publishes isPublished isRun isKey
    have atPublication : (pubsub.run (quietPubsub w) choices).log =
        (newest ++ handled :: (newer ++ claim :: after)) ++ publication :: past := by
      rw [ran, split]
      simp
    obtain ⟨⟨lease, isEarlier, publisher, leased⟩, -⟩ := inv.claimed.of_split _ atPublication isOwn
    obtain ⟨earlier, oldest, rfl⟩ := List.append_of_mem isEarlier
    have atClaim : (pubsub.run (quietPubsub w) choices).log =
        (newest ++ handled :: newer) ++ claim :: (after ++ publication :: (earlier ++ lease :: oldest)) := by
      rw [atPublication]
      simp
    exact tookOver_of_split inv atClaim publisher won leased

/-! ## A dispatcher that crashes after publishing -/

/-- Wires travel over a topic. -/
def bankTopic : Sdk.PubSubConnector where
  name := "bank"
  project := "p"
  topic := "wires"

/-- The wire of `wireWorld` as a message. -/
def wireMessage : Sdk.Message := ((wireWorld.effects.find? ("r", "k")).map bankTopic.message).getD ⟨"", []⟩

/-- The message reaches a subscriber whose claim is at `claimAt`. -/
def wireDelivery (claimAt : Int) : Sdk.Delivery where
  subscriber := { process := 0, claimer := "S1" }
  message := wireMessage
  seen := some false
  outcome := .confirmed "ref 1" []
  claimAt := claimAt
  recordAt := claimAt + 1000

/-- `D1` claims the wire, publishes it and is never heard of again; the message is delivered a minute later. -/
def crashAfterPublishing : List (Choice (Call ⊕ Sdk.Delivery)) :=
  .spawn (.inl (.dispatchOne (wireJob "D1" 1000 (bankTopic.dispatch (.ok "m-1"))))) :: List.replicate 3 (.exec 0) ++
    .spawn (.inr (wireDelivery 61000)) :: List.replicate 3 (.exec 1)

theorem crashed_wire_handled : ∃ claim before, claim.tid = 1 ∧
    (∃ publication ∈ before, publishes [bankTopic] wireMessage publication) ∧
    ∀ after publication past, before = after ++ publication :: past → publishes [bankTopic] wireMessage publication →
      TookOver "r" "k" claim after publication past := by
  have ran : (pubsub.run (quietPubsub wireWorld) crashAfterPublishing).log.any
      (fun event => isDispatch "r" "k" event.op && event.tid = 1) = true := by decide +kernel
  obtain ⟨handled, member, calls⟩ := List.any_eq_true.mp ran
  rw [Bool.and_eq_true] at calls
  have own : handled.tid = 1 := of_decide_eq_true calls.2
  have serves : (pubsub.run (quietPubsub wireWorld) crashAfterPublishing).callOf handled.tid =
      some (.inr (wireDelivery 61000)) := by
    rw [own, Config.callOf_eq, System.calls_run]
    rfl
  obtain ⟨newest, older, split⟩ := List.append_of_mem member
  obtain ⟨newer, claim, before, -, claimer, ⟨publication, isEarlier, isPublished, -⟩, takesOver⟩ :=
    handled_after_lapse [bankTopic] "r" "k" wireWorld crashAfterPublishing (by decide +kernel) (by decide +kernel)
      split calls.1 serves
  exact ⟨claim, before, claimer.trans own, ⟨publication, isEarlier, isPublished⟩, takesOver⟩

end Tape.Effect
