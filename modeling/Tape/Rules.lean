import Tape.Store.Written
import Tape.System

/-! # Rules for store and SDK programs

How safety and footprints pass through the combinators the methods are written
with: a query, a recovered failure, an RPC, a swallowed exception.  Every method
ends in the same housekeeping, taking the run's next sequence number and appending
a journal entry; `Housekeeping` names those four statements, and a property that
admits them is met by all of it.
-/

namespace Tape

open Interleave

variable {α β : Type}

/-! ## Sequencing -/

namespace Interleave.Prog.Composable

variable {Q : {α : Type} → Prog Act Act.Res α → Prop} (composable : Composable Q)

include composable

theorem orElse {action : StoreM α} {default : α} (first : Q action.run) : Q (Tape.orElse action default).run := by
  refine composable.bind first fun result => ?_
  cases result <;> exact composable.ret _

theorem rpc {method : StoreM α} (first : Q method.run) : Q (Sdk.rpc method).run := by
  refine composable.bind first fun result => ?_
  cases result <;> exact composable.ret _

theorem rpcFound {method : StoreM (Option α)} {absent : Sdk.Status} (first : Q method.run) :
    Q (Sdk.rpcFound method absent).run := by
  refine composable.bind first fun result => ?_
  match result with
  | .ok (some _) => exact composable.ret _
  | .ok none => exact composable.ret _
  | .error _ => exact composable.ret _

theorem swallow {action : Sdk.SdkM α} (first : Q action.run) : Q (Sdk.swallow action).run :=
  composable.bind first fun _ => composable.ret _

end Interleave.Prog.Composable

/-! ## Footprints -/

section Footprints

variable {p : Act → Prop}

theorem all_composable (p : Act → Prop) : Prog.Composable fun {_} (program : Prog Act Act.Res _) => program.All p :=
  Prog.All.composable p

theorem all_orElse {action : StoreM α} {default : α} (all : Prog.All p action.run) :
    Prog.All p (orElse action default).run :=
  (all_composable p).orElse all

theorem all_query {s : Stmt} (admits : p (.sql s)) : Prog.All p s.query.run :=
  ⟨admits, fun _ => trivial⟩

theorem all_ite {c : Prop} [Decidable c] {yes no : StoreM α} (first : Prog.All p yes.run) (second : Prog.All p no.run) :
    Prog.All p (if c then yes else no).run := by
  split
  · exact first
  · exact second

theorem all_access {c : CacheOp} (admits : p (.cache c)) : Prog.All p c.access.run :=
  ⟨admits, fun _ => trivial⟩

theorem all_external {x : External} (admits : p (.outside x)) : Prog.All p (Sdk.external x).run :=
  ⟨admits, fun _ => trivial⟩

theorem all_rpc {method : StoreM α} (all : Prog.All p method.run) : Prog.All p (Sdk.rpc method).run :=
  (all_composable p).rpc all

theorem all_rpcFound {method : StoreM (Option α)} {absent : Sdk.Status} (all : Prog.All p method.run) :
    Prog.All p (Sdk.rpcFound method absent).run :=
  (all_composable p).rpcFound all

/-- Sequence numbers and journal entries. -/
inductive Housekeeping : Act → Prop
  | bumpSeq (runId : String) : Housekeeping (.run (.bumpSeq runId))
  | readSeq (runId : String) : Housekeeping (.run (.readSeq runId))
  | nextGlobalSeq : Housekeeping (.journal .nextGlobalSeq)
  | insertEntry (row : EventEntry) (filed : Filed row) : Housekeeping (.journal (.insertEntry row))

variable (housekeeping : ∀ act, Housekeeping act → p act)

include housekeeping

theorem all_nextSeq (runId : String) : Prog.All p (RunStore.nextSeq runId).run :=
  .exceptBind (all_query (housekeeping _ (.bumpSeq runId))) fun _ =>
    .exceptBind (all_query (housekeeping _ (.readSeq runId))) fun _ => trivial

theorem all_journal (runId : String) (seq : Int) (kind : String) (payload : Json) (ts : Int)
    (isWritten : Written kind payload) :
    Prog.All p (RunStore.journal runId seq kind payload ts).run :=
  .exceptBind (all_query (housekeeping _ .nextGlobalSeq)) fun _ =>
    all_query (housekeeping _ (.insertEntry _ (.inl ⟨isWritten, rfl⟩)))

/-- The journal entry a method ends with, under the run's next number. -/
theorem all_journaled {r kind : String} {payload : Int → Json} {ts : Int} {f : Unit → StoreM α}
    (rest : Prog.All p (f ()).run) (isWritten : ∀ seq, Written kind (payload seq)) :
    Prog.All p (do
      let seq ← RunStore.nextSeq r
      RunStore.journal r seq kind (payload seq) ts >>= f).run :=
  .exceptBind (all_nextSeq housekeeping r) fun seq =>
    .exceptBind (all_journal housekeeping _ _ _ _ _ (isWritten seq)) fun _ => rest

theorem all_registerCompensation {runId effectKey kind : String} {payload : Json}
    {compensatorRef : String} {maxAttempts ts : Int}
    (find : p (.obligation (.findObligation runId effectKey kind)))
    (insert : ∀ row, p (.obligation (.insertObligation row))) :
    Prog.All p
      (RunStore.registerCompensation runId effectKey kind payload compensatorRef maxAttempts ts).run := by
  refine .exceptBind (all_query find) fun found => ?_
  cases found with
  | some recorded => exact trivial
  | none =>
    refine .exceptBind (all_nextSeq housekeeping runId) fun seq => ?_
    refine .exceptBind (all_query (insert _)) fun _ => ?_
    exact .exceptBind (all_journal housekeeping _ _ _ _ _ (by constructor)) fun _ => trivial

theorem all_completeEffect {runId key : String} {status : Int} {responseJson errorJson : String} {ts : Int}
    (get : p (.effect (.getEffect runId key)))
    (set : p (.effect (.setOutcome runId key status responseJson errorJson ts))) :
    Prog.All p (RunStore.completeEffect runId key status responseJson errorJson ts).run := by
  refine .exceptBind (all_query get) fun found => ?_
  cases found with
  | none => exact trivial
  | some existing =>
    simp only
    split
    · exact trivial
    · exact .exceptBind (all_query set) fun _ => all_journaled housekeeping trivial fun _ => by constructor

theorem all_reconcileEffect {runId key : String} {status : Int} {responseJson errorJson : String} {ts : Int}
    (get : p (.effect (.getEffect runId key)))
    (set : p (.effect (.setOutcome runId key status responseJson errorJson ts))) :
    Prog.All p (RunStore.reconcileEffect runId key status responseJson errorJson ts).run := by
  refine .exceptBind (all_query get) fun found => ?_
  cases found with
  | none => exact trivial
  | some existing =>
    simp only
    split
    · exact trivial
    · exact .exceptBind (all_query set) fun _ => all_journaled housekeeping trivial fun _ => by constructor

/-- The status `record_dispatch_attempt` writes. -/
def attemptStatus (nextDispatchAtMs : Int) : Int :=
  if nextDispatchAtMs ≤ 0 then EffectStatus.unknown.code else EffectStatus.pending.code

theorem all_recordDispatchAttempt {runId key error : String} {nextDispatchAtMs ts : Int}
    (get : p (.effect (.getEffect runId key)))
    (record : ∀ attempts nextAt, p (.effect
      (.recordAttempt runId key (attemptStatus nextDispatchAtMs) attempts error nextAt ts))) :
    Prog.All p (RunStore.recordDispatchAttempt runId key error nextDispatchAtMs ts).run := by
  refine .exceptBind (all_query get) fun found => ?_
  cases found with
  | none => exact trivial
  | some existing =>
    exact .exceptBind (all_query (record _ _)) fun _ => all_journaled housekeeping (all_query get) fun _ => by constructor

theorem all_recordExternalObservation {runId key : String} {resolution : Int}
    {externalRef responseJson errorJson kind : String} {ts registerTs : Int}
    (get : p (.effect (.getEffect runId key)))
    (record : ∀ status nextDispatch, p (.effect
      (.recordObservation runId key status responseJson errorJson externalRef nextDispatch ts)))
    (find : p (.obligation (.findObligation runId key kind)))
    (insert : ∀ row, p (.obligation (.insertObligation row))) :
    Prog.All p (RunStore.recordExternalObservation runId key resolution externalRef responseJson errorJson
      kind ts registerTs).run := by
  refine .exceptBind (all_query get) fun found => ?_
  cases found with
  | none => exact trivial
  | some existing =>
    refine .exceptBind (all_query (record _ _)) fun _ => all_journaled housekeeping ?_ fun _ => by constructor
    split
    · exact .exceptBind (all_registerCompensation housekeeping find insert) fun _ => all_query get
    · exact all_query get

theorem all_beginRun {server : Nat} {app user session invocation : String} {identity : RunIdentity}
    {leaseOwner : String} {leaseTtlMs ts : Int} {newId : String}
    (find : p (.run (.findInvocation app user session invocation)))
    (claim : ∀ runId leaseExp, p (.run (.claimRun runId leaseOwner leaseExp)))
    (get : ∀ runId, p (.run (.getRun runId)))
    (insert : ∀ row, row.status = RunStatus.running.code ∧ row.waitingOnGate = "" → p (.run (.insertRun row)))
    (cache : ∀ c, p (.cache c)) :
    Prog.All p (RunStore.beginRun server app user session invocation identity leaseOwner leaseTtlMs ts
      newId).run := by
  refine .exceptBind (all_query find) fun found => ?_
  cases found with
  | some known =>
    refine .exceptBind (all_query (claim _ _)) fun _ => .exceptBind (all_query (get _)) fun current => ?_
    cases current <;> exact trivial
  | none =>
    refine .exceptBind (all_query (insert _ ⟨rfl, rfl⟩)) fun _ => .exceptBind (all_access (cache _)) fun _ => ?_
    refine .exceptBind (all_orElse (all_nextSeq housekeeping newId)) fun seq => ?_
    exact .exceptBind (all_orElse (all_journal housekeeping _ _ _ _ _ (by constructor))) fun _ => trivial

theorem all_admitEffect {request : RunStore.EffectRequest} {ts : Int} (effect : ∀ s, p (.effect s)) :
    Prog.All p (RunStore.admitEffect request ts).run := by
  refine .exceptBind (all_query (effect _)) fun own => ?_
  cases own with
  | some recorded => exact trivial
  | none =>
    refine .exceptBind (all_ite (all_query (effect _)) trivial) fun other => ?_
    cases other with
    | some recorded => exact trivial
    | none =>
      refine .exceptBind (all_nextSeq housekeeping _) fun seq => .exceptBind (all_query (effect _)) fun _ => ?_
      exact .exceptBind (all_journal housekeeping _ _ _ _ _ (by constructor)) fun _ => trivial

theorem all_endRun {server : Nat} {runId : String} {status : Int} {detailJson : String} {ts : Int}
    (set : p (.run (.endRun runId status ts detailJson))) (get : p (.run (.getRun runId)))
    (cache : ∀ c, p (.cache c)) : Prog.All p (RunStore.endRun server runId status detailJson ts).run := by
  refine .exceptBind (all_query set) fun _ => .exceptBind (all_access (cache _)) fun _ => ?_
  refine .exceptBind (all_query get) fun found => ?_
  cases found with
  | none => exact trivial
  | some current =>
    refine .exceptBind (all_orElse (all_nextSeq housekeeping runId)) fun seq => ?_
    exact .exceptBind (all_orElse (all_journal housekeeping _ _ _ _ _ (by constructor))) fun _ => trivial

theorem all_awaitSignal {runId gateName payloadJson : String} {ts : Int} (signal : ∀ s, p (.signal s))
    (park : p (.run (.parkRun runId gateName))) :
    Prog.All p (RunStore.awaitSignal runId gateName payloadJson ts).run := by
  have parks : Prog.All p (RunStore.parkOnGate runId gateName payloadJson ts).run := by
    refine .exceptBind (all_query (signal _)) fun _ => .exceptBind (all_nextSeq housekeeping runId) fun _ => ?_
    refine .exceptBind (all_query park) fun _ => ?_
    exact .exceptBind (all_journal housekeeping _ _ _ _ _ (by constructor)) fun _ => trivial
  refine .exceptBind (all_query (signal _)) fun found => ?_
  cases found with
  | none => exact parks
  | some resolution =>
    simp only
    split
    · exact .exceptBind (all_query (signal _)) fun _ => trivial
    · exact parks

omit housekeeping in
theorem all_resumeRun {runId leaseOwner : String} {leaseTtlMs ts : Int}
    (set : ∀ leaseExp, p (.run (.resumeRun runId leaseOwner leaseExp))) (get : p (.run (.getRun runId))) :
    Prog.All p (RunStore.resumeRun runId leaseOwner leaseTtlMs ts).run :=
  .exceptBind (all_query (set _)) fun _ => all_query get

end Footprints

/-! ## Methods, for any property that sequencing keeps -/

theorem ite_of {Q : {α : Type} → Prog Act Act.Res α → Prop} {c : Prop} [Decidable c] {yes no : StoreM α}
    (first : Q yes.run) (second : Q no.run) : Q (if c then yes else no).run := by
  by_cases holds : c
  · rw [if_pos holds]
    exact first
  · rw [if_neg holds]
    exact second

section Methods

variable {Q : {α : Type} → Prog Act Act.Res α → Prop} (composable : Prog.Composable Q)
  (housekeeping : ∀ act, Housekeeping act → Q (Prog.perform act))

include composable housekeeping

theorem nextSeq_of (runId : String) : Q (RunStore.nextSeq runId).run :=
  composable.exceptBind (housekeeping _ (.bumpSeq runId)) fun _ =>
    composable.exceptBind (housekeeping _ (.readSeq runId)) fun _ => composable.ret _

theorem journal_of (runId : String) (seq : Int) (kind : String) (payload : Json) (ts : Int)
    (isWritten : Written kind payload) : Q (RunStore.journal runId seq kind payload ts).run :=
  composable.exceptBind (housekeeping _ .nextGlobalSeq) fun _ =>
    housekeeping _ (.insertEntry _ (.inl ⟨isWritten, rfl⟩))

theorem sendSignal_of {runId app user session gateName resolutionJson : String} {ts : Int}
    (deliver : ∀ r, Q (SignalStmt.deliver r gateName resolutionJson ts).query.run)
    (waiting : ∀ r, Q (RunStmt.waitingGate r).query.run) (release : ∀ r, Q (RunStmt.releaseRun r).query.run)
    (latest : Q (RunStmt.latestRun app user session).query.run) :
    Q (RunStore.sendSignal runId app user session gateName resolutionJson ts).run := by
  have signal : ∀ r, Q (RunStore.signalRun r gateName resolutionJson ts).run := by
    intro r
    refine composable.exceptBind (deliver r) fun _ => composable.exceptBind (waiting r) fun gate => ?_
    cases gate with
    | none => exact composable.ret _
    | some gate =>
      simp only
      split
      · refine composable.exceptBind (release r) fun _ => ?_
        refine composable.exceptBind (composable.orElse ?_) fun _ => composable.ret _
        exact composable.exceptBind (nextSeq_of composable housekeeping r) fun _ =>
          journal_of composable housekeeping _ _ _ _ _ (by constructor)
      · exact composable.ret _
  unfold RunStore.sendSignal
  split
  · exact signal runId
  · refine composable.exceptBind latest fun found => ?_
    cases found with
    | none => exact composable.ret _
    | some r => exact signal r

end Methods

/-! ## The task methods, for any property that sequencing keeps -/

section Tasks

variable {Q : {α : Type} → Prog Act Act.Res α → Prop} (composable : Prog.Composable Q)
  (task : ∀ s : TaskStmt, s.isRetry = false → Q (Prog.perform (.task s)))

include composable task

theorem createTask_of {request : Task} {ts : Int} {newId : String} :
    Q (RunStore.createTask request ts newId).run := by
  refine composable.exceptBind (task _ rfl) fun _ => composable.exceptBind (task _ rfl) fun found => ?_
  cases found <;> exact composable.ret _

theorem claimTasks_of {reactionId : String} {shard : Int} {owner : String} {leaseMs max nowMs clock : Int} :
    Q (RunStore.claimTasks reactionId shard owner leaseMs max nowMs clock).run := by
  have claims : ∀ candidates leaseExp now, Q (RunStore.claimCandidates owner leaseExp now candidates).run := by
    intro candidates leaseExp now
    induction candidates with
    | nil => exact composable.ret _
    | cons taskId candidates inductionHypothesis =>
      refine composable.exceptBind (task _ rfl) fun updated => ?_
      split
      · exact inductionHypothesis
      · exact composable.exceptBind (task _ rfl) fun _ => composable.exceptBind inductionHypothesis fun _ =>
          composable.ret _
  unfold RunStore.claimTasks
  split
  · exact composable.ret _
  · exact composable.exceptBind (task _ rfl) fun candidates => claims _ _ _

theorem updatedTask_of {taskId : String} {updated : Nat} : Q (RunStore.updatedTask taskId updated).run :=
  ite_of (composable.ret _) (task _ rfl)

theorem completeTask_of {taskId owner : String} {ts : Int} : Q (RunStore.completeTask taskId owner ts).run := by
  unfold RunStore.completeTask
  split
  · exact composable.ret _
  · exact composable.exceptBind (task _ rfl) fun _ => updatedTask_of composable task

/-- The one method that puts a task back. -/
theorem nackTask_of {taskId owner error : String} {permanent : Bool} {nowMs clock : Int}
    (retry : ∀ nextAt, Q (Prog.perform (.task (.retryTask taskId owner error nextAt)))) :
    Q (RunStore.nackTask taskId owner error permanent nowMs clock).run := by
  unfold RunStore.nackTask
  split
  · exact composable.ret _
  refine composable.exceptBind (task _ rfl) fun found => ?_
  match found with
  | none => exact composable.ret _
  | some (attempts, backoff, dlqAfter) =>
    simp only
    split
    · exact composable.exceptBind (task _ rfl) fun _ => updatedTask_of composable task
    · exact composable.exceptBind (retry _) fun _ => updatedTask_of composable task

theorem coalesceTask_of {taskId : String} {sourceGlobalSeq : Int} {payload : Json} {traceId parentSpanId : String} :
    Q (RunStore.coalesceTask taskId sourceGlobalSeq payload traceId parentSpanId).run :=
  composable.exceptBind (task _ rfl) fun _ => updatedTask_of composable task

end Tasks

/-! ## The SDK's processes

What holds of the reactors' programs, from what holds of the store methods they call.
-/

/-- No statement on `tape_effects`, none that drains an obligation or creates a run, and no call to
    the outside that the results are about. -/
def isNeutral : Act → Bool
  | .sql (.effect _) | .sql (.run (.insertRun _)) => false
  | .sql (.obligation (.claimObligation ..)) | .sql (.obligation (.recordAttempt ..))
  | .sql (.obligation (.resolve ..)) => false
  | .outside (.dispatch ..) | .outside (.observe _) | .outside (.acknowledged ..) | .outside (.compensator _) => false
  | _ => true

theorem isNeutral_of_housekeeping {act : Act} (housekeeping : Housekeeping act) : isNeutral act := by
  cases housekeeping <;> rfl

/-- A neutral act that journals nothing but what the methods write. -/
def Neutral (act : Act) : Prop := isNeutral act ∧ ∀ row, act = .journal (.insertEntry row) → Filed row

theorem Neutral.of_isNeutral {act : Act} (isNeutral : isNeutral act)
    (apart : ∀ row, act ≠ .journal (.insertEntry row)) : Neutral act :=
  ⟨isNeutral, fun row same => absurd same (apart row)⟩

theorem neutral_of_housekeeping {act : Act} (housekeeping : Housekeeping act) : Neutral act := by
  refine ⟨isNeutral_of_housekeeping housekeeping, fun row same => ?_⟩
  cases housekeeping with
  | insertEntry row filed =>
    cases same
    exact filed
  | _ => cases same

section Processes

variable {Q : {α : Type} → Prog Act Act.Res α → Prop} (composable : Prog.Composable Q)
  (neutral : ∀ act, Neutral act → Q (Prog.perform act))

include composable neutral

theorem neutral_external {x : External} (isNeutral : isNeutral (.outside x)) : Q (Sdk.external x).run :=
  composable.bind (neutral _ (.of_isNeutral isNeutral nofun)) fun _ => composable.ret _

theorem neutral_nextSeq (runId : String) : Q (RunStore.nextSeq runId).run :=
  nextSeq_of composable (fun act isHousekeeping => neutral act (neutral_of_housekeeping isHousekeeping)) runId

theorem neutral_journal (runId : String) (seq : Int) (kind : String) (payload : Json) (ts : Int)
    (isWritten : Written kind payload) : Q (RunStore.journal runId seq kind payload ts).run :=
  journal_of composable (fun act isHousekeeping => neutral act (neutral_of_housekeeping isHousekeeping)) _ _ _ _ _
    isWritten

theorem neutral_registerCompensation {runId effectKey kind : String} {payload : Json}
    {compensatorRef : String} {maxAttempts ts : Int} :
    Q (RunStore.registerCompensation runId effectKey kind payload compensatorRef maxAttempts ts).run := by
  refine composable.exceptBind (neutral _ (.of_isNeutral rfl nofun)) fun found => ?_
  cases found with
  | some recorded => exact composable.ret _
  | none =>
    refine composable.exceptBind (neutral_nextSeq composable neutral runId) fun seq => ?_
    refine composable.exceptBind (neutral _ (.of_isNeutral rfl nofun)) fun _ => ?_
    exact composable.exceptBind (neutral_journal composable neutral _ _ _ _ _ (by constructor)) fun _ => composable.ret _

theorem neutral_registerInverse (job : Sdk.DispatchJob) (cur : EffectRecord) :
    Q (Sdk.registerInverse job cur).run := by
  unfold Sdk.registerInverse
  split
  · exact composable.ret _
  · exact composable.swallow (composable.rpc (neutral_registerCompensation composable neutral))

theorem neutral_sendSignal {runId app user session gateName resolutionJson : String} {ts : Int} :
    Q (RunStore.sendSignal runId app user session gateName resolutionJson ts).run :=
  sendSignal_of composable (fun act isHousekeeping => neutral act (neutral_of_housekeeping isHousekeeping))
    (fun _ => neutral _ (.of_isNeutral rfl nofun)) (fun _ => neutral _ (.of_isNeutral rfl nofun))
    (fun _ => neutral _ (.of_isNeutral rfl nofun)) (neutral _ (.of_isNeutral rfl nofun))

theorem neutral_listDueTimers {nowMs limit : Int} {claim : Bool} :
    Q (RunStore.listDueTimers nowMs limit claim).run := by
  have claims : ∀ timers, Q (RunStore.claimTimers timers).run := by
    intro timers
    induction timers with
    | nil => exact composable.ret _
    | cons timer timers inductionHypothesis =>
      refine composable.exceptBind (neutral _ (.of_isNeutral rfl nofun)) fun _ => ?_
      exact composable.exceptBind inductionHypothesis fun _ => composable.ret _
  refine composable.exceptBind (neutral _ (.of_isNeutral rfl nofun)) fun due => ?_
  cases claim with
  | true => exact claims due
  | false => exact composable.ret _

end Processes

section Ticks

variable {Q : {α : Type} → Prog Act Act.Res α → Prop} (composable : Prog.Composable Q)
  (outside : ∀ x, isNeutral (.outside x) → Q (Sdk.external x).run)
  (reconcile : ∀ runId key status responseJson errorJson ts,
    status = EffectStatus.confirmed.code ∨ status = EffectStatus.failed.code →
      Q (RunStore.reconcileEffect runId key status responseJson errorJson ts).run)

include composable outside reconcile

theorem reconcileOnce_of {job : Sdk.ReconcileJob}
    (list : ∀ limit unknown pending older, Q (EffectStmt.listPending limit unknown pending older).query.run)
    (observe : ∀ (e : EffectRecord) resolution externalRef responseJson errorJson kind ts registerTs,
      Q (Sdk.external (.observe e) >>= fun _ => Sdk.Client.recordExternalObservation e.runId e.idempotencyKey
        resolution externalRef responseJson errorJson kind ts registerTs >>= fun _ => return ()).run) :
    Q (Sdk.reconcileOnce job).run := by
  -- one effect: a connector's observation, or the tool's status check
  have one : ∀ e, Q (Sdk.reconcileOne job e).run := by
    intro e
    unfold Sdk.reconcileOne
    split
    · exact observe _ _ _ _ _ _ _ _
    · split
      · exact composable.ret _
      · refine composable.exceptBind (outside _ rfl) fun _ => ?_
        split
        · exact composable.ret _
        · exact composable.exceptBind (composable.rpcFound (reconcile _ _ _ _ _ _ (.inl rfl))) fun _ =>
            composable.ret _
        · split
          · exact composable.exceptBind (composable.rpcFound (reconcile _ _ _ _ _ _ (.inr rfl))) fun _ =>
              composable.ret _
          · exact composable.ret _
  have all : ∀ effects, Q (Sdk.reconcileAll job effects).run := by
    intro effects
    induction effects with
    | nil => exact composable.ret _
    | cons e effects inductionHypothesis => exact composable.exceptBind (one e) fun _ => inductionHypothesis
  exact composable.exceptBind (composable.rpc (list _ _ _ _)) fun effects => all effects

theorem fireTimer_of {job : Sdk.TimerJob}
    (get : ∀ runId key, Q (EffectStmt.getEffect runId key).query.run)
    (getRun : ∀ runId, Q (RunStore.getRun runId).run)
    (signal : ∀ runId app user session gateName resolutionJson ts,
      Q (RunStore.sendSignal runId app user session gateName resolutionJson ts).run) (t : TimerRecord) :
    Q (Sdk.fireTimer job t).run := by
  have timer : Q (Sdk.reconcileTimer job t).run := by
    refine composable.exceptBind (composable.rpc (get _ _)) fun found => ?_
    cases found with
    | none => exact composable.ret _
    | some eff =>
      simp only
      split
      · split
        · exact composable.ret _
        · refine composable.exceptBind (outside _ rfl) fun _ => ?_
          split
          · exact composable.ret _
          · exact composable.exceptBind (composable.rpcFound (reconcile _ _ _ _ _ _ (.inl rfl))) fun _ =>
              composable.ret _
          · exact composable.exceptBind (composable.rpcFound (reconcile _ _ _ _ _ _ (.inr rfl))) fun _ =>
              composable.ret _
      · exact composable.ret _
  unfold Sdk.fireTimer
  split
  · split
    · exact composable.ret _
    · exact composable.exceptBind (composable.rpc (signal _ _ _ _ _ _ _)) fun _ => composable.ret _
  · split
    · exact composable.exceptBind (composable.rpcFound (getRun _)) fun _ => outside _ rfl
    · split
      · exact timer
      · split
        · exact outside _ rfl
        · exact composable.ret _

theorem fireDueTimersOnce_of {job : Sdk.TimerJob}
    (get : ∀ runId key, Q (EffectStmt.getEffect runId key).query.run)
    (getRun : ∀ runId, Q (RunStore.getRun runId).run)
    (signal : ∀ runId app user session gateName resolutionJson ts,
      Q (RunStore.sendSignal runId app user session gateName resolutionJson ts).run)
    (list : ∀ nowMs limit claim, Q (RunStore.listDueTimers nowMs limit claim).run) :
    Q (Sdk.fireDueTimersOnce job).run := by
  have all : ∀ timers, Q (Sdk.fireTimers job timers).run := by
    intro timers
    induction timers with
    | nil => exact composable.ret _
    | cons t timers inductionHypothesis =>
      exact composable.exceptBind (composable.swallow (fireTimer_of composable outside reconcile get getRun signal t))
        fun _ => inductionHypothesis
  exact composable.exceptBind (composable.rpc (list _ _ _)) fun timers => all timers

end Ticks

/-! ## Safety -/

section Safety

variable {K : Contract World Act Act.Res} {tid : Nat}

theorem safe_query {s : Stmt} {post : Except StoreError β → TapeHist → Prop} {f : s.Res → StoreM β}
    {h : TapeHist} (failed : ∀ e h, post (.error e) h)
    (step : ∀ h' res state, K.rely h h' → K.allowed h' (.sql s) →
      tape.Answers (.sql s) h'.state res state →
      K.guar h' (h'.push tid (.sql s) res state) ∧
        ∀ value, res = .ok value →
          tape.Safe K tid post (f value).run (h'.push tid (.sql s) res state)) :
    tape.Safe K tid post (s.query >>= f).run h := by
  refine System.Safe.exceptBind failed ?_
  intro h' rely allowed res state answers
  obtain ⟨guar, rest⟩ := step h' res state rely allowed answers
  refine ⟨guar, fun h'' rely' value isOk => ?_⟩
  exact (rest value isOk).stable rely'

/-- The same, where something is to be known when the statement failed. -/
theorem safe_query_cases {s : Stmt} {post : Except StoreError β → TapeHist → Prop} {f : s.Res → StoreM β} {h : TapeHist}
    (step : ∀ h' res state, K.rely h h' → K.allowed h' (.sql s) → tape.Answers (.sql s) h'.state res state →
      K.guar h' (h'.push tid (.sql s) res state) ∧
        (∀ value, res = .ok value → tape.Safe K tid post (f value).run (h'.push tid (.sql s) res state)) ∧
        ∀ e, res = .error e → ∀ h'', K.rely (h'.push tid (.sql s) res state) h'' → post (.error e) h'') :
    tape.Safe K tid post (s.query >>= f).run h := by
  intro h' rely allowed res state answers
  obtain ⟨guar, succeeded, failed⟩ := step h' res state rely allowed answers
  refine ⟨guar, ?_⟩
  cases res with
  | ok value => exact succeeded value rfl
  | error e => exact failed e rfl

/-- A last step that only changes the value. -/
theorem safe_return {action : StoreM α} {f : α → β} {post : Except StoreError β → TapeHist → Prop} {h : TapeHist}
    (safe : tape.Safe K tid (fun result h => post (result.map f) h) action.run h) :
    tape.Safe K tid post (do let value ← action; return f value : StoreM β).run h :=
  System.Safe.exceptMap safe

theorem safe_ite {c : Prop} [Decidable c] {yes no : StoreM α} {post : Except StoreError α → TapeHist → Prop}
    {h : TapeHist} (first : c → tape.Safe K tid post yes.run h) (second : ¬c → tape.Safe K tid post no.run h) :
    tape.Safe K tid post (if c then yes else no).run h := by
  split
  next holds => exact first holds
  next fails => exact second fails

/-- A failure that is swallowed: the program goes on either way. -/
theorem safe_orElse {action : StoreM α} {default : α} {f : α → StoreM β}
    {post : Except StoreError β → TapeHist → Prop} {h : TapeHist}
    (safe : tape.Safe K tid (fun result h => ∀ h', K.rely h h' →
      tape.Safe K tid post (f (result.toOption.getD default)).run h') action.run h) :
    tape.Safe K tid post (orElse action default >>= f).run h := by
  refine System.Safe.bind (System.Safe.bind (safe.mono ?_))
  intro result h next
  cases result with
  | ok value => exact next
  | error e => exact next

/-- One statement. -/
theorem safe_perform {s : Stmt} {post : Except StoreError s.Res → TapeHist → Prop} {h : TapeHist}
    (step : ∀ h' res state, K.rely h h' → K.allowed h' (.sql s) → tape.Answers (.sql s) h'.state res state →
      K.guar h' (h'.push tid (.sql s) res state) ∧
        ∀ h'', K.rely (h'.push tid (.sql s) res state) h'' → post res h'') :
    tape.Safe K tid post s.query.run h :=
  fun h' rely allowed res state answers => step h' res state rely allowed answers

/-- An action that may fail: the program goes on with what it returned. -/
theorem safe_attempt {action : StoreM α} {f : Option α → StoreM β} {post : Except StoreError β → TapeHist → Prop}
    {h : TapeHist}
    (safe : tape.Safe K tid (fun result h => ∀ h', K.rely h h' → tape.Safe K tid post (f result.toOption).run h')
      action.run h) : tape.Safe K tid post (attempt action >>= f).run h := by
  refine safe_orElse (safe_return (safe.mono fun result h next => ?_))
  cases result with
  | ok value => exact next
  | error e => exact next

/-- An action whose value and whose failure are both ignored. -/
theorem safe_ignore {action : StoreM α} {Q : TapeHist → Prop} {h : TapeHist}
    (lasting : ∀ h h', K.rely h h' → Q h → Q h') (safe : tape.Safe K tid (fun _ h => Q h) action.run h) :
    tape.Safe K tid (fun _ h => Q h) (orElse (do let _ ← action) ()).run h := by
  refine System.Safe.bind (System.Safe.bind (safe.mono ?_))
  intro result h holds
  cases result with
  | ok value => exact fun h₁ first h₂ second => lasting h h₂ (K.rely_trans first second) holds
  | error e => exact fun h₁ first h₂ second => lasting h h₂ (K.rely_trans first second) holds

theorem safe_external {x : External} {post : Except Sdk.Status β → TapeHist → Prop}
    {f : Unit → Sdk.SdkM β} {h : TapeHist} (failed : ∀ e h, post (.error e) h)
    (step : ∀ h', K.rely h h' → K.allowed h' (.outside x) →
      K.guar h' (h'.push tid (.outside x) () h'.state) ∧
        tape.Safe K tid post (f ()).run (h'.push tid (.outside x) () h'.state)) :
    tape.Safe K tid post (Sdk.external x >>= f).run h := by
  refine System.Safe.exceptBind failed ?_
  intro h' rely allowed res state answers
  cases answers with
  | fault impossible => cases impossible
  | exec =>
    obtain ⟨guar, rest⟩ := step h' rely allowed
    exact ⟨guar, fun h'' rely' value _ => rest.stable rely'⟩

/-- An RPC whose postconditions are those of the store method behind it. -/
theorem safe_rpc {method : StoreM α} {post : Except Sdk.Status α → TapeHist → Prop} {h : TapeHist}
    (safe : tape.Safe K tid (fun result h => ∀ h', K.rely h h' →
      match result with
      | .ok value => post (.ok value) h'
      | .error e => post (.error (Sdk.db e)) h') method.run h) :
    tape.Safe K tid post (Sdk.rpc method).run h := by
  refine System.Safe.bind (System.Safe.mono ?_ safe)
  intro result h holds
  cases result with
  | ok value => exact holds
  | error e => exact holds

theorem safe_rpcFound {method : StoreM (Option α)} {absent : Sdk.Status}
    {post : Except Sdk.Status α → TapeHist → Prop} {h : TapeHist}
    (safe : tape.Safe K tid (fun result h => ∀ h', K.rely h h' →
      match result with
      | .ok (some value) => post (.ok value) h'
      | .ok none => post (.error absent) h'
      | .error e => post (.error (Sdk.db e)) h') method.run h) :
    tape.Safe K tid post (Sdk.rpcFound method absent).run h := by
  refine System.Safe.bind (System.Safe.mono ?_ safe)
  intro result h holds
  match result with
  | .ok (some value) => exact holds
  | .ok none => exact holds
  | .error e => exact holds

/-- The same when nothing is to be said about the result. -/
theorem safe_rpcFound_of_safe {method : StoreM (Option α)} {absent : Sdk.Status} {h : TapeHist}
    (safe : tape.Safe K tid (fun _ _ => True) method.run h) :
    tape.Safe K tid (fun _ _ => True) (Sdk.rpcFound method absent).run h := by
  refine safe_rpcFound (System.Safe.mono ?_ safe)
  intro result h _ h' _
  split <;> trivial

end Safety

end Tape
