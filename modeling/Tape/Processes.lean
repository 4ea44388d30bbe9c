import Tape.Matcher.Cursors
import Tape.Methods

/-! # The processes

The journal readers, the SDK's reactors and the matcher call the methods of the store and the outside,
and nothing else.  What `Numbered` asks of a property of programs for the methods therefore
carries over to them, and `Numbered.call` is the walk over all calls.
-/

namespace Tape.Numbered

open Interleave

variable {Q : {α : Type} → Prog Act Act.Res α → Prop} {R : String → Int → {α : Type} → Prog Act Act.Res α → Prop}
  (numbered : Numbered Q R)

include numbered

theorem outside (x : External) : Q (Sdk.external x).run :=
  numbered.composable.bind (numbered.plain (.outside x) rfl) fun _ => numbered.composable.ret _

theorem done {ε α : Type} (value : Except ε α) : Q (.ret value : Prog Act Act.Res (Except ε α)) :=
  numbered.composable.ret value

/-- A call to the store, and what follows its answer. -/
theorem called {α β : Type} {method : StoreM α} {f : α → Sdk.SdkM β} (first : Q method.run)
    (rest : ∀ value, Q (f value).run) : Q (Sdk.rpc method >>= f).run :=
  numbered.composable.exceptBind (numbered.composable.rpc first) rest

theorem calledFound {α β : Type} {method : StoreM (Option α)} {absent : Sdk.Status} {f : α → Sdk.SdkM β}
    (first : Q method.run) (rest : ∀ value, Q (f value).run) : Q (Sdk.rpcFound method absent >>= f).run :=
  numbered.composable.exceptBind (numbered.composable.rpcFound first) rest

/-! ## Readers of the journal -/

theorem followJournal (limit : Int) (polls : Nat) (cursor : Int) : Q (Tape.followJournal limit polls cursor).run := by
  induction polls generalizing cursor with
  | zero => exact numbered.done _
  | succ polls inductionHypothesis =>
    exact numbered.seq (numbered.composable.orElse (numbered.plain _ rfl)) fun _ => inductionHypothesis _

theorem followSubject (pattern : String) (limit : Int) (polls : Nat) (cursor : Int) :
    Q (Tape.followSubject pattern limit polls cursor).run := by
  induction polls generalizing cursor with
  | zero => exact numbered.done _
  | succ polls inductionHypothesis =>
    exact numbered.seq (numbered.step rfl fun _ => numbered.done _) fun _ => inductionHypothesis _

theorem subscribeEvents (runId kind : String) (polls : Nat) (fromTsMs : Int) :
    Q (Tape.subscribeEvents runId kind polls fromTsMs).run := by
  induction polls generalizing fromTsMs with
  | zero => exact numbered.done _
  | succ polls inductionHypothesis =>
    have poll : Q (attempt (RunStore.eventsSince fromTsMs runId kind 512)).run :=
      numbered.composable.orElse (numbered.seq (numbered.plain _ rfl) fun _ => numbered.done _)
    refine numbered.seq poll fun batch => ?_
    cases batch with
    | none => exact numbered.done _
    | some batch => exact numbered.seq (inductionHypothesis _) fun _ => numbered.done _

theorem watchValue («namespace» key : String) (polls : Nat) (fromVersion prevVersion : Int) (prevValueJson : String) :
    Q (Tape.watchValue «namespace» key polls fromVersion prevVersion prevValueJson).run := by
  induction polls generalizing fromVersion prevVersion prevValueJson with
  | zero => exact numbered.done _
  | succ polls inductionHypothesis =>
    have newer : Q (RunStore.getValueIfNewer «namespace» key fromVersion).run :=
      numbered.step rfl fun _ => numbered.done _
    refine numbered.seq (numbered.composable.orElse (numbered.seq newer fun _ => numbered.done _)) fun polled => ?_
    match polled with
    | none => exact numbered.done _
    | some none => exact inductionHypothesis _ _ _
    | some (some record) => exact numbered.seq (inductionHypothesis _ _ _) fun _ => numbered.done _

/-! ## The dispatcher -/

theorem registerInverse (job : Sdk.DispatchJob) (cur : EffectRecord) : Q (Sdk.registerInverse job cur).run := by
  unfold Sdk.registerInverse
  cases job.spec cur.toolName with
  | none => exact numbered.done _
  | some spec => exact numbered.composable.swallow (numbered.composable.rpc (numbered.registerCompensation ..))

theorem retry (job : Sdk.DispatchJob) (cur : EffectRecord) (error : String) (retryAtMs : Int) :
    Q (Sdk.retry job cur error retryAtMs).run := by
  unfold Sdk.retry
  split
  · exact numbered.done _
  · exact numbered.calledFound (numbered.recordDispatchAttempt ..) fun _ => numbered.done _

theorem recordOutcome (job : Sdk.DispatchJob) (cur : EffectRecord) : Q (Sdk.recordOutcome job cur).run := by
  unfold Sdk.recordOutcome
  cases job.outcome with
  | raised error =>
    simp only
    split
    · exact numbered.calledFound (numbered.recordDispatchAttempt ..) fun _ => numbered.done _
    · exact numbered.retry ..
  | confirmed externalRef response =>
    refine numbered.calledFound (numbered.completeEffect ..) fun _ => ?_
    refine numbered.composable.exceptBind (numbered.outside _) fun _ => ?_
    exact numbered.composable.exceptBind (numbered.registerInverse job cur) fun _ => numbered.done _
  | unknown error => exact numbered.calledFound (numbered.recordDispatchAttempt ..) fun _ => numbered.done _
  | failed error retryAtMs =>
    simp only
    split
    · exact numbered.calledFound (numbered.recordExternalObservation ..) fun _ => numbered.done _
    · exact numbered.retry ..

theorem dispatchOne (job : Sdk.DispatchJob) : Q (Sdk.dispatchOne job).run := by
  unfold Sdk.dispatchOne
  split
  · exact numbered.done _
  refine numbered.called (numbered.step rfl fun _ => numbered.step rfl fun _ => numbered.done _) fun answer => ?_
  match answer with
  | (false, _) => exact numbered.done _
  | (true, none) => exact numbered.done _
  | (true, some cur) =>
    simp only [Bool.not_true, Bool.false_eq_true, if_false]
    split
    · exact numbered.done _
    · exact numbered.composable.exceptBind (numbered.outside _) fun _ => numbered.recordOutcome job cur

/-! ## The reactors -/

theorem reconcileOnce (job : Sdk.ReconcileJob) : Q (Sdk.reconcileOnce job).run := by
  refine reconcileOnce_of numbered.composable (fun x _ => numbered.outside x)
    (fun _ _ _ _ _ _ _ => numbered.reconcileEffect ..) (fun _ _ _ _ => numbered.plain _ rfl) ?_
  intro e resolution externalRef responseJson errorJson kind ts registerTs
  refine numbered.composable.exceptBind (numbered.outside _) fun _ => ?_
  exact numbered.calledFound (numbered.recordExternalObservation ..) fun _ => numbered.done _

theorem fireDueTimersOnce (job : Sdk.TimerJob) : Q (Sdk.fireDueTimersOnce job).run :=
  fireDueTimersOnce_of numbered.composable (fun x _ => numbered.outside x)
    (fun _ _ _ _ _ _ _ => numbered.reconcileEffect ..) (fun _ _ => numbered.plain _ rfl)
    (fun _ => numbered.plain _ rfl) (fun _ _ _ _ _ _ _ => numbered.sendSignal ..)
    (fun _ _ _ => numbered.listDueTimers ..)

theorem compensateAll (d : Sdk.Drainer) (pass : Nat) (obligations : List ObligationRecord) :
    Q (Sdk.compensateAll d pass obligations).run := by
  have inverse : ∀ current, Q (Sdk.runInverse d pass current).run := by
    intro current
    unfold Sdk.runInverse
    split
    · exact numbered.calledFound (numbered.resolveObligation ..) fun _ => numbered.done _
    refine numbered.composable.exceptBind (numbered.outside _) fun _ => ?_
    cases d.inverse pass current with
    | raised error => exact numbered.calledFound (numbered.recordObligationAttempt ..) fun _ => numbered.done _
    | returned resultJson => exact numbered.calledFound (numbered.resolveObligation ..) fun _ => numbered.done _
  have one : ∀ ob, Q (Sdk.compensateOne d pass ob).run := by
    intro ob
    refine numbered.called (numbered.claimObligation ..) fun answer => ?_
    match answer with
    | (false, _) => exact numbered.done _
    | (true, none) => exact numbered.done _
    | (true, some current) => exact inverse current
  induction obligations with
  | nil => exact numbered.done _
  | cons ob obligations inductionHypothesis =>
    refine numbered.composable.exceptBind (one ob) fun _ => ?_
    exact numbered.composable.exceptBind inductionHypothesis fun _ => numbered.done _

theorem compensateOnce (d : Sdk.Drainer) (now limit : Int) (includeCommittedExpired : Bool) :
    Q (Sdk.compensateOnce d now limit includeCommittedExpired).run :=
  numbered.called (numbered.listUnresolvedObligations ..) fun _ => numbered.compensateAll ..

theorem compensateRun (job : Sdk.CompensateRunJob) : Q (Sdk.compensateRun job).run := by
  have passes : ∀ fuel pass, Q (Sdk.compensatePasses job.drainer job.runId pass fuel).run := by
    intro fuel
    induction fuel with
    | zero => exact fun _ => numbered.done _
    | succ fuel inductionHypothesis =>
      intro pass
      refine numbered.called (numbered.plain _ rfl) fun obligations => ?_
      simp only
      split
      · exact numbered.done _
      refine numbered.composable.exceptBind (numbered.compensateAll ..) fun _ => ?_
      exact numbered.composable.exceptBind (inductionHypothesis (pass + 1)) fun _ => numbered.done _
  refine numbered.calledFound (numbered.endRun ..) fun _ => ?_
  refine numbered.composable.exceptBind (passes _ _) fun outcomes => ?_
  refine numbered.called (numbered.plain _ rfl) fun obligations => ?_
  refine numbered.calledFound (numbered.endRun ..) fun _ => ?_
  split
  · exact numbered.done _
  · exact numbered.done _

/-! ## The matcher -/

theorem matcherDispatch (tick : Matcher.Tick) (r : Reaction) (e : EventEntry) : Q (Matcher.dispatch tick r e).run := by
  have tasks : ∀ s : TaskStmt, s.isRetry = false → Q (Prog.perform (.task s)) := fun s _ => numbered.plain _ rfl
  have coalesces : ∀ windowMs, Q (Matcher.coalesce r e windowMs).run := by
    intro windowMs
    refine ite_of (numbered.seq (numbered.composable.orElse (numbered.plain _ rfl)) fun found => ?_) (numbered.done _)
    cases found with
    | none => exact numbered.done _
    | some prev =>
      refine ite_of (numbered.seq (numbered.composable.orElse ?_) fun _ => numbered.done _) (numbered.done _)
      exact coalesceTask_of numbered.composable tasks
  have task : ∀ around, Q (Matcher.dispatchTask r e around).run := by
    intro around
    refine numbered.seq (coalesces _) fun coalesced => ite_of (numbered.done _) (numbered.composable.orElse ?_)
    exact numbered.seq (createTask_of numbered.composable tasks) fun _ => numbered.done _
  unfold Matcher.dispatch
  simp only
  split
  · exact numbered.composable.orElse (numbered.seq (numbered.beginRun ..) fun _ => numbered.done _)
  · exact task _
  · exact task _
  · exact numbered.done _

theorem matcherStep (tick : Matcher.Tick) : Q (Matcher.step tick).run := by
  have read : ∀ reactionId shards shard, Q (Matcher.readCursors reactionId shard shards).run := by
    intro reactionId shards
    induction shards with
    | zero => exact fun _ => numbered.done _
    | succ shards inductionHypothesis =>
      intro shard
      refine numbered.seq (numbered.step rfl fun _ => numbered.done _) fun _ => ?_
      exact numbered.seq (inductionHypothesis _) fun _ => numbered.done _
  have positioned : ∀ reactions, Q (Matcher.withCursors reactions).run := by
    intro reactions
    induction reactions with
    | nil => exact numbered.done _
    | cons r reactions inductionHypothesis =>
      exact numbered.seq (read _ _ _) fun _ => numbered.seq inductionHypothesis fun _ => numbered.done _
  have entriesOf : ∀ r entries cursors, Q (Matcher.processEntries tick r entries cursors).run := by
    intro r entries
    induction entries with
    | nil => exact fun _ => numbered.done _
    | cons e entries inductionHypothesis =>
      intro cursors
      unfold Matcher.processEntries
      refine ite_of (inductionHypothesis _) (ite_of (inductionHypothesis _) ?_)
      exact numbered.seq (numbered.matcherDispatch tick r e) fun _ => inductionHypothesis _
  have persists : ∀ reactionId pairs shard, Q (Matcher.persistCursors tick reactionId shard pairs).run := by
    intro reactionId pairs
    induction pairs with
    | nil => exact fun _ => numbered.done _
    | cons pair pairs inductionHypothesis =>
      intro shard
      unfold Matcher.persistCursors
      refine ite_of (numbered.seq (numbered.composable.orElse ?_) fun _ => inductionHypothesis _) (inductionHypothesis _)
      exact numbered.step rfl fun _ => numbered.done _
  have all : ∀ entries positions, Q (Matcher.processReactions tick entries positions).run := by
    intro entries positions
    induction positions with
    | nil => exact numbered.done _
    | cons position positions inductionHypothesis =>
      refine numbered.seq (numbered.seq (entriesOf _ _ _) fun _ => persists _ _ _) fun _ => inductionHypothesis
  refine numbered.step rfl fun reactions => ite_of (numbered.done _) (numbered.seq (positioned _) fun positions => ?_)
  refine numbered.seq (numbered.composable.orElse (numbered.plain _ rfl)) fun _ => ?_
  exact numbered.step rfl fun entries => ite_of (numbered.done _) (all _ _)

/-- **The walk over all calls.** -/
theorem call (consume : ∀ runId gateName, Q (Prog.perform (.signal (.consume runId gateName))))
    (compacts : ∀ runId tsMs, Q (RunStore.compactRun runId tsMs).run) (call : Call)
    (records : ∀ runId decisionIndex model requestJson responseJson rationale policyVersion ts,
      call = .recordDecision runId decisionIndex model requestJson responseJson rationale policyVersion ts → Q call.body) :
    Q call.body := by
  cases call with
  | followJournal => exact numbered.followJournal ..
  | followSubject => exact numbered.followSubject ..
  | subscribeEvents => exact numbered.subscribeEvents ..
  | watchValue => exact numbered.watchValue ..
  | dispatchOne job => exact numbered.dispatchOne job
  | reconcileOnce job => exact numbered.reconcileOnce job
  | fireDueTimersOnce job => exact numbered.fireDueTimersOnce job
  | compensateOnce => exact numbered.compensateOnce ..
  | compensateRun job => exact numbered.compensateRun job
  | matcherStep tick => exact numbered.matcherStep tick
  | _ => exact numbered.method rfl (fun _ _ _ _ _ => consume _ _) compacts records

end Tape.Numbered
