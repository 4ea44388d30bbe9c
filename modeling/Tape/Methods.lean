import Tape.Rules

/-! # The methods of the store

Every method of `SqlRunStore` is put together from plain acts and from journal entries,
each under a number that the same method drew from the run's sequence before.  `Numbered`
says what a property of programs has to be closed under for that; `Numbered.method` is
the one walk over the methods.
-/

namespace Tape

open Interleave

/-- The act blanks the payloads of a run. -/
def isBlanking : Act → Bool
  | .sql (.decision (.zeroDecisions _)) | .sql (.effect (.zeroEffects _)) => true
  | _ => false

/-- No sequence number is drawn, no journal entry inserted, no signal consumed and nothing blanked; a run is
    created with its sequence at zero. -/
def isPlain : Act → Bool
  | .sql (.run (.insertRun row)) => row.seqCursor = 0
  | .sql (.run (.bumpSeq _)) | .sql (.run (.readSeq _)) | .sql (.journal (.insertEntry _))
  | .sql (.signal (.consume ..)) | .sql (.decision (.zeroDecisions _)) | .sql (.effect (.zeroEffects _)) => false
  | _ => true

/-- The methods of `SqlRunStore`, as opposed to the processes built on them. -/
def isMethod : Call → Bool
  | .followJournal .. | .followSubject .. | .subscribeEvents .. | .watchValue .. | .dispatchOne _ | .reconcileOnce _
  | .fireDueTimersOnce _ | .compensateOnce .. | .compensateRun _ | .matcherStep _ => false
  | _ => true

/-- `Q` passes through sequencing and holds of the plain acts.  `R runId seq` is `Q` for a program that
    starts with number `seq` of the run in hand. -/
structure Numbered (Q : {α : Type} → Prog Act Act.Res α → Prop)
    (R : String → Int → {α : Type} → Prog Act Act.Res α → Prop) : Prop where
  composable : Prog.Composable Q
  plain : ∀ act, isPlain act → Q (Prog.perform act)
  nextSeq : ∀ {α : Type} {f : Int → StoreM α} (runId : String), (∀ seq, R runId seq (f seq).run) →
    Q (RunStore.nextSeq runId >>= f).run
  nextSeqOr : ∀ {α : Type} {f : Int → StoreM α} (runId : String), (∀ seq, R runId seq (f seq).run) →
    Q (orElse (RunStore.nextSeq runId) 0 >>= f).run
  query : ∀ {α : Type} {s : Stmt} {f : s.Res → StoreM α} {runId : String} {seq : Int}, isPlain (.sql s) →
    (∀ value, R runId seq (f value).run) → R runId seq (s.query >>= f).run
  /-- The entry of a decision is left to `Numbered.recordDecision`. -/
  journal : ∀ (runId : String) (seq : Int) (kind : String) (payload : Json) (ts : Int), Written kind payload →
    kind ≠ "decision" → R runId seq (RunStore.journal runId seq kind payload ts).run
  rest : ∀ {α β : Type} {program : Prog Act Act.Res α} {continuation : α → Prog Act Act.Res β} {runId : String}
    {seq : Int}, R runId seq program → (∀ value, Q (continuation value)) → R runId seq (program.bind continuation)
  /-- The entry of a value change, under no run's number. -/
  unnumbered : ∀ (subject : String) (payload : Json) (ts : Int), WrittenValue payload →
    Q (RunStore.journalFull "" 0 "value" subject payload ts).run

namespace Numbered

variable {Q : {α : Type} → Prog Act Act.Res α → Prop} {R : String → Int → {α : Type} → Prog Act Act.Res α → Prop}
  (numbered : Numbered Q R)

/-- A property that asks nothing special of the numbers. -/
theorem of_housekeeping (composable : Prog.Composable Q) (plain : ∀ act, isPlain act → Q (Prog.perform act))
    (housekeeping : ∀ act, Housekeeping act → Q (Prog.perform act)) : Numbered Q fun _ _ => Q where
  composable := composable
  plain := plain
  nextSeq runId rest := composable.exceptBind (nextSeq_of composable housekeeping runId) rest
  nextSeqOr runId rest := composable.exceptBind (composable.orElse (nextSeq_of composable housekeeping runId)) rest
  query isPlain rest := composable.exceptBind (plain _ isPlain) rest
  journal runId seq kind payload ts isWritten _ :=
    journal_of composable housekeeping runId seq kind payload ts isWritten
  rest first rest := composable.bind first rest
  unnumbered _ _ _ isWritten :=
    composable.exceptBind (housekeeping _ .nextGlobalSeq) fun _ =>
      housekeeping _ (.insertEntry _ (.inr ⟨rfl, rfl, isWritten⟩))

include numbered

section Parts

variable {α β : Type} {f : α → StoreM β}

theorem step {s : Stmt} {f : s.Res → StoreM β} (isPlain : isPlain (.sql s)) (rest : ∀ value, Q (f value).run) :
    Q (s.query >>= f).run :=
  numbered.composable.exceptBind (numbered.plain _ isPlain) rest

theorem access {c : CacheOp} {f : c.Res → StoreM β} (rest : ∀ value, Q (f value).run) : Q (c.access >>= f).run :=
  numbered.composable.exceptBind (numbered.composable.bind (numbered.plain (.cache c) rfl) fun _ =>
    numbered.composable.ret _) rest

theorem seq {action : StoreM α} (first : Q action.run) (rest : ∀ value, Q (f value).run) : Q (action >>= f).run :=
  numbered.composable.exceptBind first rest

theorem pure (value : Except StoreError α) : Q (.ret value : Prog Act Act.Res (Except StoreError α)) :=
  numbered.composable.ret value

theorem entry {f : Unit → StoreM β} {runId kind : String} {seq : Int} {payload : Json} {ts : Int}
    (isWritten : Written kind payload) (other : kind ≠ "decision") (rest : ∀ value, Q (f value).run) :
    R runId seq (RunStore.journal runId seq kind payload ts >>= f).run := by
  refine numbered.rest (numbered.journal runId seq kind payload ts isWritten other) fun result => ?_
  cases result with
  | ok value => exact rest value
  | error e => exact numbered.composable.ret _

theorem entryOr {f : Unit → StoreM β} {runId kind : String} {seq : Int} {payload : Json} {ts : Int}
    (isWritten : Written kind payload) (other : kind ≠ "decision") (rest : ∀ value, Q (f value).run) :
    R runId seq (orElse (RunStore.journal runId seq kind payload ts) () >>= f).run := by
  have swallowed : R runId seq (orElse (RunStore.journal runId seq kind payload ts) ()).run := by
    refine numbered.rest (numbered.journal runId seq kind payload ts isWritten other) fun result => ?_
    cases result <;> exact numbered.composable.ret _
  refine numbered.rest swallowed fun result => ?_
  cases result with
  | ok value => exact rest value
  | error e => exact numbered.composable.ret _

/-- Draw a number, and journal under it. -/
theorem journaled {f : Unit → StoreM β} {runId kind : String} {payload : Int → Json} {ts : Int}
    (isWritten : ∀ seq, Written kind (payload seq)) (other : kind ≠ "decision") (rest : ∀ value, Q (f value).run) : Q (do
      let seq ← RunStore.nextSeq runId
      RunStore.journal runId seq kind (payload seq) ts >>= f).run :=
  numbered.nextSeq runId fun seq => numbered.entry (isWritten seq) other rest

end Parts

/-! ## The methods that journal -/

theorem registerCompensation (runId effectKey kind : String) (payload : Json) (compensatorRef : String)
    (maxAttempts ts : Int) :
    Q (RunStore.registerCompensation runId effectKey kind payload compensatorRef maxAttempts ts).run := by
  refine numbered.step rfl fun found => ?_
  cases found with
  | some recorded => exact numbered.pure _
  | none =>
    exact numbered.nextSeq runId fun _ => numbered.query rfl fun _ => numbered.entry (by constructor) (by decide) fun _ =>
      numbered.pure _

theorem admitEffect (request : RunStore.EffectRequest) (ts : Int) : Q (RunStore.admitEffect request ts).run := by
  refine numbered.step rfl fun found => ?_
  cases found with
  | some recorded => exact numbered.pure _
  | none =>
    have claimed : Q (RunStore.admitEffect.claimed request).run :=
      ite_of (numbered.plain _ rfl) (numbered.pure _)
    refine numbered.seq claimed fun other => ?_
    cases other with
    | some other => exact numbered.pure _
    | none =>
      exact numbered.nextSeq _ fun _ => numbered.query rfl fun _ => numbered.entry (by constructor) (by decide) fun _ =>
        numbered.pure _

theorem runScopesFor (server : Nat) (runId : String) : Q (RunStore.runScopesFor server runId).run := by
  refine numbered.access fun cached => ?_
  cases cached with
  | some scopes => exact numbered.pure _
  | none => exact numbered.step rfl fun _ => numbered.access fun _ => numbered.pure _

theorem beginEffect (server : Nat) (request : RunStore.EffectRequest) (ts : Int) :
    Q (RunStore.beginEffect server request ts).run := by
  unfold RunStore.beginEffect
  split
  · exact numbered.pure _
  split
  · exact numbered.pure _
  split
  · exact numbered.pure _
  split
  · exact numbered.admitEffect request ts
  refine numbered.seq (numbered.runScopesFor server request.runId) fun granted => ?_
  split
  · exact numbered.admitEffect request ts
  · exact numbered.nextSeq _ fun _ => numbered.entryOr (by constructor) (by decide) fun _ => numbered.pure _

theorem beginRun (server : Nat) (app user session invocation : String) (identity : RunIdentity)
    (leaseOwner : String) (leaseTtlMs ts : Int) (newId : String) :
    Q (RunStore.beginRun server app user session invocation identity leaseOwner leaseTtlMs ts newId).run := by
  refine numbered.step rfl fun found => ?_
  cases found with
  | some known =>
    refine numbered.step rfl fun _ => numbered.step rfl fun current => ?_
    cases current <;> exact numbered.pure _
  | none =>
    refine numbered.step rfl fun _ => numbered.access fun _ => ?_
    exact numbered.nextSeqOr newId fun _ => numbered.entryOr (by constructor) (by decide) fun _ => numbered.pure _

theorem endRun (server : Nat) (runId : String) (status : Int) (detailJson : String) (ts : Int) :
    Q (RunStore.endRun server runId status detailJson ts).run := by
  refine numbered.step rfl fun _ => numbered.access fun _ => numbered.step rfl fun found => ?_
  cases found with
  | none => exact numbered.pure _
  | some current => exact numbered.nextSeqOr runId fun _ => numbered.entryOr (by constructor) (by decide) fun _ => numbered.pure _

theorem compactRun (blanks : ∀ act, isBlanking act → Q (Prog.perform act)) (runId : String) (tsMs : Int) :
    Q (RunStore.compactRun runId tsMs).run := by
  refine numbered.step rfl fun found => ?_
  match found with
  | none => exact numbered.pure _
  | some (status, endedAtMs, compactedAtMs) =>
    simp only
    split
    · exact numbered.pure _
    split
    · exact numbered.pure _
    refine numbered.step rfl fun openObligations => ?_
    split
    · exact numbered.pure _
    refine numbered.step rfl fun unknownEffects => ?_
    split
    · exact numbered.pure _
    refine numbered.step rfl fun _ => numbered.step rfl fun _ => ?_
    refine numbered.seq (blanks _ rfl) fun _ => numbered.seq (blanks _ rfl) fun _ => numbered.step rfl fun _ => ?_
    exact numbered.nextSeqOr runId fun _ => numbered.entryOr (by constructor) (by decide) fun _ => numbered.pure _

theorem recordDecision
    (journals : ∀ runId seq payload ts, Written "decision" payload →
      R runId seq (RunStore.journal runId seq "decision" payload ts).run)
    (runId : String) (decisionIndex : Int) (model requestJson responseJson rationale policyVersion : String) (ts : Int) :
    Q (RunStore.recordDecision runId decisionIndex model requestJson responseJson rationale policyVersion ts).run := by
  refine numbered.step rfl fun found => ?_
  cases found with
  | some recorded => exact numbered.pure _
  | none =>
    refine numbered.nextSeq runId fun _ => numbered.query rfl fun _ =>
      numbered.rest (journals _ _ _ _ (by constructor)) fun result => ?_
    cases result <;> exact numbered.pure _

theorem completeEffect (runId key : String) (status : Int) (responseJson errorJson : String) (ts : Int) :
    Q (RunStore.completeEffect runId key status responseJson errorJson ts).run := by
  refine numbered.step rfl fun found => ?_
  cases found with
  | none => exact numbered.pure _
  | some existing =>
    simp only
    split
    · exact numbered.pure _
    · exact numbered.step rfl fun _ => numbered.journaled (fun _ => by constructor) (by decide) fun _ => numbered.pure _

theorem reconcileEffect (runId key : String) (status : Int) (responseJson errorJson : String) (ts : Int) :
    Q (RunStore.reconcileEffect runId key status responseJson errorJson ts).run := by
  refine numbered.step rfl fun found => ?_
  cases found with
  | none => exact numbered.pure _
  | some existing =>
    simp only
    split
    · exact numbered.pure _
    · exact numbered.step rfl fun _ => numbered.journaled (fun _ => by constructor) (by decide) fun _ => numbered.pure _

theorem recordDispatchAttempt (runId key error : String) (nextDispatchAtMs ts : Int) :
    Q (RunStore.recordDispatchAttempt runId key error nextDispatchAtMs ts).run := by
  refine numbered.step rfl fun found => ?_
  cases found with
  | none => exact numbered.pure _
  | some existing =>
    exact numbered.step rfl fun _ => numbered.journaled (fun _ => by constructor) (by decide) fun _ => numbered.plain _ rfl

theorem recordExternalObservation (runId key : String) (resolution : Int)
    (externalRef responseJson errorJson kind : String) (ts registerTs : Int) :
    Q (RunStore.recordExternalObservation runId key resolution externalRef responseJson errorJson kind ts
      registerTs).run := by
  refine numbered.step rfl fun found => ?_
  cases found with
  | none => exact numbered.pure _
  | some existing =>
    refine numbered.step rfl fun _ => numbered.journaled (fun _ => by constructor) (by decide) fun _ => ?_
    split
    · exact numbered.seq (numbered.registerCompensation ..) fun _ => numbered.plain _ rfl
    · exact numbered.plain _ rfl

theorem claimObligation (runId : String) (obligationSeq : Int) (claimer : String) (leaseTtlMs nowMs clock : Int) :
    Q (RunStore.claimObligation runId obligationSeq claimer leaseTtlMs nowMs clock).run := by
  refine numbered.step rfl fun updated => numbered.step rfl fun row => ?_
  split
  · split
    · exact numbered.journaled (fun _ => by constructor) (by decide) fun _ => numbered.pure _
    · exact numbered.pure _
  · exact numbered.pure _

theorem recordObligationAttempt (runId : String) (obligationSeq : Int) (error : String) (nextAttemptAtMs ts : Int) :
    Q (RunStore.recordObligationAttempt runId obligationSeq error nextAttemptAtMs ts).run := by
  refine numbered.step rfl fun found => ?_
  cases found with
  | none => exact numbered.pure _
  | some existing =>
    exact numbered.step rfl fun _ => numbered.journaled (fun _ => by constructor) (by decide) fun _ => numbered.plain _ rfl

theorem resolveObligation (runId : String) (obligationSeq status : Int) (resultJson : String) (ts : Int) :
    Q (RunStore.resolveObligation runId obligationSeq status resultJson ts).run := by
  refine numbered.step rfl fun found => ?_
  cases found with
  | none => exact numbered.pure _
  | some existing =>
    exact numbered.step rfl fun _ => numbered.journaled (fun _ => by constructor) (by decide) fun _ => numbered.plain _ rfl

theorem parkOnGate (runId gateName payloadJson : String) (ts : Int) :
    Q (RunStore.parkOnGate runId gateName payloadJson ts).run :=
  numbered.step rfl fun _ => numbered.nextSeq runId fun _ => numbered.query rfl fun _ =>
    numbered.entry (by constructor) (by decide) fun _ =>
    numbered.pure _

/-- The one method that consumes a signal. -/
theorem awaitSignal {runId gateName : String} (consume : Q (Prog.perform (.signal (.consume runId gateName))))
    (payloadJson : String) (ts : Int) : Q (RunStore.awaitSignal runId gateName payloadJson ts).run := by
  refine numbered.step rfl fun found => ?_
  cases found with
  | none => exact numbered.parkOnGate ..
  | some signal =>
    simp only
    split
    · exact numbered.seq consume fun _ => numbered.pure _
    · exact numbered.parkOnGate ..

theorem signalRun (runId gateName resolutionJson : String) (ts : Int) :
    Q (RunStore.signalRun runId gateName resolutionJson ts).run := by
  refine numbered.step rfl fun _ => numbered.step rfl fun gate => ?_
  cases gate with
  | none => exact numbered.pure _
  | some gate =>
    simp only
    split
    · refine numbered.step rfl fun _ => ?_
      refine numbered.seq (numbered.composable.orElse ?_) fun _ => numbered.pure _
      exact numbered.nextSeq runId fun seq => numbered.journal runId seq _ _ ts (.released gateName) (by decide)
    · exact numbered.pure _

theorem sendSignal (runId app user session gateName resolutionJson : String) (ts : Int) :
    Q (RunStore.sendSignal runId app user session gateName resolutionJson ts).run := by
  unfold RunStore.sendSignal
  split
  · exact numbered.signalRun ..
  · refine numbered.step rfl fun found => ?_
    cases found with
    | none => exact numbered.pure _
    | some latest => exact numbered.signalRun ..

/-! ## The other methods -/

theorem putValue («namespace» key valueJson writer : String) (ts : Int) :
    Q (RunStore.putValue «namespace» key valueJson writer ts).run := by
  refine numbered.step rfl fun _ => numbered.step rfl fun found => ?_
  cases found with
  | none => exact numbered.pure _
  | some record =>
    exact numbered.seq (numbered.composable.orElse (numbered.unnumbered _ _ _ (.written ..))) fun _ => numbered.pure _

theorem writeValue («namespace» key valueJson : String) (ifVersion : Int) (writer : String) (ts : Int) :
    Q (RunStore.writeValue «namespace» key valueJson ifVersion writer ts).run := by
  unfold RunStore.writeValue
  split
  · refine numbered.step rfl fun current => ?_
    simp only
    split
    · exact numbered.pure _
    · exact numbered.putValue ..
  · exact numbered.putValue ..

theorem deleteValue («namespace» key : String) (ts : Int) : Q (RunStore.deleteValue «namespace» key ts).run := by
  refine numbered.step rfl fun found => ?_
  cases found with
  | none => exact numbered.pure _
  | some record =>
    refine numbered.step rfl fun _ => numbered.step rfl fun current => ?_
    exact numbered.seq (numbered.composable.orElse (numbered.unnumbered _ _ _ (.deleted ..))) fun _ => numbered.pure _

theorem listDueTimers (nowMs limit : Int) (claim : Bool) : Q (RunStore.listDueTimers nowMs limit claim).run := by
  have claims : ∀ timers, Q (RunStore.claimTimers timers).run := by
    intro timers
    induction timers with
    | nil => exact numbered.pure _
    | cons timer timers inductionHypothesis =>
      exact numbered.step rfl fun _ => numbered.seq inductionHypothesis fun _ => numbered.pure _
  refine numbered.step rfl fun due => ?_
  cases claim with
  | true => exact claims due
  | false => exact numbered.pure _

theorem setTimer (runId timerId : String) (fireAtMs : Int) (kind : String) (payload : Json) (ts : Int)
    (newId : String) : Q (RunStore.setTimer runId timerId fireAtMs kind payload ts newId).run := by
  refine numbered.step rfl fun _ => numbered.step rfl fun found => ?_
  cases found <;> exact numbered.pure _

theorem listUnresolvedObligations (nowMs : Int) (pending stuck committedExpired : Bool) (limit clock : Int) :
    Q (RunStore.listUnresolvedObligations nowMs pending stuck committedExpired limit clock).run :=
  ite_of (numbered.plain _ rfl) (numbered.pure _)

theorem registerReaction (request : Reaction) (bootstrapFromHead : Bool) (now : Int) (newId : String) :
    Q (RunStore.registerReaction request bootstrapFromHead now newId).run := by
  have seeds : ∀ shards reactionId head first, Q (RunStore.seedCursors reactionId head now first shards).run := by
    intro shards reactionId head
    induction shards with
    | zero => exact fun _ => numbered.pure _
    | succ shards inductionHypothesis => exact fun first => numbered.step rfl fun _ => inductionHypothesis (first + 1)
  refine numbered.step rfl fun preExists => numbered.step rfl fun _ => ite_of ?_ ?_
  · refine numbered.step rfl fun head => numbered.seq (seeds _ _ _ _) fun _ => numbered.step rfl fun reactions => ?_
    split <;> exact numbered.pure _
  · refine numbered.step rfl fun reactions => ?_
    split <;> exact numbered.pure _

/-- **The walk over the methods.** -/
theorem method {call : Call} (isMethod : isMethod call)
    (consume : ∀ runId gateName payloadJson ts, call = .awaitSignal runId gateName payloadJson ts →
      Q (Prog.perform (.signal (.consume runId gateName))))
    (compacts : ∀ runId tsMs, Q (RunStore.compactRun runId tsMs).run)
    (records : ∀ runId decisionIndex model requestJson responseJson rationale policyVersion ts,
      call = .recordDecision runId decisionIndex model requestJson responseJson rationale policyVersion ts → Q call.body) :
    Q call.body := by
  have tasks : ∀ s : TaskStmt, s.isRetry = false → Q (Prog.perform (.task s)) := fun s _ => numbered.plain _ rfl
  cases call with
  | beginRun => exact numbered.beginRun ..
  | resumeRun => exact numbered.step rfl fun _ => numbered.plain _ rfl
  | endRun => exact numbered.endRun ..
  | compactRun => exact compacts ..
  | recordDecision => exact records _ _ _ _ _ _ _ _ rfl
  | beginEffect => exact numbered.beginEffect ..
  | completeEffect => exact numbered.completeEffect ..
  | reconcileEffect => exact numbered.reconcileEffect ..
  | claimEffectDispatch => exact numbered.step rfl fun _ => numbered.step rfl fun _ => numbered.pure _
  | recordDispatchAttempt => exact numbered.recordDispatchAttempt ..
  | recordExternalObservation => exact numbered.recordExternalObservation ..
  | registerCompensation => exact numbered.registerCompensation ..
  | listUnresolvedObligations => exact numbered.listUnresolvedObligations ..
  | claimObligation => exact numbered.claimObligation ..
  | recordObligationAttempt => exact numbered.recordObligationAttempt ..
  | resolveObligation => exact numbered.resolveObligation ..
  | awaitSignal => exact numbered.awaitSignal (consume _ _ _ _ rfl) _ _
  | sendSignal => exact numbered.sendSignal ..
  | setTimer => exact numbered.setTimer ..
  | cancelTimer => exact numbered.step rfl fun _ => numbered.pure _
  | listDueTimers => exact numbered.listDueTimers ..
  | eventsBySubject => exact numbered.step rfl fun _ => numbered.pure _
  | writeValue => exact numbered.writeValue ..
  | deleteValue => exact numbered.deleteValue ..
  | registerReaction => exact numbered.registerReaction ..
  | deregisterReaction => exact numbered.step rfl fun _ => numbered.pure _
  | createTask => exact createTask_of numbered.composable tasks
  | claimTasks => exact claimTasks_of numbered.composable tasks
  | completeTask => exact completeTask_of numbered.composable tasks
  | nackTask => exact nackTask_of numbered.composable tasks fun _ => numbered.plain _ rfl
  | coalesceTask => exact coalesceTask_of numbered.composable tasks
  | getRun | listRunsToRecover | listCompactableRuns | getDecision | getEffect | listEffectsToDispatch
  | listObligations | listPendingEffects | readJournalAfter => exact numbered.plain _ rfl
  | _ => cases isMethod

end Numbered

end Tape
