import Tape.Matcher.Step
import Tape.Sdk.Outbox
import Tape.Sdk.Reactors

/-! # The deployment

Any number of clients, dispatchers, reactors and journal readers over one
database.  `Call` lists what a process can be started on: a store method with its
arguments, or one of the SDK's and the server's longer-running procedures.
`tape` is their interleaving, one act at a time.
-/

namespace Tape

open Interleave

/-! ## Following the journal

The loops of the matcher over the raw journal, and of `SubscribeEvents` and
`SubscribeBySubject`: poll from the cursor, hand out the batch, move the cursor to the
largest `global_seq` of the batch.  The matcher polls again after a failed poll; for a
subscription it ends the stream.
-/

/-- `from = from.max(e.global_seq)`, over a batch. -/
def advanceCursor (cursor : Int) (batch : List EventEntry) : Int :=
  batch.foldl (fun cursor e => max cursor e.globalSeq) cursor

def followJournal (limit : Int) : Nat → Int → StoreM Int
  | 0, cursor => return cursor
  | polls + 1, cursor => do
    let batch ← orElse (RunStore.readJournalAfter cursor limit) []
    followJournal limit polls (advanceCursor cursor batch)

def followSubject (pattern : String) (limit : Int) : Nat → Int → StoreM Int
  | 0, cursor => return cursor
  | polls + 1, cursor => do
    let batch ← RunStore.eventsBySubject cursor pattern limit
    followSubject pattern limit polls (advanceCursor cursor batch)

/-- `from = from.max(e.ts_ms)`, over a batch. -/
def advanceTs (fromTsMs : Int) (batch : List EventEntry) : Int :=
  batch.foldl (fun fromTsMs e => max fromTsMs e.tsMs) fromTsMs

/-- The loop of `SubscribeEvents` for `from_ts_ms`: the entries sent in so many polls.  A failed poll ends the stream. -/
def subscribeEvents (runId kind : String) : Nat → Int → StoreM (List EventEntry)
  | 0, _ => return []
  | polls + 1, fromTsMs => do
    match ← attempt (RunStore.eventsSince fromTsMs runId kind 512) with
    | none => return []
    | some batch => do
      let rest ← subscribeEvents runId kind polls (advanceTs fromTsMs batch)
      return batch ++ rest

/-- The loop of `WatchValue`: the events sent in so many polls.  A failed poll ends the stream. -/
def watchValue («namespace» key : String) : Nat → Int → Int → String → StoreM (List ValueEvent)
  | 0, _, _, _ => return []
  | polls + 1, fromVersion, prevVersion, prevValueJson => do
    match ← attempt (RunStore.getValueIfNewer «namespace» key fromVersion) with
    | some (some record) => do
      let rest ← watchValue «namespace» key polls record.version record.version record.valueJson
      return { value := record, prevVersion, prevValueJson } :: rest
    | some none => watchValue «namespace» key polls fromVersion prevVersion prevValueJson
    | none => return []

/-! ## Calls -/

inductive Call where
  | beginRun (server : Nat) (app user session invocation : String) (identity : RunIdentity)
      (leaseOwner : String) (leaseTtlMs ts : Int) (newId : String)
  | resumeRun (runId leaseOwner : String) (leaseTtlMs ts : Int)
  | endRun (server : Nat) (runId : String) (status : Int) (detailJson : String) (ts : Int)
  | getRun (runId : String)
  | listRunsToRecover (nowMs limit : Int)
  | listCompactableRuns (beforeMs limit : Int)
  | compactRun (runId : String) (tsMs : Int)
  | recordDecision (runId : String) (decisionIndex : Int)
      (model requestJson responseJson rationale policyVersion : String) (ts : Int)
  | getDecision (runId : String) (decisionIndex : Int)
  | beginEffect (server : Nat) (request : RunStore.EffectRequest) (ts : Int)
  | completeEffect (runId key : String) (status : Int) (responseJson errorJson : String) (ts : Int)
  | getEffect (runId key : String)
  | reconcileEffect (runId key : String) (status : Int) (responseJson errorJson : String) (ts : Int)
  | listEffectsToDispatch (nowMs : Int) (connector : String) (limit clock : Int)
  | claimEffectDispatch (runId key claimer : String) (leaseTtlMs nowMs clock : Int)
  | recordDispatchAttempt (runId key error : String) (nextDispatchAtMs ts : Int)
  | recordExternalObservation (runId key : String) (resolution : Int)
      (externalRef responseJson errorJson compensateOnDuplicateKind : String) (ts registerTs : Int)
  | registerCompensation (runId effectKey kind : String) (payload : Json) (compensatorRef : String)
      (maxAttempts ts : Int)
  | listObligations (runId : String) (onlyUnresolved : Bool) (statusFilter : Int)
  | listUnresolvedObligations (nowMs : Int) (includePending includeStuck includeCommittedExpired : Bool)
      (limit clock : Int)
  | claimObligation (runId : String) (obligationSeq : Int) (claimer : String) (leaseTtlMs nowMs clock : Int)
  | recordObligationAttempt (runId : String) (obligationSeq : Int) (error : String) (nextAttemptAtMs ts : Int)
  | resolveObligation (runId : String) (obligationSeq status : Int) (resultJson : String) (ts : Int)
  | awaitSignal (runId gateName payloadJson : String) (ts : Int)
  | sendSignal (runId app user session gateName resolutionJson : String) (ts : Int)
  | listPendingEffects (olderThanMs : Int) (includePending includeUnknown : Bool) (limit : Int)
  | setTimer (runId timerId : String) (fireAtMs : Int) (kind : String) (payload : Json) (ts : Int) (newId : String)
  | cancelTimer (runId timerId : String)
  | listDueTimers (nowMs limit : Int) (claim : Bool)
  | readJournalAfter (fromGlobalSeq limit : Int)
  | eventsBySubject (fromGlobalSeq : Int) (subjectPattern : String) (limit : Int)
  | followJournal (limit : Int) (polls : Nat) (cursor : Int)
  | followSubject (pattern : String) (limit : Int) (polls : Nat) (cursor : Int)
  | subscribeEvents (fromTsMs : Int) (runId kind : String) (polls : Nat)
  | watchValue («namespace» key : String) (fromVersion : Int) (polls : Nat)
  | dispatchOne (job : Sdk.DispatchJob)
  | reconcileOnce (job : Sdk.ReconcileJob)
  | fireDueTimersOnce (job : Sdk.TimerJob)
  | compensateOnce (drainer : Sdk.Drainer) (now limit : Int) (includeCommittedExpired : Bool)
  | compensateRun (job : Sdk.CompensateRunJob)
  | writeValue («namespace» key valueJson : String) (ifVersion : Int) (writer : String) (ts : Int)
  | deleteValue («namespace» key : String) (ts : Int)
  | registerReaction (request : Reaction) (bootstrapFromHead : Bool) (now : Int) (newId : String)
  | deregisterReaction (reactionId : String)
  | createTask (request : Task) (ts : Int) (newId : String)
  | claimTasks (reactionId : String) (shard : Int) (owner : String) (leaseMs max nowMs clock : Int)
  | completeTask (taskId owner : String) (ts : Int)
  | nackTask (taskId owner error : String) (permanent : Bool) (nowMs clock : Int)
  | coalesceTask (taskId : String) (sourceGlobalSeq : Int) (payload : Json) (traceId parentSpanId : String)
  | matcherStep (tick : Matcher.Tick)

namespace Call

def Out : Call → Type
  | beginRun .. => Except StoreError BeginRunResponse
  | resumeRun .. | endRun .. | getRun _ => Except StoreError (Option RunRow)
  | listRunsToRecover .. | listCompactableRuns .. => Except StoreError (List RunRow)
  | compactRun .. => Except StoreError CompactReport
  | recordDecision .. => Except StoreError DecisionRecord
  | getDecision .. => Except StoreError (Option DecisionRecord)
  | beginEffect .. => Except StoreError EffectRecord
  | completeEffect .. | getEffect .. | reconcileEffect .. | recordDispatchAttempt ..
  | recordExternalObservation .. => Except StoreError (Option EffectRecord)
  | listEffectsToDispatch .. | listPendingEffects .. => Except StoreError (List EffectRecord)
  | claimEffectDispatch .. => Except StoreError (Bool × Option EffectRecord)
  | registerCompensation .. => Except StoreError ObligationRecord
  | listObligations .. | listUnresolvedObligations .. => Except StoreError (List ObligationRecord)
  | claimObligation .. => Except StoreError (Bool × Option ObligationRecord)
  | recordObligationAttempt .. | resolveObligation .. => Except StoreError (Option ObligationRecord)
  | awaitSignal .. => Except StoreError (Bool × String)
  | sendSignal .. => Except StoreError (String × Int)
  | setTimer .. => Except StoreError TimerRecord
  | cancelTimer .. => Except StoreError Bool
  | listDueTimers .. => Except StoreError (List TimerRecord)
  | readJournalAfter .. | eventsBySubject .. => Except StoreError (List EventEntry)
  | followJournal .. | followSubject .. => Except StoreError Int
  | subscribeEvents .. => Except StoreError (List EventEntry)
  | watchValue .. => Except StoreError (List ValueEvent)
  | dispatchOne _ => Except Sdk.Status Sdk.DispatchReport
  | reconcileOnce _ | fireDueTimersOnce _ => Except Sdk.Status Unit
  | compensateOnce .. => Except Sdk.Status (List Sdk.CompensateOutcome)
  | compensateRun _ => Except Sdk.Status RunStatus
  | writeValue .. => Except StoreError ValueRecord
  | deleteValue .. => Except StoreError (Bool × Int)
  | registerReaction .. => Except StoreError Reaction
  | deregisterReaction _ => Except StoreError Bool
  | createTask .. => Except StoreError Task
  | claimTasks .. => Except StoreError (List Task)
  | completeTask .. | nackTask .. | coalesceTask .. => Except StoreError (Option Task)
  | matcherStep _ => Except StoreError Unit

def body : (call : Call) → Prog Act Act.Res call.Out
  | beginRun server app user session invocation identity leaseOwner leaseTtlMs ts newId =>
    RunStore.beginRun server app user session invocation identity leaseOwner leaseTtlMs ts newId
  | resumeRun runId leaseOwner leaseTtlMs ts => RunStore.resumeRun runId leaseOwner leaseTtlMs ts
  | endRun server runId status detailJson ts => RunStore.endRun server runId status detailJson ts
  | getRun runId => RunStore.getRun runId
  | listRunsToRecover nowMs limit => RunStore.listRunsToRecover nowMs limit
  | listCompactableRuns beforeMs limit => RunStore.listCompactableRuns beforeMs limit
  | compactRun runId tsMs => RunStore.compactRun runId tsMs
  | recordDecision runId decisionIndex model requestJson responseJson rationale policyVersion ts =>
    RunStore.recordDecision runId decisionIndex model requestJson responseJson rationale policyVersion ts
  | getDecision runId decisionIndex => RunStore.getDecision runId decisionIndex
  | beginEffect server request ts => RunStore.beginEffect server request ts
  | completeEffect runId key status responseJson errorJson ts =>
    RunStore.completeEffect runId key status responseJson errorJson ts
  | getEffect runId key => RunStore.getEffect runId key
  | reconcileEffect runId key status responseJson errorJson ts =>
    RunStore.reconcileEffect runId key status responseJson errorJson ts
  | listEffectsToDispatch nowMs connector limit clock =>
    RunStore.listEffectsToDispatch nowMs connector limit clock
  | claimEffectDispatch runId key claimer leaseTtlMs nowMs clock =>
    RunStore.claimEffectDispatch runId key claimer leaseTtlMs nowMs clock
  | recordDispatchAttempt runId key error nextDispatchAtMs ts =>
    RunStore.recordDispatchAttempt runId key error nextDispatchAtMs ts
  | recordExternalObservation runId key resolution externalRef responseJson errorJson kind ts registerTs =>
    RunStore.recordExternalObservation runId key resolution externalRef responseJson errorJson kind ts
      registerTs
  | registerCompensation runId effectKey kind payload compensatorRef maxAttempts ts =>
    RunStore.registerCompensation runId effectKey kind payload compensatorRef maxAttempts ts
  | listObligations runId onlyUnresolved statusFilter =>
    RunStore.listObligations runId onlyUnresolved statusFilter
  | listUnresolvedObligations nowMs pending stuck committedExpired limit clock =>
    RunStore.listUnresolvedObligations nowMs pending stuck committedExpired limit clock
  | claimObligation runId obligationSeq claimer leaseTtlMs nowMs clock =>
    RunStore.claimObligation runId obligationSeq claimer leaseTtlMs nowMs clock
  | recordObligationAttempt runId obligationSeq error nextAttemptAtMs ts =>
    RunStore.recordObligationAttempt runId obligationSeq error nextAttemptAtMs ts
  | resolveObligation runId obligationSeq status resultJson ts =>
    RunStore.resolveObligation runId obligationSeq status resultJson ts
  | awaitSignal runId gateName payloadJson ts => RunStore.awaitSignal runId gateName payloadJson ts
  | sendSignal runId app user session gateName resolutionJson ts =>
    RunStore.sendSignal runId app user session gateName resolutionJson ts
  | listPendingEffects olderThanMs includePending includeUnknown limit =>
    RunStore.listPendingEffects olderThanMs includePending includeUnknown limit
  | setTimer runId timerId fireAtMs kind payload ts newId =>
    RunStore.setTimer runId timerId fireAtMs kind payload ts newId
  | cancelTimer runId timerId => RunStore.cancelTimer runId timerId
  | listDueTimers nowMs limit claim => RunStore.listDueTimers nowMs limit claim
  | readJournalAfter fromGlobalSeq limit => RunStore.readJournalAfter fromGlobalSeq limit
  | eventsBySubject fromGlobalSeq subjectPattern limit =>
    RunStore.eventsBySubject fromGlobalSeq subjectPattern limit
  | followJournal limit polls cursor => Tape.followJournal limit polls cursor
  | followSubject pattern limit polls cursor => Tape.followSubject pattern limit polls cursor
  | subscribeEvents fromTsMs runId kind polls => Tape.subscribeEvents runId kind polls fromTsMs
  | watchValue «namespace» key fromVersion polls => Tape.watchValue «namespace» key polls fromVersion 0 ""
  | dispatchOne job => Sdk.dispatchOne job
  | reconcileOnce job => Sdk.reconcileOnce job
  | fireDueTimersOnce job => Sdk.fireDueTimersOnce job
  | compensateOnce drainer now limit includeCommittedExpired =>
    Sdk.compensateOnce drainer now limit includeCommittedExpired
  | compensateRun job => Sdk.compensateRun job
  | writeValue «namespace» key valueJson ifVersion writer ts =>
    RunStore.writeValue «namespace» key valueJson ifVersion writer ts
  | deleteValue «namespace» key ts => RunStore.deleteValue «namespace» key ts
  | registerReaction request bootstrapFromHead now newId =>
    RunStore.registerReaction request bootstrapFromHead now newId
  | deregisterReaction reactionId => RunStore.deregisterReaction reactionId
  | createTask request ts newId => RunStore.createTask request ts newId
  | claimTasks reactionId shard owner leaseMs max nowMs clock =>
    RunStore.claimTasks reactionId shard owner leaseMs max nowMs clock
  | completeTask taskId owner ts => RunStore.completeTask taskId owner ts
  | nackTask taskId owner error permanent nowMs clock =>
    RunStore.nackTask taskId owner error permanent nowMs clock
  | coalesceTask taskId sourceGlobalSeq payload traceId parentSpanId =>
    RunStore.coalesceTask taskId sourceGlobalSeq payload traceId parentSpanId
  | matcherStep tick => Matcher.step tick

end Call

def tape : System World Act Act.Res Call Call.Out where
  exec := Act.exec
  fault := Act.fault
  body := Call.body

abbrev TapeConfig : Type := Config World Act Act.Res Call Call.Out

abbrev TapeHist : Type := Hist World Act Act.Res

abbrev TapeEvent : Type := Event Act Act.Res

/-- A database without any process running, and nothing executed yet. -/
def quiet (w : World) : TapeConfig where
  state := w
  log := []
  pool := []

/-- Start `call` as thread `tid` and let it execute `steps` acts on its own. -/
def serve (tid : Nat) (call : Call) (steps : Nat := 16) : List (Choice Call) :=
  .spawn call :: List.replicate steps (.exec tid)

/-- What was executed on the way from `c` to `c'`. -/
def eventsSince (c c' : TapeConfig) : List TapeEvent := c'.log.take (c'.log.length - c.log.length)

theorem eventsSince_of_append {c c' : TapeConfig} {new : List TapeEvent} (grown : c'.log = new ++ c.log) :
    eventsSince c c' = new := by
  rw [eventsSince, grown, List.length_append, Nat.add_sub_cancel, List.take_left]

@[simp] theorem quiet_state (w : World) : (quiet w).state = w := rfl

@[simp] theorem quiet_log (w : World) : (quiet w).log = [] := rfl

@[simp] theorem quiet_pool (w : World) : (quiet w).pool = [] := rfl

theorem quiet_owned (w : World) : (quiet w).Owned := fun _ member => (List.not_mem_nil member).elim

/-! ## Running alone -/

section Alone

variable {α β : Type} {w w' : World}

theorem alone_seq {action : StoreM α} {f : α → StoreM β} {value : α}
    (first : tape.alone action.run w = (.ok value, w')) :
    tape.alone (action >>= f).run w = tape.alone (f value).run w' := System.alone_exceptBind tape first

theorem alone_seq_error {action : StoreM α} {f : α → StoreM β} {e : StoreError}
    (first : tape.alone action.run w = (.error e, w')) : tape.alone (action >>= f).run w = (.error e, w') := by
  have bound := tape.alone_bind action.run (ExceptT.bindCont f) w
  rw [first] at bound
  exact bound

/-- A sequence that succeeds alone succeeded in both parts. -/
theorem alone_seq_ok {action : StoreM α} {f : α → StoreM β} {value : β}
    (both : tape.alone (action >>= f).run w = (.ok value, w')) :
    ∃ first between, tape.alone action.run w = (.ok first, between) ∧
      tape.alone (f first).run between = (.ok value, w') := by
  cases done : tape.alone action.run w with
  | mk result between =>
    cases result with
    | error e =>
      rw [alone_seq_error done] at both
      cases both
    | ok first => exact ⟨first, between, rfl, (alone_seq done).symm.trans both⟩

theorem alone_query {s : Stmt} {f : s.Res → StoreM α} {w : World} {value : s.Res}
    (answer : (s.exec w).1 = .ok value) :
    tape.alone (s.query >>= f).run w = tape.alone (f value).run (s.exec w).2 :=
  alone_seq (Prod.ext answer rfl)

/-- A failure that is swallowed leaves what was done before it. -/
theorem alone_orElse (action : StoreM α) (default : α) (w : World) :
    tape.alone (orElse action default).run w =
      (.ok ((tape.alone action.run w).1.toOption.getD default), (tape.alone action.run w).2) := by
  refine (tape.alone_bind action.run _ w).trans ?_
  cases (tape.alone action.run w).1 <;> rfl

end Alone

/-! ## What one act does to one row

An act leaves every table but the one its statement is on.  A row that exists is never
deleted; the statement changes it by its `SET` clause or not at all.  A row that appears
was inserted.
-/

section Rows

variable {act : Act} {w w' : World} {res : act.Res}

theorem answers_cases (answers : tape.Answers act w res w') :
    (res = (act.exec w).1 ∧ w' = (act.exec w).2) ∨ (act.fault = some res ∧ w' = w) := by
  cases answers with
  | exec => exact .inl ⟨rfl, rfl⟩
  | fault failed => exact .inr ⟨failed, rfl⟩

/-- A statement that answered with a value was executed. -/
theorem exec_of_ok {s : Stmt} {value : s.Res} (answers : tape.Answers (.sql s) w (.ok value) w') :
    .ok value = (s.exec w).1 ∧ w' = (s.exec w).2 := by
  rcases answers_cases answers with executed | ⟨failed, _⟩
  · exact executed
  · cases failed

/-- Only a statement on the runs changes them. -/
theorem runs_cases (answers : tape.Answers act w res w') :
    w'.runs = w.runs ∨ ∃ s, act = .run s ∧ res = (act.exec w).1 ∧ w' = (act.exec w).2 := by
  cases answers with
  | fault _ => exact .inl rfl
  | exec =>
    rcases act with (s | s | s | s | s | s | s | s | s | s | s) | _ | _
    case sql.run => exact .inr ⟨s, rfl, rfl, rfl⟩
    all_goals exact .inl rfl

theorem run_of_answers (answers : tape.Answers act w res w') {runId : String} {row : RunRow}
    (found : w.runs.find? runId = some row) :
    w'.runs.find? runId = some row ∨
      ∃ s, act = .run s ∧ res = (act.exec w).1 ∧ w' = (act.exec w).2 ∧ w'.runs.find? runId = some (s.apply row) := by
  rcases runs_cases answers with same | ⟨s, rfl, rfl, rfl⟩
  · exact .inl (by rw [same, found])
  · exact .inr ⟨s, rfl, rfl, rfl, RunStmt.find?_exec_of_some found⟩

theorem run_inserted_of_answers (answers : tape.Answers act w res w') {runId : String} {row : RunRow}
    (absent : w.runs.find? runId = none) (found : w'.runs.find? runId = some row) :
    act = .run (.insertRun row) ∧ row.runId = runId := by
  rcases runs_cases answers with same | ⟨s, rfl, -, rfl⟩
  · simp [same, absent] at found
  · obtain ⟨rfl, same⟩ := RunStmt.insert_of_find?_exec absent found
    exact ⟨rfl, same⟩

/-- A run of the table was there, as it is or changed by the act, or the act inserted it. -/
theorem run_origin (answers : tape.Answers act w res w') {row' : RunRow} (member : row' ∈ w'.runs.rows) :
    (∃ row ∈ w.runs.rows, row' = row ∨ ∃ s, act = .run s ∧ row' = s.apply row) ∨ act = .run (.insertRun row') := by
  have found' := Sql.Table.find?_key_of_mem member
  cases found : w.runs.find? row'.runId with
  | none => exact .inr (run_inserted_of_answers answers found found').1
  | some row =>
    refine .inl ⟨row, Sql.Table.mem_of_find? found, ?_⟩
    rcases run_of_answers answers found with kept | ⟨s, isRun, -, -, changed⟩
    · exact .inl (Option.some.inj (found'.symm.trans kept))
    · exact .inr ⟨s, isRun, Option.some.inj (found'.symm.trans changed)⟩

/-- Only a statement on the effects changes them. -/
theorem effects_cases (answers : tape.Answers act w res w') :
    w'.effects = w.effects ∨ ∃ s, act = .effect s ∧ res = (act.exec w).1 ∧ w' = (act.exec w).2 := by
  cases answers with
  | fault _ => exact .inl rfl
  | exec =>
    rcases act with (s | s | s | s | s | s | s | s | s | s | s) | _ | _
    case sql.effect => exact .inr ⟨s, rfl, rfl, rfl⟩
    all_goals exact .inl rfl

theorem effect_of_answers (answers : tape.Answers act w res w') {pk : String × String}
    {row : EffectRecord} (found : w.effects.find? pk = some row) :
    w'.effects.find? pk = some row ∨
      ∃ s, act = .effect s ∧ res = (act.exec w).1 ∧ w' = (act.exec w).2 ∧ w'.effects.find? pk = some (s.apply row) := by
  rcases effects_cases answers with same | ⟨s, rfl, rfl, rfl⟩
  · exact .inl (by rw [same, found])
  · exact .inr ⟨s, rfl, rfl, rfl, EffectStmt.find?_exec_of_some found⟩

theorem effect_inserted_of_answers (answers : tape.Answers act w res w') {pk : String × String}
    {row : EffectRecord} (absent : w.effects.find? pk = none) (found : w'.effects.find? pk = some row) :
    act = .effect (.insertEffect row) ∧ row.pk = pk := by
  rcases effects_cases answers with same | ⟨s, rfl, -, rfl⟩
  · simp [same, absent] at found
  · obtain ⟨rfl, same⟩ := EffectStmt.insert_of_find?_exec absent found
    exact ⟨rfl, same⟩

/-- Only a statement on the decisions changes them. -/
theorem decisions_cases (answers : tape.Answers act w res w') :
    w'.decisions = w.decisions ∨ ∃ s, act = .decision s ∧ res = (act.exec w).1 ∧ w' = (act.exec w).2 := by
  cases answers with
  | fault _ => exact .inl rfl
  | exec =>
    rcases act with (s | s | s | s | s | s | s | s | s | s | s) | _ | _
    case sql.decision => exact .inr ⟨s, rfl, rfl, rfl⟩
    all_goals exact .inl rfl

theorem decision_of_answers (answers : tape.Answers act w res w') {pk : String × Int}
    {row : DecisionRecord} (found : w.decisions.find? pk = some row) :
    w'.decisions.find? pk = some row ∨
      (act = .decision (.zeroDecisions pk.1) ∧
        w'.decisions.find? pk = some (DecisionStmt.zero.apply row)) := by
  rcases decisions_cases answers with same | ⟨s, rfl, -, rfl⟩
  · exact .inl (by rw [same, found])
  · rcases DecisionStmt.find?_exec_of_some (s := s) found with kept | ⟨rfl, zeroed⟩
    · exact .inl kept
    · exact .inr ⟨rfl, zeroed⟩

/-- Only a statement on the obligations changes them. -/
theorem obligations_cases (answers : tape.Answers act w res w') :
    w'.obligations = w.obligations ∨ ∃ s, act = .obligation s ∧ res = (act.exec w).1 ∧ w' = (act.exec w).2 := by
  cases answers with
  | fault _ => exact .inl rfl
  | exec =>
    rcases act with (s | s | s | s | s | s | s | s | s | s | s) | _ | _
    case sql.obligation => exact .inr ⟨s, rfl, rfl, rfl⟩
    all_goals exact .inl rfl

theorem obligation_of_answers (answers : tape.Answers act w res w') {pk : String × Int}
    {row : ObligationRecord} (found : w.obligations.find? pk = some row) :
    w'.obligations.find? pk = some row ∨
      ∃ s, act = .obligation s ∧ res = (act.exec w).1 ∧ w' = (act.exec w).2 ∧ w'.obligations.find? pk = some (s.apply row) := by
  rcases obligations_cases answers with same | ⟨s, rfl, rfl, rfl⟩
  · exact .inl (by rw [same, found])
  · exact .inr ⟨s, rfl, rfl, rfl, ObligationStmt.find?_exec_of_some found⟩

theorem obligation_inserted_of_answers (answers : tape.Answers act w res w') {pk : String × Int}
    {row : ObligationRecord} (absent : w.obligations.find? pk = none)
    (found : w'.obligations.find? pk = some row) :
    act = .obligation (.insertObligation row) ∧ row.pk = pk := by
  rcases obligations_cases answers with same | ⟨s, rfl, -, rfl⟩
  · simp [same, absent] at found
  · obtain ⟨rfl, same⟩ := ObligationStmt.insert_of_find?_exec absent found
    exact ⟨rfl, same⟩

/-- Only a statement on the gates changes them. -/
theorem signals_cases (answers : tape.Answers act w res w') :
    w'.signals = w.signals ∨ ∃ s, act = .signal s ∧ res = (act.exec w).1 ∧ w' = (act.exec w).2 := by
  cases answers with
  | fault _ => exact .inl rfl
  | exec =>
    rcases act with (s | s | s | s | s | s | s | s | s | s | s) | _ | _
    case sql.signal => exact .inr ⟨s, rfl, rfl, rfl⟩
    all_goals exact .inl rfl

theorem signal_of_answers (answers : tape.Answers act w res w') {pk : String × String} {row : SignalRow}
    (found : w.signals.find? pk = some row) :
    w'.signals.find? pk = some row ∨ ∃ s, act = .signal s ∧ w'.signals.find? pk = some (s.apply row) := by
  rcases signals_cases answers with same | ⟨s, rfl, -, rfl⟩
  · exact .inl (by rw [same, found])
  · exact .inr ⟨s, rfl, SignalStmt.find?_exec_of_some found⟩

theorem signal_inserted_of_answers (answers : tape.Answers act w res w') {pk : String × String} {row : SignalRow}
    (absent : w.signals.find? pk = none) (found : w'.signals.find? pk = some row) :
    (∃ ts, act = .signal (.awaitGate pk.1 pk.2 row.contextJson ts) ∧ row.delivered = 0 ∧ row.awaited = 1 ∧
        row.consumed = 0) ∨
      ∃ ts, act = .signal (.deliver pk.1 pk.2 row.resolutionJson ts) ∧ row.delivered = 1 ∧ row.awaited = 0 ∧
        row.consumed = 0 := by
  rcases signals_cases answers with same | ⟨s, rfl, -, rfl⟩
  · simp [same, absent] at found
  · rcases SignalStmt.insert_of_find?_exec absent found with ⟨ts, rfl, columns⟩ | ⟨ts, rfl, columns⟩
    · exact .inl ⟨ts, rfl, columns⟩
    · exact .inr ⟨ts, rfl, columns⟩

/-- Only a statement on the tasks changes them. -/
theorem tasks_cases (answers : tape.Answers act w res w') :
    w'.tasks = w.tasks ∨ ∃ s, act = .task s ∧ res = (act.exec w).1 ∧ w' = (act.exec w).2 := by
  cases answers with
  | fault _ => exact .inl rfl
  | exec =>
    rcases act with (s | s | s | s | s | s | s | s | s | s | s) | _ | _
    case sql.task => exact .inr ⟨s, rfl, rfl, rfl⟩
    all_goals exact .inl rfl

theorem task_of_answers (answers : tape.Answers act w res w') {taskId : String} {row : Task}
    (found : w.tasks.find? taskId = some row) :
    w'.tasks.find? taskId = some row ∨
      ∃ s, act = .task s ∧ s.selects row ∧ res = (act.exec w).1 ∧ w' = (act.exec w).2 ∧
        w'.tasks.find? taskId = some (s.assign row) := by
  rcases tasks_cases answers with same | ⟨s, rfl, rfl, rfl⟩
  · exact .inl (by rw [same, found])
  · rcases TaskStmt.find?_exec_of_some (s := s) found with kept | ⟨selected, changed⟩
    · exact .inl kept
    · exact .inr ⟨s, rfl, selected, rfl, rfl, changed⟩

theorem task_inserted_of_answers (answers : tape.Answers act w res w') {taskId : String} {row : Task}
    (absent : w.tasks.find? taskId = none) (found : w'.tasks.find? taskId = some row) :
    act = .task (.insertTask row) ∧ row.taskId = taskId ∧ ∀ old ∈ w.tasks.rows, old.slot ≠ row.slot := by
  rcases tasks_cases answers with same | ⟨s, rfl, -, rfl⟩
  · simp [same, absent] at found
  · obtain ⟨rfl, inserted⟩ := TaskStmt.insert_of_find?_exec absent found
    exact ⟨rfl, inserted⟩

/-- A task stays in the table, as it was or changed by the act. -/
theorem task_kept (answers : tape.Answers act w res w') {task : Task} (member : task ∈ w.tasks.rows) :
    ∃ task' ∈ w'.tasks.rows, task' = task ∨ ∃ s, act = .task s ∧ s.selects task ∧ task' = s.assign task := by
  rcases task_of_answers answers (Sql.Table.find?_key_of_mem member) with kept | ⟨s, isTask, selected, -, -, changed⟩
  · exact ⟨task, Sql.Table.mem_of_find? kept, .inl rfl⟩
  · exact ⟨_, Sql.Table.mem_of_find? changed, .inr ⟨s, isTask, selected, rfl⟩⟩

/-- A task of the table was there, as it is or changed by the act, or the act inserted it. -/
theorem task_origin (answers : tape.Answers act w res w') {task' : Task} (member : task' ∈ w'.tasks.rows) :
    (∃ task ∈ w.tasks.rows, task' = task ∨ ∃ s, act = .task s ∧ s.selects task ∧ task' = s.assign task) ∨
      act = .task (.insertTask task') := by
  have found' := Sql.Table.find?_key_of_mem member
  cases found : w.tasks.find? task'.taskId with
  | none => exact .inr (task_inserted_of_answers answers found found').1
  | some task =>
    refine .inl ⟨task, Sql.Table.mem_of_find? found, ?_⟩
    rcases task_of_answers answers found with kept | ⟨s, isTask, selected, -, -, changed⟩
    · exact .inl (Option.some.inj (found'.symm.trans kept))
    · exact .inr ⟨s, isTask, selected, Option.some.inj (found'.symm.trans changed)⟩

/-- After `INSERT … ON CONFLICT DO NOTHING` a task has the slot. -/
theorem slot_filled_of_insertTask {row : Task} {n : Nat}
    (answers : tape.Answers (.task (.insertTask row)) w (.ok n) w') : ∃ task ∈ w'.tasks.rows, task.slot = row.slot := by
  obtain ⟨executed, rfl⟩ := exec_of_ok answers
  simp only [Stmt.exec, TaskStmt.exec] at executed ⊢
  split
  next taken =>
    obtain ⟨old, member, same⟩ := List.any_eq_true.mp taken
    exact ⟨old, member, of_decide_eq_true same⟩
  next free =>
    rw [if_neg free] at executed
    split
    next inserted accepted =>
      obtain ⟨table, isInsert, checked⟩ := Option.bind_eq_some_iff.mp accepted
      refine ⟨row, ?_, rfl⟩
      rw [Sql.UniqueTable.toTable_of_check checked, Sql.Table.rows_insert isInsert]
      exact List.mem_append_right _ List.mem_cons_self
    next refused =>
      rw [refused] at executed
      cases executed

end Rows

end Tape
