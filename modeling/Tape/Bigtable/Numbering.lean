import Tape.Bigtable.KeyCodec
import Tape.Bigtable.Obligations
import Tape.Bigtable.Rewrites
import Tape.Interleave.Ticket

/-! # The numbers of a run's journal

`next_seq` of the Bigtable store reads the counter in the row of the run and writes it with one more, in
two requests, and the methods that call it then write an entry of the journal under the number they
got.  An entry that is written under the key of another one takes its place.
-/

namespace Tape.BigtableRunStore.Numbering

open Interleave Bigtable
open RunStore (EffectRequest)

/-! ## Calls -/

/-- The methods that number an entry of the journal or touch the row of a run, and some that read. -/
inductive Call where
  | beginRun (i : Invocation) (identity : Identity) (leaseOwner : String) (leaseTtlMs ts : Int) (newId : String)
  | resumeRun (runId leaseOwner : String) (leaseTtlMs ts : Int)
  | endRun (runId : String) (status : Int) (detailJson : String) (ts : Int)
  | recordDecision (runId : String) (decisionIndex : Int)
      (model requestJson responseJson rationale policyVersion : String) (ts : Int)
  | getDecision (runId : String) (decisionIndex : Int)
  | beginEffect (scopesOf : String → List String) (r : EffectRequest) (ts : Int)
  | claimEffectDispatch (runId key claimer : String) (leaseTtlMs nowMs clock : Int)
  | recordDispatchAttempt (runId key error : String) (nextDispatchAtMs ts : Int)
  | recordExternalObservation (runId key : String) (resolution : Int)
      (externalRef responseJson errorJson compensateOnDuplicateKind : String) (ts registerTs : Int)
  | completeEffect (runId key : String) (status : Int) (responseJson errorJson : String) (ts : Int)
  | reconcileEffect (runId key : String) (resolvedStatus : Int) (responseJson errorJson : String) (ts : Int)
  | registerCompensation (runId effectKey kind : String) (payload : Json) (compensatorRef : String) (maxAttempts ts : Int)
  | listObligations (runId : String) (onlyUnresolved : Bool) (statusFilter : Int)
  | claimObligation (runId : String) (obligationSeq : Int) (claimer : String) (leaseTtlMs nowMs clock : Int)
  | recordObligationAttempt (runId : String) (obligationSeq : Int) (error : String) (nextAttemptAtMs ts : Int)
  | resolveObligation (runId : String) (obligationSeq status : Int) (resultJson : String) (ts : Int)
  | awaitSignal (runId gateName payloadJson : String) (ts : Int)
  | sendSignal (runId app user session gateName resolutionJson : String) (ts : Int)

namespace Call

abbrev Out : Call → Type
  | beginRun .. => Except StoreError BeginRunResponse
  | resumeRun .. | endRun .. => Except StoreError (Option RunState)
  | recordDecision .. => Except StoreError DecisionRecord
  | getDecision .. => Except StoreError (Option DecisionRecord)
  | beginEffect .. => Except StoreError EffectRecord
  | claimEffectDispatch .. => Except StoreError (Bool × Option EffectRecord)
  | recordDispatchAttempt .. | recordExternalObservation .. | completeEffect .. | reconcileEffect .. =>
    Except StoreError (Option EffectRecord)
  | registerCompensation .. => Except StoreError Obligation
  | listObligations .. => Except StoreError (List Obligation)
  | claimObligation .. => Except StoreError (Bool × Option Obligation)
  | recordObligationAttempt .. | resolveObligation .. => Except StoreError (Option Obligation)
  | awaitSignal .. => Except StoreError (Bool × String)
  | sendSignal .. => Except StoreError (String × Int)

def body : (call : Call) → Prog Op Reply call.Out
  | beginRun i identity leaseOwner leaseTtlMs ts newId =>
    BigtableRunStore.beginRun i identity leaseOwner leaseTtlMs ts newId
  | resumeRun runId leaseOwner leaseTtlMs ts => BigtableRunStore.resumeRun runId leaseOwner leaseTtlMs ts
  | endRun runId status detailJson ts => BigtableRunStore.endRun runId status detailJson ts
  | recordDecision runId decisionIndex model requestJson responseJson rationale policyVersion ts =>
    BigtableRunStore.recordDecision runId decisionIndex model requestJson responseJson rationale policyVersion ts
  | getDecision runId decisionIndex => BigtableRunStore.getDecision runId decisionIndex
  | beginEffect scopesOf r ts => BigtableRunStore.beginEffect scopesOf r ts
  | claimEffectDispatch runId key claimer leaseTtlMs nowMs clock =>
    BigtableRunStore.claimEffectDispatch runId key claimer leaseTtlMs nowMs clock
  | recordDispatchAttempt runId key error nextDispatchAtMs ts =>
    BigtableRunStore.recordDispatchAttempt runId key error nextDispatchAtMs ts
  | recordExternalObservation runId key resolution externalRef responseJson errorJson kind ts registerTs =>
    BigtableRunStore.recordExternalObservation runId key resolution externalRef responseJson errorJson kind ts registerTs
  | completeEffect runId key status responseJson errorJson ts =>
    BigtableRunStore.completeEffect runId key status responseJson errorJson ts
  | reconcileEffect runId key resolvedStatus responseJson errorJson ts =>
    BigtableRunStore.reconcileEffect runId key resolvedStatus responseJson errorJson ts
  | registerCompensation runId effectKey kind payload compensatorRef maxAttempts ts =>
    BigtableRunStore.registerCompensation runId effectKey kind payload compensatorRef maxAttempts ts
  | listObligations runId onlyUnresolved statusFilter =>
    BigtableRunStore.listObligations runId onlyUnresolved statusFilter
  | claimObligation runId obligationSeq claimer leaseTtlMs nowMs clock =>
    BigtableRunStore.claimObligation runId obligationSeq claimer leaseTtlMs nowMs clock
  | recordObligationAttempt runId obligationSeq error nextAttemptAtMs ts =>
    BigtableRunStore.recordObligationAttempt runId obligationSeq error nextAttemptAtMs ts
  | resolveObligation runId obligationSeq status resultJson ts =>
    BigtableRunStore.resolveObligation runId obligationSeq status resultJson ts
  | awaitSignal runId gateName payloadJson ts => BigtableRunStore.awaitSignal runId gateName payloadJson ts
  | sendSignal runId app user name gateName resolutionJson ts =>
    BigtableRunStore.sendSignal runId app user name gateName resolutionJson ts

/-- The id that `begin_run` makes up. -/
def newRun? : Call → Option String
  | beginRun _ _ _ _ _ newId => some newId
  | _ => none

end Call

abbrev numbering : System Contents Op Reply Call Call.Out := machine requestFailed Call.body

abbrev NumberingConfig : Type := Config Contents Op Reply Call Call.Out

/-- A table without any process running, and nothing executed yet. -/
def quiet (c : Contents) : NumberingConfig where
  state := c
  log := []
  pool := []

/-! ## Numbers and entries -/

/-- The counter in the row of a run. -/
abbrev sequence (runId : String) : Register numbering (Option String) :=
  column requestFailed Call.body (rkRun runId) "seq"

/-- What `next_seq` makes of it. -/
def nextNumber (text : Option String) : Option String := some (iv (cellI64 text + 1))

/-- The number of the entry of the run that has this key; a method whose `next_seq` failed writes entry 0. -/
def entryOf (runId key : String) : Option Int := (ordOfKey key).filter fun n => n ≠ 0 && key = rkJournal runId n

def entryWritten (runId : String) : BigtableEvent → Option Int
  | ⟨_, .mutateRow key _, .ok _⟩ => entryOf runId key
  | _ => none

/-- The entries of the run that were written, newest first. -/
def entriesWritten (runId : String) (log : List BigtableEvent) : List Int := log.filterMap (entryWritten runId)

section Keys

variable {runId other key : String} {n m : Int}

theorem pad_inj {width : Nat} (same : pad width n = pad width m) : n = m := by
  have left := signed_pad width n
  rw [same, signed_pad] at left
  exact (Option.some.inj left).symm

theorem rkRun_inj (same : rkRun runId = rkRun other) : runId = other := by
  have texts := congrArg String.toList same
  simpa [rkRun, String.toList_inj] using texts

theorem rkJournal_inj (same : rkJournal runId n = rkJournal runId m) : n = m := by
  have texts := congrArg String.toList same
  simp only [rkJournal, String.toList_append, List.append_cancel_left_eq, String.toList_inj] at texts
  exact pad_inj texts

/-- The number is at the end of the key, after the last separator. -/
theorem runId_of_rkJournal (same : rkJournal runId n = rkJournal other m) : runId = other := by
  have texts : ("j#" ++ runId).toList ++ '#' :: (pad20 n).toList = ("j#" ++ other).toList ++ '#' :: (pad20 m).toList := by
    have lists := congrArg String.toList same
    simpa [rkJournal] using lists
  have plain : '#' ∉ (pad20 n).toList := hash_not_mem_pad 20 n
  have plain' : '#' ∉ (pad20 m).toList := hash_not_mem_pad 20 m
  have numbers := congrArg (Segments.lastSegment '#') texts
  rw [Segments.lastSegment_append plain, Segments.lastSegment_append plain'] at numbers
  rw [numbers, List.append_cancel_right_eq, String.toList_inj] at texts
  have ids := congrArg String.toList texts
  simpa [String.toList_inj] using ids

theorem rkJournal_ne_rkRun : rkJournal runId n ≠ rkRun other := by
  intro same
  have texts := congrArg String.toList same
  simp [rkJournal, rkRun] at texts

theorem entryOf_eq_some (found : entryOf runId key = some n) : n ≠ 0 ∧ key = rkJournal runId n := by
  obtain ⟨-, cond⟩ := Option.filter_eq_some_iff.mp found
  simpa using cond

end Keys

/-- The entries use the numbers. -/
def entries (runId : String) : Tickets (sequence runId) where
  used event := (entryWritten runId event).map fun n => some (iv n)
  apart event isUse := by
    obtain ⟨tid, op, res⟩ := event
    cases op with
    | mutateRow key mutations =>
      cases res with
      | error e => rfl
      | ok =>
        obtain ⟨n, found⟩ := Option.isSome_iff_exists.mp (by simpa [entryWritten] using isUse)
        have other : key ≠ rkRun runId := by
          rw [(entryOf_eq_some found).2]
          exact rkJournal_ne_rkRun
        simp [column, columnWrote, other]
    | readRow | readPrefix | readRange | increment | checkAndMutateRow => simp [entryWritten] at isUse

theorem used_eq_some {runId : String} {event : BigtableEvent} {b : Option String} (isUse : (entries runId).used event = some b) :
    ∃ n, entryWritten runId event = some n ∧ some (iv n) = b := Option.map_eq_some_iff.mp isUse

/-! ## What the calls write -/

section Programs

variable {runId other key : String} {tid : Nat} {n : Int} {held : Option (Option String)} {α β : Type}

/-- The operation writes no entry of the run, and leaves its counter. -/
def Foreign (runId : String) : Op → Prop
  | .mutateRow key mutations =>
    (key = rkRun runId → mutations.all (Mutation.spares "seq")) ∧ ∀ n, key ≠ rkJournal runId n
  | .checkAndMutateRow key _ _ _ => key ≠ rkRun runId
  | _ => True

abbrev AllForeign (runId : String) (program : BigtableM α) : Prop := program.run.All (Foreign runId)

theorem AllForeign.pure (value : α) : AllForeign runId (Pure.pure value : BigtableM α) := trivial

theorem AllForeign.perform {op : Op} (foreign : Foreign runId op) : AllForeign runId (BigtableRunStore.perform op) :=
  ⟨foreign, fun _ => trivial⟩

theorem AllForeign.bind {program : BigtableM α} {continuation : α → BigtableM β} (first : AllForeign runId program)
    (rest : ∀ value, AllForeign runId (continuation value)) : AllForeign runId (program >>= continuation) :=
  Prog.All.exceptBind first rest

/-- A program of the entries' protocol, whatever its thread knows of the counter. -/
def Numbers (runId : String) (tid : Nat) (held : Option (Option String)) (program : BigtableM α) : Prop :=
  ∀ known, ((entries runId).protocol nextNumber tid).Follows (fun _ _ => True) ⟨known, held⟩ program.run

theorem wrote_of_foreign {op : Op} (foreign : Foreign runId op) (res : Reply op) :
    (sequence runId).wrote ⟨tid, op, res⟩ = none := by
  cases op with
  | readRow | readPrefix | readRange | increment => rfl
  | mutateRow key mutations =>
    cases res with
    | error e => rfl
    | ok =>
      by_cases own : key = rkRun runId
      · simp [column, columnWrote, own, Mutation.leaves_eq_none_iff, foreign.1 own]
      · simp [column, columnWrote, own]
  | checkAndMutateRow key predicate trueMutations falseMutations =>
    have own : key ≠ rkRun runId := foreign
    cases res with
    | error e => rfl
    | ok matched => simp [column, columnWrote, own]

theorem used_of_foreign {op : Op} (foreign : Foreign runId op) (res : Reply op) :
    (entries runId).used ⟨tid, op, res⟩ = none := by
  cases op with
  | readRow | readPrefix | readRange | increment | checkAndMutateRow => rfl
  | mutateRow key mutations =>
    cases res with
    | error e => rfl
    | ok =>
      have noEntry : entryOf runId key = none := by
        cases found : entryOf runId key with
        | none => rfl
        | some n => exact absurd (entryOf_eq_some found).2 (foreign.2 n)
      simp [entries, entryWritten, noEntry]

/-- Foreign operations are proper, and the thread keeps its number. -/
theorem follows_of_foreign {program : Prog Op Reply α} (all : program.All (Foreign runId))
    {stage : Tickets.Stage (Option String)} :
    ((entries runId).protocol nextNumber tid).Follows (fun _ after => after.held = stage.held) stage program := by
  induction program generalizing stage with
  | ret value => exact rfl
  | call op next inductionHypothesis =>
    refine ⟨⟨fun res b' isWrite => ?_, fun res b isUse => ?_⟩, fun res _ => ?_⟩
    · rw [wrote_of_foreign all.1] at isWrite
      cases isWrite
    · rw [used_of_foreign all.1] at isUse
      cases isUse
    · have kept : (entries runId).hold stage.held ⟨tid, op, res⟩ = stage.held := by
        simp [Tickets.hold, wrote_of_foreign all.1, used_of_foreign all.1]
      exact (inductionHypothesis res (all.2 res)).mono fun value after same => same.trans kept

theorem Numbers.pure (value : α) : Numbers runId tid held (Pure.pure value : BigtableM α) := fun _ => trivial

theorem Numbers.throw (e : StoreError) : Numbers runId tid held (MonadExcept.throw e : BigtableM α) := fun _ => trivial

theorem Numbers.foreign {program : BigtableM α} {continuation : α → BigtableM β} (all : AllForeign runId program)
    (rest : ∀ value, Numbers runId tid held (continuation value)) :
    Numbers runId tid held (program >>= continuation) := by
  intro known
  refine Protocol.Follows.exceptBind ((follows_of_foreign all).mono fun value after same => ?_)
  cases value with
  | error e => trivial
  | ok value =>
    have next := rest value after.known
    have kept : after.held = held := same
    rw [← kept] at next
    exact next

theorem Numbers.of_foreign {program : BigtableM α} (all : AllForeign runId program) : Numbers runId tid held program :=
  fun _ => (follows_of_foreign all).mono fun _ _ _ => trivial

/-- One program after the other, whatever number the first one leaves its thread with. -/
theorem Numbers.bind {program : BigtableM α} {continuation : α → BigtableM β} (first : Numbers runId tid held program)
    (rest : ∀ held value, Numbers runId tid held (continuation value)) :
    Numbers runId tid held (program >>= continuation) := by
  intro known
  refine Protocol.Follows.exceptBind ((first known).mono fun value after _ => ?_)
  cases value with
  | error e => trivial
  | ok value => exact rest after.held value after.known

/-! ### `next_seq` -/

/-- What the thread has after a `next_seq` for the run `other`. -/
def drawn (runId other : String) (held : Option (Option String)) (n : Int) : Option (Option String) :=
  if other = runId then some (some (iv n)) else held

/-- The read of the row of a run tells of the counter. -/
theorem follows_readCounter (known : Option (Option String)) :
    ((entries runId).protocol nextNumber tid).Follows
      (fun result after => after.held = held ∧
        ∀ found, result = .ok found → after.known = some (found.bind fun m => m.get? "seq"))
      ⟨known, held⟩ (readRow (rkRun runId)).run := by
  refine And.intro (And.intro (fun res b' wrote => by cases wrote) fun res b used => by cases used) fun res _ => ?_
  cases res with
  | error e => exact ⟨rfl, fun found same => by cases same⟩
  | ok row =>
    refine ⟨rfl, fun found same => ?_⟩
    obtain rfl := Except.ok.inj same
    exact (after_readRow (f := nextNumber) (rkRun runId) row).trans (if_pos rfl)

/-- The write of the counter draws a number. -/
theorem wrote_counter (res : Reply (.mutateRow (rkRun runId) [set "seq" (iv n)])) :
    (sequence runId).wrote ⟨tid, .mutateRow (rkRun runId) [set "seq" (iv n)], res⟩ =
      match res with
      | .ok _ => some (some (iv n))
      | .error _ => none := by
  cases res with
  | error e => rfl
  | ok => simp [column, columnWrote, Mutation.leaves, set, Mutation.spares, Mutation.apply]

theorem used_counter (res : Reply (.mutateRow (rkRun runId) [set "seq" (iv n)])) :
    (entries runId).used ⟨tid, .mutateRow (rkRun runId) [set "seq" (iv n)], res⟩ = none := by
  cases res with
  | error e => rfl
  | ok =>
    have noEntry : entryOf runId (rkRun runId) = none := by
      cases found : entryOf runId (rkRun runId) with
      | none => rfl
      | some m => exact absurd (entryOf_eq_some found).2.symm rkJournal_ne_rkRun
    simp [entries, entryWritten, noEntry]

theorem follows_writeCounter {text : Option String} (isNext : nextNumber text = some (iv n)) :
    ((entries runId).protocol nextNumber tid).Follows
      (fun result after => match result with
        | .ok _ => after.held = some (some (iv n))
        | .error _ => after.held = held) ⟨some text, held⟩ (writeRow (rkRun runId) [set "seq" (iv n)]).run := by
  refine And.intro (And.intro (fun res b' wrote => ?_) fun res b used => ?_) fun res _ => ?_
  · rw [wrote_counter] at wrote
    cases res with
    | error e => cases wrote
    | ok =>
      obtain rfl := Option.some.inj wrote
      exact ⟨text, rfl, isNext.symm⟩
  · rw [used_counter] at used
    cases used
  · have kept : (entries runId).hold held ⟨tid, .mutateRow (rkRun runId) [set "seq" (iv n)], res⟩ =
        match res with
        | .ok _ => some (some (iv n))
        | .error _ => held := by
      cases res with
      | error e => simp [Tickets.hold, wrote_counter, used_counter]
      | ok => simp [Tickets.hold, wrote_counter]
    cases res with
    | error e => exact kept
    | ok => exact kept

/-- The thread has the number that the call returned, and if it failed, what it had before. -/
theorem follows_nextSeq (known : Option (Option String)) :
    ((entries runId).protocol nextNumber tid).Follows
      (fun result after => match result with
        | .ok n => after.held = drawn runId other held n
        | .error _ => after.held = held) ⟨known, held⟩ (nextSeq other).run := by
  by_cases own : other = runId
  · subst own
    refine Protocol.Follows.exceptBind ((follows_readCounter known).mono fun result after read => ?_)
    cases result with
    | error e => exact read.1
    | ok row =>
      obtain ⟨known, held⟩ := after
      obtain ⟨rfl, isKnown⟩ := read
      obtain rfl := isKnown row rfl
      have isNext : nextNumber (row.bind fun m => m.get? "seq") =
          some (iv ((row.map fun m => gi m "seq").getD 0 + 1)) := by
        rw [nextNumber, map_gi_getD]
      refine Protocol.Follows.exceptBind ((follows_writeCounter isNext).mono fun result after written => ?_)
      cases result with
      | error e => exact written
      | ok => exact Eq.trans written (if_pos rfl).symm
  · -- the counter of another run
    have differs : rkRun other ≠ rkRun runId := fun same => own (rkRun_inj same)
    have all : AllForeign runId (nextSeq other) := by
      refine .bind (.perform trivial) fun row => .bind (.perform ?_) fun _ => .pure _
      exact ⟨fun same => absurd same differs, fun n same => rkJournal_ne_rkRun same.symm⟩
    refine (follows_of_foreign all).mono fun result after same => ?_
    cases result with
    | error e => exact same
    | ok n => simpa [drawn, own] using same

theorem Numbers.nextSeq {continuation : Int → BigtableM β}
    (rest : ∀ n, Numbers runId tid (drawn runId other held n) (continuation n)) :
    Numbers runId tid held (BigtableRunStore.nextSeq other >>= continuation) := by
  intro known
  refine Protocol.Follows.exceptBind ((follows_nextSeq known).mono fun result after same => ?_)
  cases result with
  | error e => trivial
  | ok n =>
    have next := rest n after.known
    rw [← same] at next
    exact next

/-- A program that may fail. -/
theorem follows_attempt {stage : Tickets.Stage (Option String)} {program : BigtableM α}
    {post : Except StoreError α → Tickets.Stage (Option String) → Prop}
    (follows : ((entries runId).protocol nextNumber tid).Follows post stage program.run) :
    ((entries runId).protocol nextNumber tid).Follows
      (fun result after => ∃ outcome, result = .ok outcome.toOption ∧ post outcome after) stage (attempt program).run :=
  Protocol.Follows.bind (follows.mono fun outcome _ meets => ⟨outcome, rfl, meets⟩)

theorem Numbers.attemptNextSeq {continuation : Option Int → BigtableM β} (failed : Numbers runId tid held (continuation none))
    (rest : ∀ n, Numbers runId tid (drawn runId other held n) (continuation (some n))) :
    Numbers runId tid held (attempt (BigtableRunStore.nextSeq other) >>= continuation) := by
  intro known
  refine Protocol.Follows.exceptBind ((follows_attempt (follows_nextSeq known)).mono fun result after meets => ?_)
  obtain ⟨outcome, rfl, same⟩ := meets
  cases outcome with
  | error e =>
    have next := failed after.known
    rw [← same] at next
    exact next
  | ok n =>
    have next := rest n after.known
    rw [← same] at next
    exact next

/-! ### Entries -/

/-- The number of an entry of the run is the one that the thread has, or 0. -/
def Paid (runId other : String) (seq : Int) (held : Option (Option String)) : Prop :=
  other = runId → seq ≠ 0 → held = some (some (iv seq))

theorem paid_drawn (n : Int) : Paid runId other n (drawn runId other held n) := by
  intro own _
  simp [drawn, own]

theorem paid_zero : Paid runId other 0 held := fun _ some_ => absurd rfl some_

/-- The write of an entry uses its number. -/
theorem follows_writeEntry {seq : Int} {mutations : List Mutation} (paid : Paid runId other seq held)
    (known : Option (Option String)) :
    ((entries runId).protocol nextNumber tid).Follows (fun _ _ => True) ⟨known, held⟩
      (writeRow (rkJournal other seq) mutations).run := by
  refine And.intro (And.intro (fun res b' wrote => ?_) fun res b used => ?_) fun res _ => trivial
  · cases res with
    | error e => cases wrote
    | ok => simp [column, columnWrote, rkJournal_ne_rkRun] at wrote
  · cases res with
    | error e => cases used
    | ok =>
      obtain ⟨n, found, rfl⟩ := used_eq_some used
      obtain ⟨some_, same⟩ := entryOf_eq_some found
      obtain rfl := runId_of_rkJournal same
      obtain rfl := rkJournal_inj same
      exact paid rfl some_

theorem foreign_journalGs (globalSeq : Int) (mutations : List Mutation) :
    Foreign runId (.mutateRow (rkJournalGs globalSeq) mutations) := by
  constructor
  · intro same
    have texts := congrArg String.toList same
    simp [rkJournalGs, rkRun] at texts
  · intro n same
    have texts := congrArg String.toList same
    simp [rkJournalGs, rkJournal] at texts

theorem follows_journal {seq ts : Int} {kind : String} {payload : Json} (paid : Paid runId other seq held)
    (known : Option (Option String)) :
    ((entries runId).protocol nextNumber tid).Follows (fun _ _ => True) ⟨known, held⟩
      (journal other seq kind payload ts).run := by
  have increments : AllForeign runId nextGlobalSeq := .perform trivial
  refine Numbers.foreign increments (fun globalSeq => ?_) known
  have last : ∀ (held : Option (Option String)) (mutations : List Mutation),
      Numbers runId tid held (writeRow (rkJournalGs globalSeq) mutations) := fun held mutations =>
    .of_foreign (.perform (foreign_journalGs globalSeq mutations))
  split
  · intro known
    refine Protocol.Follows.exceptBind ((follows_writeEntry paid known).mono fun result after _ => ?_)
    cases result with
    | error e => trivial
    | ok => exact last after.held _ after.known
  · exact last held _

theorem Numbers.journal {seq ts : Int} {kind : String} {payload : Json} {continuation : Unit → BigtableM β}
    (paid : Paid runId other seq held) (rest : ∀ held, Numbers runId tid held (continuation ())) :
    Numbers runId tid held (BigtableRunStore.journal other seq kind payload ts >>= continuation) := by
  intro known
  refine Protocol.Follows.exceptBind ((follows_journal paid known).mono fun result after _ => ?_)
  cases result with
  | error e => trivial
  | ok => exact rest after.held after.known

theorem Numbers.attemptJournal {seq ts : Int} {kind : String} {payload : Json} {continuation : Option Unit → BigtableM β}
    (paid : Paid runId other seq held) (rest : ∀ held written, Numbers runId tid held (continuation written)) :
    Numbers runId tid held (attempt (BigtableRunStore.journal other seq kind payload ts) >>= continuation) := by
  intro known
  refine Protocol.Follows.exceptBind ((follows_attempt (follows_journal paid known)).mono fun result after meets => ?_)
  obtain ⟨outcome, rfl, -⟩ := meets
  exact rest after.held outcome.toOption after.known

/-! ### The rows of other records -/

/-- The keys of a run and of an entry begin with other letters. -/
theorem foreign_of_head (c : Char) (head : key.toList.head? = some c) (notRun : c ≠ 'r') (notEntry : c ≠ 'j')
    (mutations : List Mutation) : Foreign runId (.mutateRow key mutations) := by
  constructor
  · intro same
    rw [same] at head
    simp [rkRun, Ne.symm notRun] at head
  · intro n same
    rw [same] at head
    simp [rkJournal, Ne.symm notEntry] at head

theorem foreign_effect (name : String) (mutations : List Mutation) : Foreign runId (.mutateRow (rkEffect name) mutations) :=
  foreign_of_head 'e' (by simp [rkEffect]) (by decide) (by decide) mutations

theorem foreign_obligation (other : String) (seq : Int) (mutations : List Mutation) :
    Foreign runId (.mutateRow (rkObligation other seq) mutations) :=
  foreign_of_head 'o' (by simp [rkObligation]) (by decide) (by decide) mutations

theorem foreign_decision (other : String) (index : Int) (mutations : List Mutation) :
    Foreign runId (.mutateRow (rkDecision other index) mutations) :=
  foreign_of_head 'd' (by simp [rkDecision]) (by decide) (by decide) mutations

theorem foreign_signal (other gate : String) (mutations : List Mutation) :
    Foreign runId (.mutateRow (rkSignal other gate) mutations) :=
  foreign_of_head 's' (by simp [rkSignal]) (by decide) (by decide) mutations

theorem foreign_idx (i : Invocation) (mutations : List Mutation) : Foreign runId (.mutateRow i.idx mutations) :=
  foreign_of_head 'i' (by simp [Invocation.idx, rkIdx]) (by decide) (by decide) mutations

theorem foreign_route (app user name : String) (mutations : List Mutation) :
    Foreign runId (.mutateRow (rkRoute app user name) mutations) := by
  constructor
  · intro same
    have texts := congrArg String.toList same
    simp [rkRoute, rkRun] at texts
  · intro n same
    have texts := congrArg String.toList same
    simp [rkRoute, rkJournal] at texts

/-- The other columns of a run. -/
theorem foreign_run {mutations : List Mutation} (spared : other = runId → mutations.all (Mutation.spares "seq")) :
    Foreign runId (.mutateRow (rkRun other) mutations) :=
  ⟨fun same => spared (rkRun_inj same), fun _ same => rkJournal_ne_rkRun same.symm⟩

theorem allForeign_checkAndMutate {name : String} (other : name ≠ rkRun runId) (predicate : RowFilter)
    (trueMutations falseMutations : List Mutation) :
    AllForeign runId (checkAndMutate name predicate trueMutations falseMutations) := .perform other

theorem rkEffect_ne_rkRun (name : String) : rkEffect name ≠ rkRun runId := by
  intro same
  have texts := congrArg String.toList same
  simp [rkEffect, rkRun] at texts

theorem rkBusinessKey_ne_rkRun (connector businessKey : String) : rkBusinessKey connector businessKey ≠ rkRun runId := by
  intro same
  have texts := congrArg String.toList same
  simp [rkBusinessKey, rkRun] at texts

theorem allForeign_getEffect (name : String) : AllForeign runId (getEffect name) :=
  .bind (.perform trivial) fun _ => .pure _

theorem allForeign_runState (other : String) : AllForeign runId (runState other) :=
  .bind (.perform trivial) fun _ => .pure _

theorem allForeign_getObligation (other : String) (seq : Int) : AllForeign runId (getObligation other seq) :=
  .bind (.perform trivial) fun _ => .pure _

theorem Numbers.getEffect {name : String} {continuation : Option EffectRecord → BigtableM β}
    (rest : ∀ found, Numbers runId tid held (continuation found)) :
    Numbers runId tid held (BigtableRunStore.getEffect name >>= continuation) := .foreign (allForeign_getEffect name) rest

theorem Numbers.runState {other : String} {continuation : Option RunState → BigtableM β}
    (rest : ∀ found, Numbers runId tid held (continuation found)) :
    Numbers runId tid held (BigtableRunStore.runState other >>= continuation) := .foreign (allForeign_runState other) rest

theorem Numbers.getObligation {other : String} {seq : Int} {continuation : Option Obligation → BigtableM β}
    (rest : ∀ found, Numbers runId tid held (continuation found)) :
    Numbers runId tid held (BigtableRunStore.getObligation other seq >>= continuation) :=
  .foreign (allForeign_getObligation other seq) rest

theorem Numbers.readRow {name : String} {continuation : Option RowMap → BigtableM β}
    (rest : ∀ found, Numbers runId tid held (continuation found)) :
    Numbers runId tid held (BigtableRunStore.readRow name >>= continuation) := .foreign (.perform trivial) rest

theorem Numbers.writeRow {name : String} {mutations : List Mutation} {continuation : Unit → BigtableM β}
    (foreign : Foreign runId (.mutateRow name mutations)) (rest : Numbers runId tid held (continuation ())) :
    Numbers runId tid held (BigtableRunStore.writeRow name mutations >>= continuation) :=
  .foreign (.perform foreign) fun _ => rest

/-! ### The methods -/

variable (tid held)

theorem numbers_endRun (other : String) (status : Int) (detailJson : String) (ts : Int) :
    Numbers runId tid held (endRun other status detailJson ts) := by
  refine .writeRow (foreign_run fun _ => rfl) (.runState fun found => ?_)
  cases found with
  | none => exact .pure _
  | some r =>
    refine .attemptNextSeq ?_ fun n => ?_
    · exact .attemptJournal paid_zero fun _ _ => .pure _
    · exact .attemptJournal (paid_drawn n) fun _ _ => .pure _

theorem numbers_recordDecision (other : String) (index : Int)
    (model requestJson responseJson rationale policyVersion : String) (ts : Int) :
    Numbers runId tid held (recordDecision other index model requestJson responseJson rationale policyVersion ts) := by
  refine .readRow fun found => ?_
  cases found with
  | some m => exact .pure _
  | none =>
    refine .nextSeq fun n => .writeRow (foreign_decision ..) ?_
    exact .journal (paid_drawn n) fun _ => .pure _

theorem numbers_resumeRun (other leaseOwner : String) (leaseTtlMs ts : Int) :
    Numbers runId tid held (resumeRun other leaseOwner leaseTtlMs ts) :=
  .writeRow (foreign_run fun _ => rfl) (.of_foreign (allForeign_runState other))

theorem numbers_beginRun (i : Invocation) (identity : Identity) (leaseOwner : String) (leaseTtlMs ts : Int) {newId : String}
    (fresh : newId ≠ runId) : Numbers runId tid held (beginRun i identity leaseOwner leaseTtlMs ts newId) := by
  refine .readRow fun idx => ?_
  simp only
  split
  · refine .runState fun cur => ?_
    simp only
    split
    · exact .writeRow (foreign_run fun _ => rfl) (.pure _)
    · exact .pure _
  · refine .writeRow (foreign_run fun own => absurd own fresh) (.writeRow (foreign_idx ..) (.writeRow (foreign_route ..) ?_))
    refine .attemptNextSeq ?_ fun n => ?_
    · exact .attemptJournal paid_zero fun _ _ => .pure _
    · exact .attemptJournal (paid_drawn n) fun _ _ => .pure _

theorem numbers_create (r : EffectRequest) (ts : Int) : Numbers runId tid held (beginEffect.create r ts) :=
  .nextSeq fun n => .writeRow (foreign_effect ..) (.journal (paid_drawn n) fun _ => .pure _)

theorem allForeign_pointed (bkRow : String) : AllForeign runId (beginEffect.pointed bkRow) := by
  refine .bind (.perform trivial) fun row => ?_
  simp only
  split
  · exact .pure _
  · exact allForeign_getEffect _

theorem numbers_admitted (r : EffectRequest) (ts : Int) : Numbers runId tid held (beginEffect.admitted r ts) := by
  refine .readRow fun found => ?_
  cases found with
  | some m => exact .pure _
  | none =>
    simp only
    split
    · refine .foreign (allForeign_pointed _) fun other => ?_
      cases other with
      | some effect => exact .pure _
      | none =>
        refine .foreign (allForeign_checkAndMutate (rkBusinessKey_ne_rkRun _ _) ..) fun claimed => ?_
        split
        · refine .foreign (allForeign_pointed _) fun other => ?_
          cases other with
          | some effect => exact .pure _
          | none => exact numbers_create tid held r ts
        · exact numbers_create tid held r ts
    · exact numbers_create tid held r ts

theorem numbers_beginEffect (scopesOf : String → List String) (r : EffectRequest) (ts : Int) :
    Numbers runId tid held (beginEffect scopesOf r ts) := by
  unfold beginEffect
  split
  · exact .throw _
  · split
    · exact .throw _
    · split
      · exact .throw _
      · split
        · exact numbers_admitted tid held r ts
        · refine .runState fun found => ?_
          simp only
          split
          · exact numbers_admitted tid held r ts
          · -- a refusal is journaled, too
            refine .attemptNextSeq ?_ fun n => ?_
            · exact .attemptJournal paid_zero fun _ _ => .throw _
            · exact .attemptJournal (paid_drawn n) fun _ _ => .throw _

theorem numbers_claimEffectDispatch (other name claimer : String) (leaseTtlMs nowMs clock : Int) :
    Numbers runId tid held (claimEffectDispatch other name claimer leaseTtlMs nowMs clock) := by
  refine .getEffect fun found => ?_
  cases found with
  | none => exact .pure _
  | some existing =>
    simp only
    split
    · exact .pure _
    · split
      · exact .pure _
      · have acquires : ∀ matched : Bool, Numbers runId tid held (do
            let updated ← BigtableRunStore.getEffect name
            if !matched then
              let seq ← nextSeq other
              journal other seq "effect" (.obj
                [("tool", .str existing.toolName), ("idempotency_key", .str name), ("status", .str "pending"),
                  ("transition", .str "dispatch-claimed"), ("claimer", .str claimer)]) (RunStore.claimTime nowMs clock)
            return (!matched, updated)) := by
          intro matched
          refine .getEffect fun updated => ?_
          cases matched with
          | true => exact .pure _
          | false => exact .nextSeq fun n => .journal (paid_drawn n) fun _ => .pure _
        split
        · exact .foreign (allForeign_checkAndMutate (rkEffect_ne_rkRun _) ..) acquires
        · exact .foreign (allForeign_checkAndMutate (rkEffect_ne_rkRun _) ..) fun renewed => acquires (!renewed)

theorem numbers_recordDispatchAttempt (other name error : String) (nextDispatchAtMs ts : Int) :
    Numbers runId tid held (recordDispatchAttempt other name error nextDispatchAtMs ts) := by
  refine .getEffect fun found => ?_
  cases found with
  | none => exact .pure _
  | some existing =>
    refine .writeRow (foreign_effect ..) (.nextSeq fun n => .journal (paid_drawn n) fun _ => ?_)
    exact .of_foreign (allForeign_getEffect name)

theorem numbers_registerCompensation (other effectKey kind : String) (payload : Json) (compensatorRef : String)
    (maxAttempts ts : Int) :
    Numbers runId tid held (registerCompensation other effectKey kind payload compensatorRef maxAttempts ts) := by
  refine .foreign (.perform trivial) fun rows => ?_
  split
  · exact .pure _
  · exact .nextSeq fun n => .writeRow (foreign_obligation ..) (.journal (paid_drawn n) fun _ => .pure _)

theorem numbers_recordExternalObservation (other name : String) (resolution : Int)
    (externalRef responseJson errorJson duplicateKind : String) (ts registerTs : Int) :
    Numbers runId tid held
      (recordExternalObservation other name resolution externalRef responseJson errorJson duplicateKind ts registerTs) := by
  refine .getEffect fun found => ?_
  cases found with
  | none => exact .pure _
  | some existing =>
    refine .writeRow (foreign_effect ..) (.nextSeq fun n => .journal (paid_drawn n) fun later => ?_)
    split
    · -- the obligation of a duplicate has a number of its own
      exact .bind (numbers_registerCompensation tid later _ _ _ _ _ _ _) fun _ _ => .of_foreign (allForeign_getEffect name)
    · exact .of_foreign (allForeign_getEffect name)

theorem numbers_completeEffect (other name : String) (status : Int) (responseJson errorJson : String) (ts : Int) :
    Numbers runId tid held (completeEffect other name status responseJson errorJson ts) := by
  refine .getEffect fun found => ?_
  cases found with
  | none => exact .pure _
  | some existing =>
    simp only
    split
    · exact .pure _
    · exact .writeRow (foreign_effect ..) (.nextSeq fun n => .journal (paid_drawn n) fun _ => .pure _)

theorem numbers_reconcileEffect (other name : String) (resolvedStatus : Int) (responseJson errorJson : String) (ts : Int) :
    Numbers runId tid held (reconcileEffect other name resolvedStatus responseJson errorJson ts) := by
  refine .getEffect fun found => ?_
  cases found with
  | none => exact .pure _
  | some existing =>
    simp only
    split
    · exact .pure _
    · exact .writeRow (foreign_effect ..) (.nextSeq fun n => .journal (paid_drawn n) fun _ => .pure _)

theorem numbers_listObligations (other : String) (onlyUnresolved : Bool) (statusFilter : Int) :
    Numbers runId tid held (listObligations other onlyUnresolved statusFilter) :=
  .foreign (.perform trivial) fun _ => .pure _

theorem numbers_claimObligation (other : String) (seq : Int) (claimer : String) (leaseTtlMs nowMs clock : Int) :
    Numbers runId tid held (claimObligation other seq claimer leaseTtlMs nowMs clock) := by
  refine .getObligation fun found => ?_
  cases found with
  | none => exact .pure _
  | some existing =>
    simp only
    split
    · exact .pure _
    · refine .writeRow (foreign_obligation ..) (.nextSeq fun n => .journal (paid_drawn n) fun _ => ?_)
      exact .getObligation fun _ => .pure _

theorem numbers_recordObligationAttempt (other : String) (seq : Int) (error : String) (nextAttemptAtMs ts : Int) :
    Numbers runId tid held (recordObligationAttempt other seq error nextAttemptAtMs ts) := by
  refine .getObligation fun found => ?_
  cases found with
  | none => exact .pure _
  | some existing =>
    refine .writeRow (foreign_obligation ..) (.nextSeq fun n => .journal (paid_drawn n) fun _ => ?_)
    exact .of_foreign (allForeign_getObligation other seq)

theorem numbers_resolveObligation (other : String) (seq status : Int) (resultJson : String) (ts : Int) :
    Numbers runId tid held (resolveObligation other seq status resultJson ts) := by
  refine .getObligation fun found => ?_
  cases found with
  | none => exact .pure _
  | some existing =>
    refine .writeRow (foreign_obligation ..) (.nextSeq fun n => .journal (paid_drawn n) fun _ => ?_)
    exact .of_foreign (allForeign_getObligation other seq)

theorem numbers_awaitSignal (other gateName payloadJson : String) (ts : Int) :
    Numbers runId tid held (awaitSignal other gateName payloadJson ts) := by
  have parks : Numbers runId tid held (parkOnGate other gateName payloadJson ts) :=
    .writeRow (foreign_signal ..) (.nextSeq fun n => .writeRow (foreign_run fun _ => rfl)
      (.journal (paid_drawn n) fun _ => .pure _))
  refine .readRow fun found => ?_
  cases found with
  | none => exact parks
  | some m =>
    simp only
    split
    · exact .writeRow (foreign_signal ..) (.pure _)
    · exact parks

theorem numbers_releaseRun (other gateName : String) (ts : Int) : Numbers runId tid held (releaseRun other gateName ts) := by
  refine .writeRow (foreign_run fun _ => rfl) (.attemptNextSeq ?_ fun n => ?_)
  · exact .pure _
  · exact .attemptJournal (paid_drawn n) fun _ _ => .pure _

theorem numbers_signalRun (other gateName resolutionJson : String) (ts : Int) :
    Numbers runId tid held (signalRun other gateName resolutionJson ts) := by
  refine .writeRow (foreign_signal ..) (.runState fun found => ?_)
  cases found with
  | none => exact .pure _
  | some m =>
    simp only
    split
    · exact .bind (numbers_releaseRun tid held _ _ _) fun _ _ => .pure _
    · exact .pure _

theorem numbers_sendSignal (other app user name gateName resolutionJson : String) (ts : Int) :
    Numbers runId tid held (sendSignal other app user name gateName resolutionJson ts) := by
  unfold sendSignal
  split
  · exact numbers_signalRun tid held _ _ _ _
  · refine .readRow fun found => ?_
    simp only
    split
    · exact .throw _
    · exact numbers_signalRun tid held _ _ _ _

end Programs

/-- Every call keeps to the protocol, unless it makes up the id of the run. -/
theorem numbers_body {runId : String} (tid : Nat) (call : Call) (begun : call.newRun? ≠ some runId) :
    ((entries runId).protocol nextNumber tid).Follows (fun _ _ => True) ⟨none, none⟩ call.body := by
  cases call with
  | beginRun i identity leaseOwner leaseTtlMs ts newId =>
    have fresh : newId ≠ runId := fun same => begun (congrArg some same)
    exact numbers_beginRun tid none i identity leaseOwner leaseTtlMs ts fresh none
  | resumeRun => exact numbers_resumeRun tid none _ _ _ _ none
  | endRun => exact numbers_endRun tid none _ _ _ _ none
  | recordDecision => exact numbers_recordDecision tid none _ _ _ _ _ _ _ _ none
  | getDecision => exact Numbers.readRow (fun found => .pure _) none
  | beginEffect => exact numbers_beginEffect tid none _ _ _ none
  | claimEffectDispatch => exact numbers_claimEffectDispatch tid none _ _ _ _ _ _ none
  | recordDispatchAttempt => exact numbers_recordDispatchAttempt tid none _ _ _ _ _ none
  | recordExternalObservation => exact numbers_recordExternalObservation tid none _ _ _ _ _ _ _ _ _ none
  | completeEffect => exact numbers_completeEffect tid none _ _ _ _ _ _ none
  | reconcileEffect => exact numbers_reconcileEffect tid none _ _ _ _ _ _ none
  | registerCompensation => exact numbers_registerCompensation tid none _ _ _ _ _ _ _ none
  | listObligations => exact numbers_listObligations tid none _ _ _ none
  | claimObligation => exact numbers_claimObligation tid none _ _ _ _ _ _ none
  | recordObligationAttempt => exact numbers_recordObligationAttempt tid none _ _ _ _ _ none
  | resolveObligation => exact numbers_resolveObligation tid none _ _ _ _ _ none
  | awaitSignal => exact numbers_awaitSignal tid none _ _ _ _ none
  | sendSignal => exact numbers_sendSignal tid none _ _ _ _ _ _ _ none

/-! ## The numbers of a run -/

section Runs

variable {text : Option String}

theorem cellI64_nextNumber (fits : cellI64 text + 1 < 2 ^ 63) : cellI64 (nextNumber text) = cellI64 text + 1 := by
  have low := (inI64_cellI64 text).1
  exact cellI64_iv ⟨by omega, fits⟩

theorem cellI64_iterate_nextNumber (k : Nat) (fits : cellI64 text + k < 2 ^ 63) :
    cellI64 (nextNumber^[k] text) = cellI64 text + k := by
  induction k with
  | zero => exact (Int.add_zero _).symm
  | succ k inductionHypothesis =>
    have before := inductionHypothesis (by omega)
    rw [Function.iterate_succ_apply', cellI64_nextNumber (by omega), before]
    omega

/-- No run has the events for the counter to come to an end. -/
theorem iterate_nextNumber_ne {i j n : Nat} (few : cellI64 text + n < 2 ^ 63) (less : i < j) (bound : j < n) :
    nextNumber^[i + 1] text ≠ nextNumber^[j + 1] text := by
  intro same
  have numbers := congrArg cellI64 same
  rw [cellI64_iterate_nextNumber (i + 1) (by omega), cellI64_iterate_nextNumber (j + 1) (by omega)] at numbers
  omega

theorem usedUp_entries (runId : String) (log : List BigtableEvent) :
    (entries runId).usedUp log = (entriesWritten runId log).map fun n => some (iv n) := by
  rw [Tickets.usedUp, entriesWritten, List.map_filterMap]
  rfl

/-- A call takes up an existing run or another one. -/
abbrev Begun (runId : String) (table : Contents) (choices : List (Choice Call)) : Prop :=
  numbering.Along (System.Permits (fun call => call.newRun? ≠ some runId) fun _ _ _ _ => True) (quiet table) choices

/-- Of the entries of a run's journal, no more have a number than calls drew it.  No number is drawn twice exactly if
    nobody writes the counter between a call's read of it and its write; and then no entry takes another one's place,
    and the counter has come as far as there were calls. -/
theorem entries_once (runId : String) (table : Contents) (choices : List (Choice Call)) (begun : Begun runId table choices)
    (few : gi (table.cells (rkRun runId)) "seq" +
      ((sequence runId).written (numbering.run (quiet table) choices).log).length < 2 ^ 63) :
    (∀ n, (entriesWritten runId (numbering.run (quiet table) choices).log).count n ≤
      ((sequence runId).written (numbering.run (quiet table) choices).log).count (some (iv n))) ∧
    (((sequence runId).written (numbering.run (quiet table) choices).log).Nodup ↔
      (sequence runId).Unraced (numbering.run (quiet table) choices).log) ∧
    ((sequence runId).Unraced (numbering.run (quiet table) choices).log →
      (entriesWritten runId (numbering.run (quiet table) choices).log).Nodup ∧
      gi ((numbering.run (quiet table) choices).state.cells (rkRun runId)) "seq" =
        gi (table.cells (rkRun runId)) "seq" +
          ((sequence runId).written (numbering.run (quiet table) choices).log).length) := by
  have follows : ∀ (tid : Nat) (call : Call), call.newRun? ≠ some runId →
      ((entries runId).protocol nextNumber tid).Follows (fun _ _ => True) ⟨none, none⟩ (numbering.body call) :=
    fun tid call begun => numbers_body tid call begun
  have derives : ∀ (tid : Nat) (call : Call), call.newRun? ≠ some runId →
      ((sequence runId).protocol nextNumber tid).Follows (fun _ _ => True) none (numbering.body call) :=
    fun tid call begun => Tickets.Follows.derives (follows tid call begun)
  have once := Register.run_nodup_iff derives (c := quiet table) rfl rfl begun fun i j less bound =>
    iterate_nextNumber_ne few less bound
  refine ⟨fun n => ?_, once, fun unraced => ⟨?_, ?_⟩⟩
  · have covered := Tickets.run_covered follows (c := quiet table) rfl rfl begun (some (iv n)) ∅
    rw [usedUp_entries] at covered
    have drawn := (Nat.le_add_right _ _).trans covered
    refine (List.count_le_count_map (f := fun n => some (iv n))).trans ?_
    convert drawn
  · have used := Tickets.run_used_nodup follows (c := quiet table) rfl rfl begun (once.mpr unraced)
    rw [usedUp_entries] at used
    exact .of_map _ used
  · have counted := Register.run_counted derives (c := quiet table) rfl rfl begun unraced
    rw [gi_eq_cellI64, gi_eq_cellI64, ← cellI64_iterate_nextNumber _ few]
    exact congrArg cellI64 counted

end Runs

/-! ## In turn, and at once -/

def decide_ (index : Int) : Call := .recordDecision "r" index "m" "{}" "{}" "" "" 5

/-- Each call executes so many of its requests, in turn. -/
def takeTurns (steps rounds : Nat) : List (Choice Call) :=
  .spawn (decide_ 0) :: .spawn (decide_ 1) ::
    (List.replicate rounds (List.replicate steps (.exec 0) ++ List.replicate steps (.exec 1))).flatten

theorem entries_in_turn : (entriesWritten "r" (numbering.run (quiet .empty) (takeTurns 7 1)).log).Nodup :=
  ((entries_once "r" .empty (takeTurns 7 1) (by decide +kernel) (by decide +kernel)).2.2 (by decide +kernel)).1

/-- The second decision takes the place of the first in the journal. -/
example : entriesWritten "r" (numbering.run (quiet .empty) (takeTurns 1 7)).log = [1, 1] := by decide +kernel

end Tape.BigtableRunStore.Numbering
