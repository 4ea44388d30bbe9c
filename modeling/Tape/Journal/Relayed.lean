import Mathlib.Data.List.Pairwise
import Tape.Sdk.Relay

/-! # What the audit relay has delivered

The cursor says how far the relay has come, and the sink's buffer is behind it: an entry counts as
published when it is in the buffer.  So a cursor that is written while entries wait there is ahead of
what the endpoint has, and a crash or a failed POST makes the difference final.
-/

namespace Tape.Journal

open Sdk Tape.Sequential

/-- The entries a subscription can deliver, in the order of `global_seq`. -/
structure Stream where
  entries : List EventEntry
  ascending : entries.Pairwise fun a b => a.globalSeq < b.globalSeq
  positive : ∀ e ∈ entries, 0 < e.globalSeq

/-- The endpoint accepted a batch that has the entry. -/
def Accepted (s : Relay) (e : EventEntry) : Prop := ∃ batch ∈ s.accepted, e ∈ batch

/-- At least once: what matches and is not behind the cursor was accepted. -/
def Relayed (stream : Stream) (filters : Filters) (s : Relay) : Prop :=
  ∀ e ∈ stream.entries, filters.matched e → e.globalSeq ≤ s.file.read → Accepted s e

/-- What a tick is handed while it reads is an entry the server lets through, and no entry that matches
    comes before it. -/
def Serves (stream : Stream) (filters : Filters) (s : Relay) (step : RelayStep) : Prop :=
  match step with
  | .entry e _ => ∀ process ∈ s.process, ∀ pass ∈ process.pass, pass.isFull = false →
      e ∈ stream.entries ∧ filters.routed e ∧ ∀ other ∈ stream.entries, filters.matched other →
        pass.lastSeq < other.globalSeq → e.globalSeq ≤ other.globalSeq
  | _ => True

/-- A tick that writes its cursor finds the sink open, and nothing up to that cursor in its buffer that
    was not accepted before. -/
def Settled (s : Relay) (step : RelayStep) : Prop :=
  match step with
  | .endTick ending => ∀ process ∈ s.process, ∀ pass ∈ process.pass, pass.writes ending →
      process.sink.closed = false ∧ ∀ e ∈ process.sink.buf, e.globalSeq ≤ pass.lastSeq → Accepted s e
  | _ => True

/-- The relay has not delivered anything yet. -/
def Fresh (s : Relay) : Prop := s.file.read = 0 ∧ s.process = none

variable {stream : Stream} {filters : Filters} {s : Relay} {e : EventEntry}

/-! ## The sink -/

/-- `flush` returns only after the endpoint accepted. -/
theorem accepted_of_returned {retries : Nat} {attempts : List Attempt}
    (returned : (post retries attempts).1 = .returned) : (post retries attempts).2 = true := by
  induction retries generalizing attempts with
  | zero => cases returned
  | succ retries inductionHypothesis =>
    cases attempts with
    | nil => cases returned
    | cons a attempts =>
      rw [post] at returned ⊢
      cases reply : a.reply.ending? with
      | none =>
        rw [reply] at returned
        simp [inductionHypothesis returned]
      | some ending =>
        rw [reply] at returned
        have isReturned : ending = .returned := returned
        simp [Attempt.accepted, reply, isReturned]

theorem accepted_of_flush {sink : AIPlexSink} {f : Flushing} (returned : (sink.flush f).ending = .returned)
    (waiting : e ∈ sink.buf) : ∃ batch ∈ (sink.flush f).accepted, e ∈ batch := by
  have isSome : sink.buf.isEmpty = false := by cases h : sink.buf <;> simp_all
  simp only [AIPlexSink.flush, isSome] at returned ⊢
  exact ⟨sink.buf, by simp [accepted_of_returned returned], waiting⟩

theorem publish_cases (sink : AIPlexSink) (entry : EventEntry) (p : Publishing) :
    (sink.closed ∧ sink.publish entry p = { ending := .returned, sink }) ∨
    (sink.closed = false ∧ sink.publish entry p = { ending := .raised, sink }) ∨
    (sink.closed = false ∧ sink.publish entry p = (sink.append entry).flush p.flushing) ∨
    (sink.closed = false ∧ sink.publish entry p = { ending := .returned, sink := sink.append entry }) := by
  unfold AIPlexSink.publish
  cases sink.closed with
  | true => simp
  | false =>
    cases AIPlexSink.hasGet entry.payload with
    | false => simp
    | true => cases (sink.append entry).shouldFlush p.now <;> simp

/-- A `publish` that returns loses nothing unless the sink is closed: what waited, and the new entry,
    waits still or was accepted. -/
theorem kept_of_publish {sink : AIPlexSink} {entry : EventEntry} {p : Publishing}
    (returned : (sink.publish entry p).ending = .returned) (waiting : e ∈ sink.buf ∨ e = entry) :
    e ∈ (sink.publish entry p).sink.buf ∨ (∃ batch ∈ (sink.publish entry p).accepted, e ∈ batch) ∨
      (sink.publish entry p).sink.closed := by
  have appended : e ∈ (sink.append entry).buf := by simpa [AIPlexSink.append] using waiting
  obtain ⟨isClosed, same⟩ | ⟨-, same⟩ | ⟨-, same⟩ | ⟨-, same⟩ := publish_cases sink entry p
  · rw [same]
    exact .inr (.inr isClosed)
  · rw [same] at returned
    cases returned
  · rw [same] at returned ⊢
    exact .inr (.inl (accepted_of_flush returned appended))
  · rw [same]
    exact .inl appended

theorem closed_of_publish {sink : AIPlexSink} (isClosed : sink.closed) (entry : EventEntry) (p : Publishing) :
    (sink.publish entry p).sink.closed := by
  simp [AIPlexSink.publish, isClosed]

/-! ## One step -/

/-- The relay has delivered what is not behind its cursor, and a tick under way has handed on what is not
    behind the entry it is at. -/
structure Covered (stream : Stream) (filters : Filters) (s : Relay) : Prop where
  relayed : Relayed stream filters s
  handed : ∀ process ∈ s.process, ∀ pass ∈ process.pass, ∀ e ∈ stream.entries, filters.matched e →
    e.globalSeq ≤ pass.lastSeq → Accepted s e ∨ e ∈ process.sink.buf ∨ process.sink.closed

@[simp] theorem read_migrated (file : CursorFile) : file.migrated.read = file.read := by cases file <;> rfl

/-- The relay's cursor after a write. -/
theorem read_write (file : CursorFile) (n : Int) : (file.write n).read = n ∨ (file.write n).read = 0 := by
  cases file <;> simp [CursorFile.write, CursorFile.read]

theorem accepted_proceed {sent : Sent} {pass : Option Pass} (accepted : Accepted s e) :
    Accepted (s.proceed sent pass) e := by
  obtain ⟨batch, member, inBatch⟩ := accepted
  exact ⟨batch, List.mem_append_left _ member, inBatch⟩

theorem relayed_proceed (sent : Sent) (pass : Option Pass) (relayed : Relayed stream filters s) :
    Relayed stream filters (s.proceed sent pass) :=
  fun e member isMatch behind => accepted_proceed (relayed e member isMatch behind)

theorem eq_of_globalSeq (stream : Stream) {a b : EventEntry} (memberA : a ∈ stream.entries)
    (memberB : b ∈ stream.entries) (same : a.globalSeq = b.globalSeq) : a = b := by
  have : Std.Symm fun a b : EventEntry => a.globalSeq ≠ b.globalSeq := ⟨fun _ _ => Ne.symm⟩
  have distinct : stream.entries.Pairwise fun a b => a.globalSeq ≠ b.globalSeq := stream.ascending.imp Int.ne_of_lt
  by_contra ne
  exact distinct.forall memberA memberB ne same

theorem handed_of_publish {sink : AIPlexSink} {entry : EventEntry} {p : Publishing} {pass : Option Pass}
    (returned : (sink.publish entry p).ending = .returned) (waiting : e ∈ sink.buf ∨ e = entry) :
    Accepted (s.proceed (sink.publish entry p) pass) e ∨ e ∈ (sink.publish entry p).sink.buf ∨
      (sink.publish entry p).sink.closed := by
  obtain buffered | ⟨batch, accepted, inBatch⟩ | isClosed := kept_of_publish returned waiting
  · exact .inr (.inl buffered)
  · exact .inl ⟨batch, List.mem_append_right _ accepted, inBatch⟩
  · exact .inr (.inr isClosed)

/-- Without a tick under way there is nothing to hand on. -/
theorem covered_of_idle (relayed : Relayed stream filters s) (idle : ∀ process ∈ s.process, process.pass = none) :
    Covered stream filters s where
  relayed := relayed
  handed process isProcess pass isPass := by simp [idle process isProcess] at isPass

theorem covered_openTick (covered : Covered stream filters s) (batchLimit : Int) :
    Covered stream filters (openTick batchLimit s) := by
  unfold openTick
  split
  next sink alive =>
    have relayed : Relayed stream filters s := covered.relayed
    refine ⟨fun e member isMatch behind => ?_, fun process isProcess pass isPass e member isMatch behind => ?_⟩
    · exact relayed e member isMatch (by simpa using behind)
    · obtain rfl := Option.some.inj isProcess
      obtain rfl := Option.some.inj isPass
      exact .inl (relayed e member isMatch behind)
  next => exact covered

/-- A tick passes an entry over, or publishes it and goes on from there. -/
theorem relayEntry_cases (filters : Filters) (entry : EventEntry) (p : Publishing) (s : Relay) :
    (relayEntry filters entry p s = s ∧ ∀ process ∈ s.process, ∀ pass ∈ process.pass, pass.isFull = false →
      entry.globalSeq ≤ pass.lastSeq ∨ ¬ filters.matched entry) ∨
    ∃ sink pass, s.process = some { sink, pass := some pass } ∧ pass.isFull = false ∧ pass.lastSeq < entry.globalSeq ∧
      relayEntry filters entry p s =
        s.proceed (sink.publish entry p) (some { pass with lastSeq := entry.globalSeq, n := pass.n + 1 }) := by
  unfold relayEntry
  split
  next sink pass alive =>
    simp only [alive, Option.mem_def, Option.some.injEq, forall_eq']
    split_ifs with full old otherRun otherKind
    · exact .inl ⟨rfl, fun notFull => by simp [full] at notFull⟩
    · exact .inl ⟨rfl, fun _ => .inl old⟩
    · exact .inl ⟨rfl, fun _ => .inr (by simp [Filters.matched, otherRun])⟩
    · exact .inl ⟨rfl, fun _ => .inr (by simp [Filters.matched, otherKind])⟩
    · exact .inr ⟨sink, pass, rfl, by simpa using full, by omega, rfl⟩
  next none_ =>
    refine .inl ⟨rfl, fun process isProcess pass isPass => ?_⟩
    obtain ⟨sink, _⟩ := process
    obtain rfl := Option.mem_def.mp isPass
    exact absurd isProcess (none_ sink pass)

/-- A tick goes on only where the call returned. -/
theorem pass_of_proceed {sent : Sent} {pass : Option Pass} {process : Process} {current : Pass}
    (isProcess : process ∈ (s.proceed sent pass).process) (isPass : current ∈ process.pass) :
    sent.ending = .returned ∧ process.sink = sent.sink ∧ pass = some current := by
  cases ending : sent.ending with
  | raised =>
    simp only [Relay.proceed, ending, Option.mem_def, Option.some.injEq] at isProcess
    subst isProcess
    cases isPass
  | died =>
    simp only [Relay.proceed, ending] at isProcess
    cases isProcess
  | returned =>
    simp only [Relay.proceed, ending, Option.mem_def, Option.some.injEq] at isProcess
    subst isProcess
    exact ⟨rfl, rfl, isPass⟩

/-- An entry that is published takes its tick as far as itself, for none that matches lies between. -/
theorem covered_relayEntry {entry : EventEntry} {p : Publishing} (covered : Covered stream filters s)
    (serves : Serves stream filters s (.entry entry p)) : Covered stream filters (relayEntry filters entry p s) := by
  obtain ⟨same, -⟩ | ⟨sink, pass, alive, reads, -, published⟩ := relayEntry_cases filters entry p s
  · rw [same]
    exact covered
  rw [published]
  obtain ⟨member, -, first⟩ := serves _ alive _ rfl reads
  refine ⟨relayed_proceed _ _ covered.relayed, fun process isProcess current isPass e isEntry isMatch behind => ?_⟩
  obtain ⟨returned, sameSink, isCurrent⟩ := pass_of_proceed isProcess isPass
  obtain rfl := Option.some.inj isCurrent
  rw [sameSink]
  by_cases before : e.globalSeq ≤ pass.lastSeq
  · obtain accepted | buffered | isClosed := covered.handed _ alive _ rfl e isEntry isMatch before
    · exact .inl (accepted_proceed accepted)
    · exact handed_of_publish returned (.inl buffered)
    · exact .inr (.inr (closed_of_publish isClosed entry p))
  · have notBefore : entry.globalSeq ≤ e.globalSeq := first e isEntry isMatch (by omega)
    have isNew : e = entry := eq_of_globalSeq stream isEntry member (Int.le_antisymm behind notBefore)
    exact handed_of_publish returned (.inr isNew)

theorem covered_endTick {ending : StreamEnd} (covered : Covered stream filters s)
    (settled : Settled s (.endTick ending)) : Covered stream filters (endTick ending s) := by
  unfold endTick
  split
  next sink pass alive =>
    refine covered_of_idle (fun e member isMatch behind => ?_) fun process isProcess => ?_
    · by_cases writes : pass.writes ending
      · simp only [writes, if_true] at behind
        obtain ⟨isOpen, sent⟩ := settled _ alive _ rfl writes
        obtain here | atStart := read_write s.file pass.lastSeq
        · rw [here] at behind
          obtain accepted | buffered | isClosed := covered.handed _ alive _ rfl e member isMatch behind
          · exact accepted
          · exact sent e buffered behind
          · rw [isOpen] at isClosed
            cases isClosed
        · -- no entry is behind a cursor at its start
          have positive := stream.positive e member
          omega
      · exact covered.relayed e member isMatch (by simpa [writes] using behind)
    · obtain rfl := Option.some.inj isProcess
      rfl
  next => exact covered

theorem covered_close (covered : Covered stream filters s) (f : Flushing) : Covered stream filters (s.close f) := by
  unfold Relay.close
  split
  next sink alive =>
    refine covered_of_idle (relayed_proceed _ none covered.relayed) fun process isProcess => ?_
    by_cases died : (sink.close f).ending = .died
    · simp [died] at isProcess
    · simp only [died, if_false, Option.mem_def, Option.some.injEq] at isProcess
      rw [← isProcess]
  next => exact covered

/-- Every step keeps a relay covered that serves in order and writes its cursor only when settled. -/
theorem covered_take {step : RelayStep} (covered : Covered stream filters s) (serves : Serves stream filters s step)
    (settled : Settled s step) : Covered stream filters (step.take filters s) := by
  cases step with
  | start batchSize flushIntervalMs maxRetries now =>
    simp only [RelayStep.take]
    split
    next dead =>
      refine covered_of_idle covered.relayed fun process isProcess => ?_
      rw [← Option.some.inj isProcess]
    next => exact covered
  | openTick batchLimit => exact covered_openTick covered batchLimit
  | entry e p => exact covered_relayEntry covered serves
  | endTick ending => exact covered_endTick covered settled
  | close f => exact covered_close covered f
  | crash => exact covered_of_idle covered.relayed fun process isProcess => by cases isProcess

theorem covered_of_fresh (fresh : Fresh s) : Covered stream filters s := by
  obtain ⟨atStart, dead⟩ := fresh
  refine covered_of_idle (fun e member _ behind => ?_) fun process isProcess => by simp [dead] at isProcess
  have positive := stream.positive e member
  omega

/-! ## A whole tick -/

/-- While the tick reads, the stream has still to deliver whatever matches behind its position. -/
def Awaits (stream : Stream) (filters : Filters) (s : Relay) (rest : List EventEntry) : Prop :=
  ∀ process ∈ s.process, ∀ pass ∈ process.pass, pass.isFull = false → ∀ e ∈ stream.entries, filters.matched e →
    pass.lastSeq < e.globalSeq → e ∈ rest

theorem awaits_relayEntry {entry : EventEntry} {rest : List EventEntry} (p : Publishing)
    (awaits : Awaits stream filters s (entry :: rest)) : Awaits stream filters (relayEntry filters entry p s) rest := by
  obtain ⟨same, isOver⟩ | ⟨sink, pass, alive, reads, newer, published⟩ := relayEntry_cases filters entry p s
  · rw [same]
    intro process isProcess pass isPass reads e member isMatch behind
    cases List.mem_cons.mp (awaits process isProcess pass isPass reads e member isMatch behind) with
    | inl isHead =>
      subst isHead
      cases isOver process isProcess pass isPass reads with
      | inl old => omega
      | inr unmatched => exact absurd isMatch unmatched
    | inr later => exact later
  · rw [published]
    intro process isProcess current isPass _ e member isMatch behind
    obtain ⟨-, -, isCurrent⟩ := pass_of_proceed isProcess isPass
    obtain rfl := Option.some.inj isCurrent
    have further : entry.globalSeq < e.globalSeq := behind
    cases List.mem_cons.mp (awaits _ alive _ rfl reads e member isMatch (by omega)) with
    | inl isHead =>
      subst isHead
      omega
    | inr later => exact later

/-- A stream that delivers the beginning of what it owes, in order, serves the tick. -/
theorem serves_entries {items : List (EventEntry × Publishing)} {rest : List EventEntry}
    (members : ∀ e ∈ rest, e ∈ stream.entries ∧ filters.routed e)
    (sorted : rest.Pairwise fun a b => a.globalSeq < b.globalSeq) (isPrefix : items.map Prod.fst <+: rest)
    (awaits : Awaits stream filters s rest) :
    Along (RelayStep.take filters) (Serves stream filters) s (items.map fun item => .entry item.1 item.2) := by
  induction items generalizing s rest with
  | nil => trivial
  | cons item items inductionHypothesis =>
    cases rest with
    | nil => simp at isPrefix
    | cons entry rest =>
      obtain ⟨rfl, shorter⟩ := List.cons_prefix_cons.mp isPrefix
      obtain ⟨least, sorted⟩ := List.pairwise_cons.mp sorted
      refine ⟨fun process isProcess pass isPass reads => ?_, inductionHypothesis (fun e later => members e (.tail _ later))
        sorted shorter (awaits_relayEntry item.2 awaits)⟩
      obtain ⟨member, routed⟩ := members item.1 (.head _)
      refine ⟨member, routed, fun other isEntry isMatch behind => ?_⟩
      cases List.mem_cons.mp (awaits process isProcess pass isPass reads other isEntry isMatch behind) with
      | inl isHead => exact Int.le_of_eq (congrArg EventEntry.globalSeq isHead.symm)
      | inr later => exact Int.le_of_lt (least other later)

theorem lastSeq_of_openTick {batchLimit : Int} (idle : ∀ process ∈ s.process, process.pass = none) {process : Process}
    {pass : Pass} (isProcess : process ∈ (openTick batchLimit s).process) (isPass : pass ∈ process.pass) :
    pass.lastSeq = s.file.read := by
  unfold openTick at isProcess
  split at isProcess
  next =>
    obtain rfl := Option.some.inj isProcess
    obtain rfl := Option.some.inj isPass
    rfl
  next => simp [idle process isProcess] at isPass

/-- Every tick is served over a stream that delivers in order, from the cursor on or from before it, the
    entries that the server lets through. -/
theorem serves_tick {t : Tick} {start : Int} (idle : ∀ process ∈ s.process, process.pass = none) (early : start ≤ s.file.read)
    (delivers : t.stream.map Prod.fst <+: stream.entries.filter fun e => start < e.globalSeq && filters.routed e) :
    Along (RelayStep.take filters) (Serves stream filters) s t.steps := by
  refine ⟨trivial, Along.append.mpr ⟨serves_entries (fun e owed => ?_) (stream.ascending.filter _) delivers ?_, trivial, trivial⟩⟩
  · obtain ⟨member, isOwed⟩ := List.mem_filter.mp owed
    exact ⟨member, (Bool.and_eq_true_iff.mp isOwed).2⟩
  · intro process isProcess pass isPass _ e member isMatch behind
    have atCursor := lastSeq_of_openTick idle isProcess isPass
    have routed : filters.routed e := by
      simp only [Filters.matched, Bool.and_eq_true] at isMatch
      exact isMatch.1.1
    exact List.mem_filter.mpr ⟨member, by simp [routed]; omega⟩

/-! ## Whole lives of the relay -/

/-- The relay is at least once in every state of a run whose ticks write their cursors only when settled. -/
theorem relayed_of_settled {steps : List RelayStep} (fresh : Fresh s)
    (serves : Along (RelayStep.take filters) (Serves stream filters) s steps)
    (settled : Along (RelayStep.take filters) Settled s steps) :
    Always (RelayStep.take filters) (Relayed stream filters) s steps := by
  intro before isPrefix
  have covered : Always (RelayStep.take filters) (Covered stream filters) s steps :=
    always_of_invariant (fun s step covered ok => covered_take covered ok.1 ok.2) (covered_of_fresh fresh)
      (serves.and settled)
  exact (covered before isPrefix).relayed

/-! Two confirmed refunds.  Sent as one batch, at the second attempt, they are behind the cursor and with the
    endpoint; left in a larger buffer they are behind the cursor only. -/

def refund (n : Int) : EventEntry where
  runId := "r-1"
  seq := n
  kind := "effect"
  payload := .obj [("status", .str "confirmed")]
  tsMs := 1000 + n
  globalSeq := n
  subject := "/tape/effect/confirmed/refund/r-1"
  schemaVersion := 1
  traceId := ""
  spanId := ""
  parentSpanId := ""

def refunds : Stream where
  entries := [refund 1, refund 2]
  ascending := by simp [refund]
  positive := by simp [refund]

def unstarted : Relay where
  file := .absent
  accepted := []
  process := none

def secondAttempt : Publishing where
  now := 10
  flushing := { now := 10, attempts := [{ reply := .httpError 503 }, { reply := .status 200 }] }

def refundsTick : Tick where
  stream := [(refund 1, secondAttempt), (refund 2, secondAttempt)]
  ending := .over true

/-- A relay that starts with a sink of this batch size and relays the two refunds. -/
def relaying (batchSize : Int) : List RelayStep := .start batchSize 1000 5 0 :: refundsTick.steps

theorem routed_refund (n : Int) : Filters.routed {} (refund n) := by
  have isMatch : Subjects.«matches» "/tape/**" "/tape/effect/confirmed/refund/r-1" := by decide
  simpa [Filters.routed, refund] using isMatch

theorem serves_relaying (batchSize : Int) :
    Along (RelayStep.take {}) (Serves refunds {}) unstarted (relaying batchSize) := by
  refine ⟨trivial, serves_tick ?_ (show (0 : Int) ≤ 0 from Int.le_refl 0) ?_⟩
  · simp [RelayStep.take, unstarted]
  · simp [refundsTick, refunds, routed_refund, show ∀ n, (refund n).globalSeq = n from fun _ => rfl]

theorem refunds_relayed : Relayed refunds {} (run (RelayStep.take {}) unstarted (relaying 2)) := by
  refine relayed_of_settled ⟨rfl, rfl⟩ (serves_relaying 2) ?_ _ (List.prefix_refl _)
  refine ⟨trivial, trivial, trivial, trivial, fun process isProcess pass isPass _ => ?_, trivial⟩
  obtain rfl := Option.some.inj isProcess
  exact ⟨rfl, fun e waiting => by cases waiting⟩

theorem refunds_lost : Fresh unstarted ∧
    Along (RelayStep.take {}) (Serves refunds {}) unstarted (relaying 100 ++ [.crash]) ∧
    ¬ Always (RelayStep.take {}) (Relayed refunds {}) unstarted (relaying 100 ++ [.crash]) := by
  refine ⟨⟨rfl, rfl⟩, Along.append.mpr ⟨serves_relaying 100, trivial, trivial⟩, fun always => ?_⟩
  have relayed := always _ (List.prefix_refl _)
  have behind : (refund 1).globalSeq ≤ (run (RelayStep.take {}) unstarted (relaying 100 ++ [.crash])).file.read := by decide
  obtain ⟨batch, accepted, -⟩ := relayed (refund 1) (by simp [refunds]) (by simp [Filters.matched, routed_refund]) behind
  have none_ : (run (RelayStep.take {}) unstarted (relaying 100 ++ [.crash])).accepted = [] := rfl
  rw [none_] at accepted
  cases accepted

end Tape.Journal
