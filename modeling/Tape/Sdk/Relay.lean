import Tape.Sequential
import Tape.Subjects

/-! # The outbox relay and the audit sink

`outbox_relay_tick`, `reactors/__init__.py`, over `AIPlexSink`, `sinks.py`.  The relay's cursor is in a
file, the sink's buffer in the memory of the process.  What the clock, the stream and the endpoint
answer comes with each call; a batch is the list of the entries its events were made of.
-/

namespace Tape.Sdk

/-! ## Posting a batch -/

/-- What becomes of a call. -/
inductive Ending where
  | returned | raised | died
  deriving DecidableEq, Repr

/-- What `urlopen` comes to. -/
inductive PostReply where
  | status (code : Int)
  | httpError (code : Int)
  /-- `URLError` or `TimeoutError`. -/
  | unreachable
  /-- Any other exception. -/
  | uncaught
  deriving DecidableEq, Repr

/-- What `flush` makes of a reply; `none` where it tries again. -/
def PostReply.ending? : PostReply → Option Ending
  | status code => if 200 ≤ code ∧ code < 300 then some .returned else none
  | httpError code => if 400 ≤ code ∧ code < 500 ∧ code ≠ 408 ∧ code ≠ 429 then some .raised else none
  | unreachable => none
  | uncaught => some .raised

/-- One attempt.  The endpoint may take a batch and its answer be lost. -/
structure Attempt where
  reply : PostReply
  taken : Bool := false

def Attempt.accepted (a : Attempt) : Bool := a.taken || a.reply.ending? = some .returned

/-- The loop of `flush`, and whether the endpoint accepted the batch.  Where the attempts end before the
    loop does, the process died. -/
def post : Nat → List Attempt → Ending × Bool
  | 0, _ => (.raised, false)
  | _ + 1, [] => (.died, false)
  | retries + 1, a :: attempts =>
    match a.reply.ending? with
    | some ending => (ending, a.accepted)
    | none => ((post retries attempts).1, a.accepted || (post retries attempts).2)

/-! ## `AIPlexSink` -/

structure AIPlexSink where
  batchSize : Nat
  flushIntervalMs : Int
  maxRetries : Nat
  buf : List EventEntry
  lastFlush : Int
  closed : Bool
  batchSize_pos : 1 ≤ batchSize
  maxRetries_pos : 1 ≤ maxRetries

/-- What a call of the sink leaves: the sink, and the batches that the endpoint accepted. -/
structure Sent where
  ending : Ending
  sink : AIPlexSink
  accepted : List (List EventEntry) := []

/-- The clock when the buffer is taken, and the attempts to send it. -/
structure Flushing where
  now : Int
  attempts : List Attempt

/-- The clock when `publish` looks at it. -/
structure Publishing where
  now : Int
  flushing : Flushing

namespace AIPlexSink

def init (batchSize flushIntervalMs maxRetries now : Int) : AIPlexSink where
  batchSize := (max 1 batchSize).toNat
  flushIntervalMs := max 50 flushIntervalMs
  maxRetries := (max 1 maxRetries).toNat
  buf := []
  lastFlush := now
  closed := false
  batchSize_pos := by omega
  maxRetries_pos := by omega

/-- `batch, self._buf = self._buf, []` comes before the POST. -/
def flush (sink : AIPlexSink) (f : Flushing) : Sent :=
  let swapped := { sink with buf := [], lastFlush := f.now }
  if sink.buf.isEmpty then { ending := .returned, sink := swapped }
  else
    let (ending, accepted) := post sink.maxRetries f.attempts
    { ending, sink := swapped, accepted := if accepted then [sink.buf] else [] }

/-- `payload.get` in `_to_execution_event`. -/
def hasGet : Json → Bool
  | .obj _ => true
  | _ => false

/-- `self._buf.append(ev)`. -/
def append (sink : AIPlexSink) (entry : EventEntry) : AIPlexSink := { sink with buf := sink.buf ++ [entry] }

def shouldFlush (sink : AIPlexSink) (now : Int) : Bool :=
  sink.batchSize ≤ sink.buf.length || sink.flushIntervalMs ≤ now - sink.lastFlush

def publish (sink : AIPlexSink) (entry : EventEntry) (p : Publishing) : Sent :=
  if sink.closed then { ending := .returned, sink }
  else if !hasGet entry.payload then { ending := .raised, sink }
  else if (sink.append entry).shouldFlush p.now then (sink.append entry).flush p.flushing
  else { ending := .returned, sink := sink.append entry }

/-- The sink is closed whether or not its last batch got through. -/
def close (sink : AIPlexSink) (f : Flushing) : Sent :=
  let flushed := sink.flush f
  { flushed with sink := { flushed.sink with closed := true } }

end AIPlexSink

/-! ## The cursor -/

/-- The cursor file, by what `_read_cursor` finds in it; `noPath` where the relay was given none. -/
inductive CursorFile where
  | noPath | absent | unreadable | legacy
  | lastGlobalSeq (n : Int)
  deriving DecidableEq, Repr

namespace CursorFile

/-- The value of `_read_cursor`. -/
def read : CursorFile → Int
  | lastGlobalSeq n => n
  | _ => 0

def write (n : Int) : CursorFile → CursorFile
  | noPath => noPath
  | _ => lastGlobalSeq n

/-- What `_read_cursor` leaves: it replaces a file of the old format. -/
def migrated : CursorFile → CursorFile
  | legacy => lastGlobalSeq 0
  | file => file

end CursorFile

/-! ## `outbox_relay_tick` -/

/-- `predicate` is what the server makes of `predicate_cel`. -/
structure Filters where
  runId : String := ""
  kind : String := ""
  subjectPattern : String := ""
  predicate : EventEntry → Bool := fun _ => true

namespace Filters

/-- The server lets the entry through. -/
def routed (filters : Filters) (e : EventEntry) : Bool :=
  Subjects.«matches» (if filters.subjectPattern = "" then "/tape/**" else filters.subjectPattern) e.subject &&
    filters.predicate e

/-- The client filters after the server. -/
def matched (filters : Filters) (e : EventEntry) : Bool :=
  filters.routed e && (filters.runId = "" || e.runId = filters.runId) && (filters.kind = "" || e.kind = filters.kind)

end Filters

/-- A tick under way. -/
structure Pass where
  batchLimit : Int
  lastSeq : Int
  n : Nat

/-- `if n >= batch_limit: break`, behind a `publish`. -/
def Pass.isFull (pass : Pass) : Bool := 0 < pass.n && pass.batchLimit ≤ pass.n

structure Process where
  sink : AIPlexSink
  pass : Option Pass

/-- The cursor file, all batches that the endpoint accepted, and the process while there is one. -/
structure Relay where
  file : CursorFile
  accepted : List (List EventEntry)
  process : Option Process

/-- Go on in the process with what a call of the sink left. -/
def Relay.proceed (s : Relay) (sent : Sent) (pass : Option Pass) : Relay where
  file := s.file
  accepted := s.accepted ++ sent.accepted
  process :=
    match sent.ending with
    | .returned => some { sink := sent.sink, pass }
    | .raised => some { sink := sent.sink, pass := none }
    | .died => none

/-- The tick reads the cursor and subscribes from it. -/
def openTick (batchLimit : Int) (s : Relay) : Relay :=
  match s.process with
  | some { sink, pass := none } =>
    { s with file := s.file.migrated, process := some { sink, pass := some { batchLimit, lastSeq := s.file.read, n := 0 } } }
  | _ => s

/-- The body of `for entry in stream`. -/
def relayEntry (filters : Filters) (entry : EventEntry) (p : Publishing) (s : Relay) : Relay :=
  match s.process with
  | some { sink, pass := some pass } =>
    if pass.isFull then s
    else if entry.globalSeq ≤ pass.lastSeq then s
    else if filters.runId ≠ "" ∧ entry.runId ≠ filters.runId then s
    else if filters.kind ≠ "" ∧ entry.kind ≠ filters.kind then s
    else s.proceed (sink.publish entry p) (some { pass with lastSeq := entry.globalSeq, n := pass.n + 1 })
  | _ => s

/-- How the stream ends: at its deadline, or with an error that the tick raises again. -/
inductive StreamEnd where
  /-- `_write_cursor` gets through or not. -/
  | over (writes : Bool)
  | fails
  deriving DecidableEq, Repr

/-- The tick comes to write its cursor; a stream that was left at the limit is not read any more. -/
def Pass.writes (pass : Pass) : StreamEnd → Bool
  | .over writes => writes && 0 < pass.n
  | .fails => pass.isFull

def endTick (ending : StreamEnd) (s : Relay) : Relay :=
  match s.process with
  | some { sink, pass := some pass } =>
    { s with
      file := if pass.writes ending then s.file.write pass.lastSeq else s.file
      process := some { sink, pass := none } }
  | _ => s

structure Tick where
  batchLimit : Int := 512
  stream : List (EventEntry × Publishing)
  ending : StreamEnd

/-- A call.  Its process can die in a POST; at any other point a `crash` says so. -/
def outboxRelayTick (filters : Filters) (t : Tick) (s : Relay) : Relay :=
  endTick t.ending (t.stream.foldl (fun s item => relayEntry filters item.1 item.2 s) (openTick t.batchLimit s))

/-! ## The relay's life -/

inductive RelayStep where
  /-- A process starts and builds its sink. -/
  | start (batchSize flushIntervalMs maxRetries now : Int)
  | openTick (batchLimit : Int)
  | entry (e : EventEntry) (p : Publishing)
  | endTick (ending : StreamEnd)
  /-- Between two ticks. -/
  | close (f : Flushing)
  | crash

def Relay.close (f : Flushing) (s : Relay) : Relay :=
  match s.process with
  | some { sink, pass := none } =>
    let closed := sink.close f
    { s.proceed closed none with
      process := if closed.ending = .died then none else some { sink := closed.sink, pass := none } }
  | _ => s

def RelayStep.take (filters : Filters) (s : Relay) : RelayStep → Relay
  | start batchSize flushIntervalMs maxRetries now =>
    match s.process with
    | none => { s with process := some { sink := .init batchSize flushIntervalMs maxRetries now, pass := none } }
    | some _ => s
  | openTick batchLimit => Sdk.openTick batchLimit s
  | entry e p => relayEntry filters e p s
  | endTick ending => Sdk.endTick ending s
  | close f => s.close f
  | crash => { s with process := none }

/-- The steps of a call. -/
def Tick.steps (t : Tick) : List RelayStep :=
  .openTick t.batchLimit :: (t.stream.map fun item => .entry item.1 item.2) ++ [.endTick t.ending]

theorem outboxRelayTick_eq_run (filters : Filters) (t : Tick) (s : Relay) :
    outboxRelayTick filters t s = Sequential.run (RelayStep.take filters) s t.steps := by
  simp only [Tick.steps, Sequential.run, List.cons_append, List.foldl_cons, List.foldl_append, List.foldl_map,
    List.foldl_nil]
  rfl

end Tape.Sdk
