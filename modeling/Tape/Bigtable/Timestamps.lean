import Tape.Bigtable.RunStore
import Tape.Journal.Timestamps

/-! # Streams by timestamp on a Bigtable

Here `events_since` does not look at the time.  Every poll of a stream is handed the same first entries of the
run, or of the bus: the stream sends all it is asked for exactly as long as that is one batch.
-/

namespace Tape.BigtableRunStore

open Interleave Bigtable

/-! ## One poll -/

/-- What a poll reads: the rows of the run, or those of the bus. -/
def pollOp (runId : String) : Op :=
  if runId ≠ "" then .readPrefix ("j#" ++ runId ++ "#") 100000
  else .readRange ("jg#" ++ pad20 (min (0 + 1) i64Max)) "jg$" 512

/-- The rows a stream is about. -/
def rowsOf (runId : String) (c : Contents) : List (String × RowMap) :=
  if runId ≠ "" then c.scan (fun key => ("j#" ++ runId ++ "#").toList.isPrefixOf key.toList) 0
  else c.scan (fun key => "jg#" ++ pad20 (min (0 + 1) i64Max) ≤ key && key < "jg$") 0

/-- The entries a stream asks for.  Without a run it is not asked what kind they are of. -/
def askedOf (runId kind : String) (rows : List (String × RowMap)) : List Entry :=
  if runId ≠ "" then
    (((rows.filter fun row => 0 ≤ seqOfKey row.1).map fun row => journalEntry runId (seqOfKey row.1) row.2).insertionSort
      fun a b => a.seq ≤ b.seq).filter fun j => kind = "" || j.kind = kind
  else
    (rows.map fun row => eventFromJournalGs (globalSeqOfKey row.1) row.2).insertionSort
      fun a b => a.globalSeq ≤ b.globalSeq

/-- What a poll that read these rows returns. -/
def pollBatch (runId kind : String) (rows : List (String × RowMap)) : List Entry :=
  if runId ≠ "" then (askedOf runId kind rows).take 512 else askedOf runId kind rows

/-- The stream asks for a batch at most. -/
def roomy (runId kind : String) (c : Contents) : Bool :=
  (rowsOf runId c).length ≤ (if runId ≠ "" then 100000 else 512) && (askedOf runId kind (rowsOf runId c)).length ≤ 512

/-- The batch of a poll that succeeded. -/
def polled (runId kind : String) : BigtableEvent → Option (List Entry)
  | ⟨_, .readPrefix .., .ok rows⟩ | ⟨_, .readRange .., .ok rows⟩ => some (pollBatch runId kind rows)
  | _ => none

/-- What the polls of thread `tid` have made it send. -/
def sent (tid : Nat) (runId kind : String) : List BigtableEvent → List Entry :=
  ownFold tid (fun sent event => sent ++ (polled runId kind event).getD []) []

theorem polled_readPrefix (runId kind : String) (tid : Nat) (start : String) (limit : Nat) (c : Contents) :
    polled runId kind ⟨tid, .readPrefix start limit, (bigtable.exec (.readPrefix start limit) c).1⟩ =
      some (pollBatch runId kind (c.scan (fun key => start.toList.isPrefixOf key.toList) limit)) := rfl

theorem polled_readRange (runId kind : String) (tid : Nat) (start stop : String) (limit : Nat) (c : Contents) :
    polled runId kind ⟨tid, .readRange start stop limit, (bigtable.exec (.readRange start stop limit) c).1⟩ =
      some (pollBatch runId kind (c.scan (fun key => start ≤ key && key < stop) limit)) := rfl

/-- A poll of a roomy table is handed all that the stream asks for. -/
theorem polled_of_roomy {runId kind : String} {c : Contents} (fits : roomy runId kind c) (tid : Nat) :
    polled runId kind ⟨tid, pollOp runId, (bigtable.exec (pollOp runId) c).1⟩ =
      some (askedOf runId kind (rowsOf runId c)) := by
  simp only [roomy, Bool.and_eq_true, decide_eq_true_eq] at fits
  obtain ⟨read, asked⟩ := fits
  by_cases isRun : runId ≠ ""
  · have isPrefix : pollOp runId = .readPrefix ("j#" ++ runId ++ "#") 100000 := if_pos isRun
    rw [if_pos isRun, rowsOf, if_pos isRun] at read
    rw [rowsOf, if_pos isRun] at asked ⊢
    rw [isPrefix, polled_readPrefix, Contents.scan_of_le read, pollBatch, if_pos isRun, List.take_of_length_le asked]
  · have isRange : pollOp runId = .readRange ("jg#" ++ pad20 (min (0 + 1) i64Max)) "jg$" 512 := if_neg isRun
    rw [if_neg isRun, rowsOf, if_neg isRun] at read
    rw [rowsOf, if_neg isRun, isRange, polled_readRange, Contents.scan_of_le read, pollBatch, if_neg isRun]

/-! ## The call -/

/-- A stream polls, and does nothing else. -/
def isPoll (_ : Nat) : Call → BigtableHist → Op → Prop
  | .subscribeEvents _ runId _ _, _, op => op = pollOp runId
  | _, _, _ => True

/-- A stream returns what its polls have made it send. -/
def streamPost (tid : Nat) : (call : Call) → call.Out → BigtableHist → Prop
  | .subscribeEvents _ runId kind _, result, h => result = .ok (sent tid runId kind h.log)
  | _, _, _ => True

abbrev streamContract (tid : Nat) (call : Call) : Contract Contents Op Reply :=
  bigtable.tracked (fun _ _ _ _ => True) isPoll tid call

section Call

variable {tid : Nat} {runId kind : String} {fromTsMs : Int} {polls : Nat}

theorem sent_of_silent {event : BigtableEvent} {older : List BigtableEvent} (silent : polled runId kind event = none) :
    sent tid runId kind (event :: older) = sent tid runId kind older := by
  simp [sent, ownFold, silent]

theorem sent_of_poll {event : BigtableEvent} {older : List BigtableEvent} {batch : List Entry} (own : event.tid = tid)
    (isPoll : polled runId kind event = some batch) :
    sent tid runId kind (event :: older) = sent tid runId kind older ++ batch := by
  simp [sent, ownFold, own, isPoll]

/-- A poll is one operation. -/
theorem attempt_eventsSince (tid : Nat) (now : Int) : (attempt (eventsSince now runId kind 512)).run =
    .call (pollOp runId) fun res => .ret (.ok (polled runId kind ⟨tid, pollOp runId, res⟩)) := by
  by_cases isRun : runId ≠ ""
  · have isPrefix : pollOp runId = .readPrefix ("j#" ++ runId ++ "#") 100000 := if_pos isRun
    rw [isPrefix, eventsSince, if_pos isRun]
    refine congrArg (Prog.call _) (funext fun res => ?_)
    cases res with
    | error e => rfl
    | ok rows =>
      simp only [polled, pollBatch, askedOf, if_pos isRun]
      rfl
  · have isRange : pollOp runId = .readRange ("jg#" ++ pad20 (min (0 + 1) i64Max)) "jg$" 512 := if_neg isRun
    rw [isRange, eventsSince, if_neg isRun]
    refine congrArg (Prog.call _) (funext fun res => ?_)
    cases res with
    | error e => rfl
    | ok rows =>
      simp only [polled, pollBatch, askedOf, if_neg isRun]
      rfl

theorem safe_subscribeEvents (remaining : Nat) {already : List Entry} {now : Int} {h : BigtableHist}
    (standing : sent tid runId kind h.log = already) :
    bigtable.Safe (streamContract tid (.subscribeEvents fromTsMs runId kind polls)) tid
      (fun result h' => ∃ more, result = .ok more ∧ sent tid runId kind h'.log = already ++ more)
      (subscribeEvents runId kind remaining now).run h := by
  induction remaining generalizing already now h with
  | zero =>
    intro h' foreign
    exact ⟨[], rfl, by rw [sent, foreign.ownFold_eq, ← sent, standing, List.append_nil]⟩
  | succ remaining inductionHypothesis =>
    change bigtable.Safe _ tid _ ((attempt (eventsSince now runId kind 512)).run.bind _) h
    rw [attempt_eventsSince tid now]
    intro h₁ foreign _ res state answers
    refine ⟨⟨_, res, state, rfl, answers, trivial, rfl⟩, ?_⟩
    have before : sent tid runId kind h₁.log = already := foreign.ownFold_eq.trans standing
    dsimp only [Prog.ret_bind]
    cases isPolled : polled runId kind ⟨tid, pollOp runId, res⟩ with
    | none =>
      intro h₂ foreign₂
      refine ⟨[], rfl, ?_⟩
      rw [sent, foreign₂.ownFold_eq, ← sent, List.append_nil]
      exact (sent_of_silent isPolled).trans before
    | some batch =>
      have moved : sent tid runId kind (h₁.push tid (pollOp runId) res state).log = already ++ batch :=
        (sent_of_poll rfl isPolled).trans (congrArg (· ++ batch) before)
      refine System.Safe.exceptMap ((inductionHypothesis moved).mono ?_)
      rintro result h' ⟨more, rfl, grown⟩
      exact ⟨_, rfl, grown.trans (List.append_assoc already batch more)⟩

theorem stream_compose :
    System.Compose bigtable (fun _ => True) (bigtable.tracked (fun _ _ _ _ => True) isPoll) streamPost := by
  refine System.tracked_compose fun {tid call h} _ fresh => ?_
  have other : (∀ h op, isPoll tid call h op) → (∀ result h, streamPost tid call result h) →
      bigtable.Safe (streamContract tid call) tid (streamPost tid call) (bigtable.body call) h := fun always trivially =>
    System.Safe.of_all_proper trivially (Prog.all_of (fun op h => always h op) _) h
  cases call with
  | subscribeEvents fromTsMs runId kind polls =>
    refine (safe_subscribeEvents polls (ownFold_of_fresh fresh)).mono ?_
    rintro result h' ⟨more, rfl, grown⟩
    exact congrArg Except.ok (grown.trans (List.nil_append more)).symm
  | _ => exact other (fun _ _ => trivial) fun _ _ => trivial

/-- What was sent was sent. -/
theorem sent_mono {e : Entry} {older : List BigtableEvent} (already : e ∈ sent tid runId kind older)
    (newer : List BigtableEvent) : e ∈ sent tid runId kind (newer ++ older) := by
  induction newer with
  | nil => exact already
  | cons event newer inductionHypothesis =>
    by_cases own : event.tid = tid
    · rw [List.cons_append, sent, ownFold_cons_self own]
      exact List.mem_append_left _ inductionHypothesis
    · rw [List.cons_append, sent, ownFold_cons_ne own]
      exact inductionHypothesis

end Call

/-! ## Runs -/

/-- Every poll sends all the stream asks for that then stands in the table. -/
def PollsDeliver (tid : Nat) (runId kind : String) (start : BigtableConfig) (choices : List (Choice Call)) : Prop :=
  ∀ before after, choices = before ++ .exec tid :: after → (bigtable.run start before).pending tid ≠ none →
    ∀ e ∈ askedOf runId kind (rowsOf runId (bigtable.run start before).state),
      e ∈ sent tid runId kind (bigtable.run start choices).log

/-- A stream over a Bigtable that is never asked for more than a batch sends all of it with every poll. -/
theorem bigtable_stream_delivers {table : Contents} {choices : List (Choice Call)} {tid : Nat} {fromTsMs : Int}
    {runId kind : String} {polls : Nat}
    (fits : bigtable.Along (System.Executes fun other _ h _ => other = tid → roomy runId kind h.state) (quiet table) choices)
    (serves : (bigtable.run (quiet table) choices).callOf tid = some (.subscribeEvents fromTsMs runId kind polls)) :
    PollsDeliver tid runId kind (quiet table) choices ∧
      ∀ result, (bigtable.run (quiet table) choices).pool[tid]? =
        some ⟨.subscribeEvents fromTsMs runId kind polls, .ret result⟩ →
        result = .ok (sent tid runId kind (bigtable.run (quiet table) choices).log) := by
  have owned := quiet_owned table
  have empty : bigtable.PoolSafe (bigtable.tracked (fun _ _ _ _ => True) isPoll) streamPost (quiet table) :=
    System.poolSafe_of_empty rfl
  have free := System.along_free bigtable (quiet table) choices
  refine ⟨?_, fun result returned => (System.run_safe stream_compose owned empty free).returned returned⟩
  rintro before after rfl moves e asked
  obtain ⟨⟨call, op⟩, pending⟩ := Option.ne_none_iff_exists'.mp moves
  have isCall : call = .subscribeEvents fromTsMs runId kind polls := by
    have stays := System.callOf_run (S := bigtable) (Config.callOf_of_pending pending) (.exec tid :: after)
    rw [← System.run_append, serves] at stays
    exact (Option.some.inj stays).symm
  have isPollOp : op = pollOp runId := by
    have here := (System.Along.append.mp (System.along_proper stream_compose owned empty free)).2.1
    simp only [System.Permits, pending, isCall] at here
    exact here.2
  have isRoomy : roomy runId kind (bigtable.run (quiet table) before).state := by
    have here := (System.Along.append.mp fits).2.1
    simp only [System.Executes, pending] at here
    exact here trivial
  subst isPollOp
  have stepped := System.step_exec_of_pending (S := bigtable) pending
  obtain ⟨newer, grown⟩ := System.run_grown bigtable (bigtable.step (bigtable.run (quiet table) before) (.exec tid)) after
  rw [System.run_append, System.run_cons, grown, congrArg Hist.log stepped, Hist.push_log]
  refine sent_mono ?_ newer
  rw [sent_of_poll rfl (polled_of_roomy isRoomy tid)]
  exact List.mem_append_right _ asked

/-- **Streams by timestamp are at-least-once** where no entry is inserted behind the stream's time and no poll is
    stuck; and on a Bigtable, where the stream asks for one batch. -/
theorem streams_deliver (w : World) (before after : List (Choice Tape.Call)) (table : Contents)
    (choices : List (Choice Call)) (tid : Nat) (fromTsMs : Int) (runId kind : String) (polls : Nat) :
    (tape.Along (System.Executes fun other _ h act => Journal.Timestamps.keepsUp tid fromTsMs runId kind other h act)
        (Tape.quiet w) (before ++ after) →
      tape.Along (System.Executes fun _ _ _ act => Journal.Timestamps.settled fromTsMs runId kind act)
        (tape.run (Tape.quiet w) before) after →
      (tape.run (Tape.quiet w) (before ++ after)).callOf tid = some (.subscribeEvents fromTsMs runId kind polls) →
      Journal.Timestamps.Delivers tid fromTsMs runId kind (tape.run (Tape.quiet w) before)
          (tape.run (Tape.quiet w) (before ++ after)) ∧
        ∀ result, (tape.run (Tape.quiet w) (before ++ after)).pool[tid]? =
          some ⟨.subscribeEvents fromTsMs runId kind polls, .ret result⟩ →
          result = .ok (Journal.Timestamps.streaming tid fromTsMs (tape.run (Tape.quiet w) (before ++ after)).log).sent) ∧
    (bigtable.Along (System.Executes fun other _ h _ => other = tid → roomy runId kind h.state) (quiet table) choices →
      (bigtable.run (quiet table) choices).callOf tid = some (.subscribeEvents fromTsMs runId kind polls) →
      PollsDeliver tid runId kind (quiet table) choices ∧
        ∀ result, (bigtable.run (quiet table) choices).pool[tid]? =
          some ⟨.subscribeEvents fromTsMs runId kind polls, .ret result⟩ →
          result = .ok (sent tid runId kind (bigtable.run (quiet table) choices).log)) :=
  ⟨fun keeps stopped serves => Journal.Timestamps.stream_delivers keeps stopped serves,
    fun fits serves => bigtable_stream_delivers fits serves⟩

/-! ## A writer that comes late -/

def writer (session : String) (ts : Int) : Tape.Call :=
  .beginRun 0 "app" "user" session "invocation" {} "A" 60000 ts session

/-- Thread 1 takes time 1 and stalls, and inserts its entry only after that of time 2 was polled. -/
def late : List (Choice Tape.Call) :=
  [.spawn (.subscribeEvents 0 "" "" 3), .spawn (writer "s1" 1), .spawn (writer "s2" 2)] ++ List.replicate 6 (.exec 1) ++
    List.replicate 7 (.exec 2) ++ [.exec 0, .exec 1]

/-- The two writers insert in the order of their times, each before a poll. -/
def timely : List (Choice Tape.Call) :=
  [.spawn (.subscribeEvents 0 "" "" 3), .spawn (writer "s1" 1), .spawn (writer "s2" 2)] ++ List.replicate 7 (.exec 1) ++
    [.exec 0] ++ List.replicate 7 (.exec 2)

/-- The entry that comes late is never sent, though the stream polls on. -/
theorem late_entry_missed : ¬ Journal.Timestamps.Delivers 0 0 "" ""
    (tape.run (Tape.quiet (World.empty .sqlite)) late)
    (tape.run (Tape.quiet (World.empty .sqlite)) (late ++ [.exec 0])) := by
  intro delivers
  have drained := delivers (by decide +kernel)
  have inserted : (tape.run (Tape.quiet (World.empty .sqlite)) (late ++ [.exec 0])).state.journal.rows.map
      EventEntry.tsMs = [2, 1] := by decide +kernel
  have sent : (Journal.Timestamps.streaming 0 0 (tape.run (Tape.quiet (World.empty .sqlite))
      (late ++ [.exec 0])).log).sent.map EventEntry.tsMs = [2, 2] := by decide +kernel
  obtain ⟨e, member, isLate⟩ := List.mem_map.mp (show (1 : Int) ∈ List.map EventEntry.tsMs _ by rw [inserted]; simp)
  have isDue : Journal.Timestamps.due "" "" 0 e := by
    simp [Journal.Timestamps.due, JournalStmt.asks, isLate]
  have time := List.mem_map_of_mem (f := EventEntry.tsMs) (drained e member isDue)
  simp [sent, isLate] at time

/-- A call of `journal`, at time 7. -/
def entryAt (seq : Int) : Call := .journal "r" seq "effect" (.obj []) 7

/-- In time, every entry is sent; and so it is on a Bigtable with two entries. -/
theorem timely_entries_sent :
    Journal.Timestamps.Drained 0 0 "" "" (tape.run (Tape.quiet (World.empty .sqlite))
        (timely ++ [.exec 0, .exec 0])).toHist ∧
      PollsDeliver 0 "r" "effect" (quiet Contents.empty)
        (.spawn (.subscribeEvents 9 "r" "effect" 1) :: (serve 1 (entryAt 1) ++ serve 2 (entryAt 2) ++ [.exec 0])) := by
  constructor
  · have serves : (tape.run (Tape.quiet (World.empty .sqlite)) (timely ++ [.exec 0, .exec 0])).callOf 0 =
        some (.subscribeEvents 0 "" "" 3) := by
      rw [timely, List.cons_append, List.cons_append, List.cons_append, List.cons_append, System.run_cons]
      exact System.callOf_run rfl _
    have delivers := ((streams_deliver (World.empty .sqlite) timely [.exec 0, .exec 0] Contents.empty [] 0 0 "" "" 3).1
      (by decide +kernel)
      (by decide +kernel) serves).1
    exact delivers (by decide +kernel)
  · refine ((streams_deliver (World.empty .sqlite) [] [] Contents.empty _ 0 9 "r" "effect" 1).2 (by decide +kernel) ?_).1
    rw [System.run_cons]
    exact System.callOf_run rfl _

end Tape.BigtableRunStore
