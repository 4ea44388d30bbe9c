import Tape.Journal.Cursor
import Tape.Sql.Window

/-! # Streams by timestamp

`SubscribeEvents` polls `events_since` from a time, 512 entries at most, and moves on to the largest `ts_ms` it
was handed.  An entry takes its time before it is inserted, so it can appear behind that time; and entries
of one time that fill a batch are all that is ever polled again.
-/

namespace Tape.Journal.Timestamps

open Interleave Sql

/-! ## One poll -/

/-- The `WHERE` clause of `events_since`. -/
def due (runId kind : String) (fromTsMs : Int) (e : EventEntry) : Bool :=
  fromTsMs ≤ e.tsMs && JournalStmt.asks runId kind e

/-- What a poll returns. -/
def batch (rows : List EventEntry) (runId kind : String) (fromTsMs : Int) : List EventEntry :=
  ((rows.filter (due runId kind fromTsMs)).insertionSort
    fun a b => JournalStmt.sinceKey a ≤ JournalStmt.sinceKey b).take 512

/-- The poll is due more than a batch, and a batch of it at one time. -/
def stuck (rows : List EventEntry) (runId kind : String) (fromTsMs : Int) : Bool :=
  512 ≤ rows.countP (fun e => e.tsMs = fromTsMs && JournalStmt.asks runId kind e) &&
    512 < rows.countP (due runId kind fromTsMs)

section Batch

variable {rows : List EventEntry} {runId kind : String} {fromTsMs : Int} {e : EventEntry}

theorem le_of_sinceKey_le {a b : EventEntry} (le : JournalStmt.sinceKey a ≤ JournalStmt.sinceKey b) : a.tsMs ≤ b.tsMs :=
  Prod.Lex.monotone_fst _ _ le

theorem sorted (rows : List EventEntry) :
    (rows.insertionSort fun a b => JournalStmt.sinceKey a ≤ JournalStmt.sinceKey b).Pairwise
      fun a b => JournalStmt.sinceKey a ≤ JournalStmt.sinceKey b := by
  apply List.pairwise_insertionSort

theorem mem_of_mem_batch (member : e ∈ batch rows runId kind fromTsMs) : e ∈ rows ∧ due runId kind fromTsMs e :=
  List.mem_filter.mp ((List.mem_insertionSort _).mp (List.mem_of_mem_take member))

/-- What the poll moves past is in its batch. -/
theorem mem_batch_of_lt (member : e ∈ rows) (isDue : due runId kind fromTsMs e)
    (passed : e.tsMs < advanceTs fromTsMs (batch rows runId kind fromTsMs)) : e ∈ batch rows runId kind fromTsMs := by
  by_contra dropped
  rcases foldl_max_cases EventEntry.tsMs fromTsMs (batch rows runId kind fromTsMs) with stays | ⟨last, kept, moves⟩
  · have reached : fromTsMs ≤ e.tsMs := by simp [due] at isDue; exact isDue.1
    rw [advanceTs, stays] at passed
    omega
  · have listed : e ∈ (rows.filter (due runId kind fromTsMs)).insertionSort
        fun a b => JournalStmt.sinceKey a ≤ JournalStmt.sinceKey b :=
      (List.mem_insertionSort _).mpr (List.mem_filter.mpr ⟨member, isDue⟩)
    have after := le_of_sinceKey_le (key_le_of_not_mem_take JournalStmt.sinceKey (sorted _) kept listed dropped)
    rw [advanceTs, moves] at passed
    omega

/-- A poll that is not stuck hands over all that is due, or moves on. -/
theorem batch_progress (free : stuck rows runId kind fromTsMs = false) :
    (∀ e ∈ rows, due runId kind fromTsMs e → e ∈ batch rows runId kind fromTsMs) ∨
      fromTsMs < advanceTs fromTsMs (batch rows runId kind fromTsMs) := by
  by_contra wedged
  obtain ⟨missing, stays⟩ := not_or.mp wedged
  -- more is due than fits, and all that fits is of the time of the poll
  have full : 512 < rows.countP (due runId kind fromTsMs) := by
    by_contra few
    refine missing fun e member isDue => ?_
    have length : (rows.filter (due runId kind fromTsMs)).length ≤ 512 := by
      rw [← List.countP_eq_length_filter]
      omega
    rw [batch, List.take_of_length_le (by rwa [List.length_insertionSort])]
    exact (List.mem_insertionSort _).mpr (List.mem_filter.mpr ⟨member, isDue⟩)
  have equal : ∀ e ∈ batch rows runId kind fromTsMs, e.tsMs = fromTsMs ∧ JournalStmt.asks runId kind e := by
    intro e kept
    have isDue := (mem_of_mem_batch kept).2
    simp only [due, Bool.and_eq_true, decide_eq_true_eq] at isDue
    have bound := column_le_foldl_max EventEntry.tsMs fromTsMs kept
    rw [advanceTs] at stays
    exact ⟨by omega, isDue.2⟩
  have many : 512 ≤ rows.countP fun e => e.tsMs = fromTsMs && JournalStmt.asks runId kind e := by
    have all : (batch rows runId kind fromTsMs).countP (fun e => e.tsMs = fromTsMs && JournalStmt.asks runId kind e) =
        (batch rows runId kind fromTsMs).length := by
      refine List.countP_eq_length.mpr fun e kept => ?_
      simpa using equal e kept
    have length : (batch rows runId kind fromTsMs).length = 512 := by
      rw [batch, List.length_take, List.length_insertionSort, ← List.countP_eq_length_filter]
      omega
    have within : (batch rows runId kind fromTsMs).countP (fun e => e.tsMs = fromTsMs && JournalStmt.asks runId kind e) ≤
        (rows.filter (due runId kind fromTsMs)).countP fun e => e.tsMs = fromTsMs && JournalStmt.asks runId kind e := by
      rw [batch, ← (List.perm_insertionSort (fun a b => JournalStmt.sinceKey a ≤ JournalStmt.sinceKey b)
        (rows.filter (due runId kind fromTsMs))).countP_eq]
      exact (List.take_sublist _ _).countP_le
    have filtered := (List.filter_sublist (p := due runId kind fromTsMs) (l := rows)).countP_le
      (p := fun e => e.tsMs = fromTsMs && JournalStmt.asks runId kind e)
    omega
  simp [stuck, many, full] at free

end Batch

/-! ## The loop as a function of its polls -/

/-- The variable of the loop, what it has sent, and how many polls have succeeded. -/
structure Stream where
  fromTsMs : Int
  sent : List EventEntry
  polls : Nat

def Stream.start (fromTsMs : Int) : Stream where
  fromTsMs := fromTsMs
  sent := []
  polls := 0

/-- One poll that returned `batch`. -/
def Stream.poll (s : Stream) (batch : List EventEntry) : Stream where
  fromTsMs := advanceTs s.fromTsMs batch
  sent := s.sent ++ batch
  polls := s.polls + 1

/-- The batch of a poll that succeeded. -/
def polled : TapeEvent → Option (List EventEntry)
  | ⟨_, .sql (.journal (.since ..)), .ok rows⟩ => some rows
  | _ => none

/-- Where the polls of thread `tid` have brought its loop, from `fromTsMs` on. -/
def streaming (tid : Nat) (fromTsMs : Int) : List TapeEvent → Stream :=
  ownFold tid (fun s event => (polled event).elim s s.poll) (.start fromTsMs)

theorem streaming_of_silent {tid : Nat} {fromTsMs : Int} {event : TapeEvent} {older : List TapeEvent}
    (silent : polled event = none) : streaming tid fromTsMs (event :: older) = streaming tid fromTsMs older := by
  simp [streaming, ownFold, silent]

theorem streaming_of_poll {tid : Nat} {fromTsMs : Int} {event : TapeEvent} {older : List TapeEvent}
    {batch : List EventEntry} (own : event.tid = tid) (isPoll : polled event = some batch) :
    streaming tid fromTsMs (event :: older) = (streaming tid fromTsMs older).poll batch := by
  simp [streaming, ownFold, own, isPoll]

/-! ## What is asked of the steps -/

/-- No entry the stream asks for is inserted behind its time, and no poll of the stream is stuck. -/
def keepsUp (tid : Nat) (fromTsMs : Int) (runId kind : String) (other : Nat) (h : TapeHist) : Act → Bool
  | .sql (.journal (.insertEntry row)) => !due runId kind fromTsMs row || (streaming tid fromTsMs h.log).fromTsMs ≤ row.tsMs
  | .sql (.journal (.since ..)) => other ≠ tid ||
    !stuck h.state.journal.rows runId kind (streaming tid fromTsMs h.log).fromTsMs
  | _ => true

/-- No entry that the stream asks for. -/
def settled (fromTsMs : Int) (runId kind : String) : Act → Bool
  | .sql (.journal (.insertEntry row)) => !due runId kind fromTsMs row
  | _ => true

/-- How many entries are ahead of the stream's time. -/
def ahead (rows : List EventEntry) (runId kind : String) (s : Stream) : Nat :=
  rows.countP fun e => s.fromTsMs < e.tsMs && JournalStmt.asks runId kind e

/-! ## Invariants -/

section Steps

variable {tid other : Nat} {fromTsMs : Int} {runId kind : String} {h : TapeHist} {act : Act} {res : act.Res} {state : World}

/-- Every entry the stream has moved past was sent. -/
structure Kept (tid : Nat) (fromTsMs : Int) (runId kind : String) (h : TapeHist) : Prop where
  start : fromTsMs ≤ (streaming tid fromTsMs h.log).fromTsMs
  sent : ∀ e ∈ h.state.journal.rows, due runId kind fromTsMs e → e.tsMs < (streaming tid fromTsMs h.log).fromTsMs →
    e ∈ (streaming tid fromTsMs h.log).sent

/-- Every entry the stream asks for was sent. -/
def Drained (tid : Nat) (fromTsMs : Int) (runId kind : String) (h : TapeHist) : Prop :=
  ∀ e ∈ h.state.journal.rows, due runId kind fromTsMs e → e ∈ (streaming tid fromTsMs h.log).sent

theorem polled_poll (tid : Nat) (cursor : Int) (w : World) :
    polled ⟨tid, .journal (.since cursor runId kind (max 512 1)),
      ((Act.journal (.since cursor runId kind (max 512 1))).exec w).1⟩ = some (batch w.journal.rows runId kind cursor) := rfl

theorem Kept.initial (w : World) : Kept tid fromTsMs runId kind (quiet w).toHist where
  start := le_refl fromTsMs
  sent e _ isDue behind := by
    have reached : fromTsMs ≤ e.tsMs := by simp [due] at isDue; exact isDue.1
    exact absurd behind (not_lt.mpr reached)

/-- A step that is no poll of the stream: at most an entry appears, not behind the stream's time. -/
theorem Kept.push_silent (kept : Kept tid fromTsMs runId kind h)
    (unmoved : streaming tid fromTsMs (h.push other act res state).log = streaming tid fromTsMs h.log)
    (appears : state.journal.rows = h.state.journal.rows ∨ ∃ row, state.journal.rows = h.state.journal.rows ++ [row] ∧
      (due runId kind fromTsMs row → (streaming tid fromTsMs h.log).fromTsMs ≤ row.tsMs)) :
    Kept tid fromTsMs runId kind (h.push other act res state) := by
  refine ⟨by rw [unmoved]; exact kept.start, ?_⟩
  rw [unmoved, Hist.push_state]
  intro e member isDue behind
  obtain same | ⟨row, grown, timely⟩ := appears
  · exact kept.sent e (by rwa [same] at member) isDue behind
  · rw [grown] at member
    rcases List.mem_append.mp member with old | new
    · exact kept.sent e old isDue behind
    · obtain rfl := List.mem_singleton.mp new
      exact absurd behind (not_lt.mpr (timely isDue))

/-- A poll sends whatever it moves past. -/
theorem Kept.push_poll (kept : Kept tid fromTsMs runId kind h) {res : act.Res}
    (polls : polled ⟨tid, act, res⟩ =
      some (batch h.state.journal.rows runId kind (streaming tid fromTsMs h.log).fromTsMs))
    (same : state.journal.rows = h.state.journal.rows) : Kept tid fromTsMs runId kind (h.push tid act res state) := by
  have moved : streaming tid fromTsMs (h.push tid act res state).log = (streaming tid fromTsMs h.log).poll
      (batch h.state.journal.rows runId kind (streaming tid fromTsMs h.log).fromTsMs) := streaming_of_poll rfl polls
  refine ⟨?_, ?_⟩
  · rw [moved]
    exact kept.start.trans (le_foldl_max _ _ _)
  · rw [moved, Hist.push_state, same]
    intro e member isDue behind
    refine List.mem_append.mpr ?_
    by_cases old : e.tsMs < (streaming tid fromTsMs h.log).fromTsMs
    · exact .inl (kept.sent e member isDue old)
    · refine .inr (mem_batch_of_lt member ?_ behind)
      simp only [due, Bool.and_eq_true, decide_eq_true_eq] at isDue ⊢
      exact ⟨not_lt.mp old, isDue.2⟩

/-- Everything was sent, or the polls left to a budget outnumber the entries ahead. -/
def Draining (tid : Nat) (fromTsMs : Int) (runId kind : String) (budget : Nat) (h : TapeHist) : Prop :=
  Drained tid fromTsMs runId kind h ∨
    ahead h.state.journal.rows runId kind (streaming tid fromTsMs h.log) + (streaming tid fromTsMs h.log).polls ≤ budget

theorem Draining.push_silent {budget : Nat} (draining : Draining tid fromTsMs runId kind budget h)
    (kept : Kept tid fromTsMs runId kind h)
    (unmoved : streaming tid fromTsMs (h.push other act res state).log = streaming tid fromTsMs h.log)
    (appears : state.journal.rows = h.state.journal.rows ∨
      ∃ row, state.journal.rows = h.state.journal.rows ++ [row] ∧ due runId kind fromTsMs row = false) :
    Draining tid fromTsMs runId kind budget (h.push other act res state) := by
  obtain same | ⟨row, grown, notDue⟩ := appears
  · rw [Draining, Drained, unmoved, Hist.push_state, same]
    exact draining
  · have uncounted : ((streaming tid fromTsMs h.log).fromTsMs < row.tsMs && JournalStmt.asks runId kind row) = false := by
      have start := kept.start
      by_contra counted
      simp only [Bool.not_eq_false, Bool.and_eq_true, decide_eq_true_eq] at counted
      simp only [due, counted.2, Bool.and_true, decide_eq_false_iff_not] at notDue
      omega
    rw [Draining, Drained, ahead, unmoved, Hist.push_state, grown, List.countP_append, List.countP_singleton, uncounted]
    refine draining.imp (fun drained e member isDue => ?_) fun bound => by simpa [ahead] using bound
    rcases List.mem_append.mp member with old | new
    · exact drained e old isDue
    · rw [List.mem_singleton.mp new, notDue] at isDue
      cases isDue

/-- A poll that is not stuck drains the journal, or leaves fewer entries ahead. -/
theorem Draining.push_poll {budget : Nat} (draining : Draining tid fromTsMs runId kind budget h)
    (kept : Kept tid fromTsMs runId kind h) {res : act.Res}
    (polls : polled ⟨tid, act, res⟩ =
      some (batch h.state.journal.rows runId kind (streaming tid fromTsMs h.log).fromTsMs))
    (free : stuck h.state.journal.rows runId kind (streaming tid fromTsMs h.log).fromTsMs = false)
    (same : state.journal.rows = h.state.journal.rows) :
    Draining tid fromTsMs runId kind budget (h.push tid act res state) := by
  have moved : streaming tid fromTsMs (h.push tid act res state).log = (streaming tid fromTsMs h.log).poll
      (batch h.state.journal.rows runId kind (streaming tid fromTsMs h.log).fromTsMs) := streaming_of_poll rfl polls
  rw [Draining, Drained, moved, Hist.push_state, same]
  rcases draining with drained | bound
  · exact .inl fun e member isDue => List.mem_append_left _ (drained e member isDue)
  rcases batch_progress free with all | moves
  · refine .inl fun e member isDue => List.mem_append.mpr ?_
    by_cases old : e.tsMs < (streaming tid fromTsMs h.log).fromTsMs
    · exact .inl (kept.sent e member isDue old)
    · refine .inr (all e member ?_)
      simp only [due, Bool.and_eq_true, decide_eq_true_eq] at isDue ⊢
      exact ⟨not_lt.mp old, isDue.2⟩
  · refine .inr ?_
    -- the time moved to that of an entry that was ahead
    rcases foldl_max_cases EventEntry.tsMs (streaming tid fromTsMs h.log).fromTsMs
      (batch h.state.journal.rows runId kind (streaming tid fromTsMs h.log).fromTsMs) with stays | ⟨last, inBatch, reached⟩
    · rw [advanceTs, stays] at moves
      exact absurd moves (lt_irrefl _)
    · obtain ⟨member, isDue⟩ := mem_of_mem_batch inBatch
      simp only [due, Bool.and_eq_true] at isDue
      have fewer : ahead h.state.journal.rows runId kind ((streaming tid fromTsMs h.log).poll
          (batch h.state.journal.rows runId kind (streaming tid fromTsMs h.log).fromTsMs)) <
          ahead h.state.journal.rows runId kind (streaming tid fromTsMs h.log) := by
        rw [advanceTs, reached] at moves
        refine countP_lt_countP (fun e _ later => ?_) member (by simp [moves, isDue.2]) ?_
        · simp only [Stream.poll, advanceTs, reached, Bool.and_eq_true, decide_eq_true_eq] at later ⊢
          exact ⟨moves.trans later.1, later.2⟩
        · simp [Stream.poll, advanceTs, reached]
      simp only [Stream.poll] at fewer ⊢
      omega

end Steps

/-! ## The call -/

section Safety

variable {tid : Nat} {fromTsMs : Int} {runId kind : String} {polls : Nat}

/-- A stream polls from its time, and does nothing else. -/
def isPoll (tid : Nat) : Call → TapeHist → Act → Prop
  | .subscribeEvents fromTsMs runId kind _, h, act =>
    act = .journal (.since (streaming tid fromTsMs h.log).fromTsMs runId kind (max 512 1))
  | _, _, _ => True

abbrev streamContract (tid : Nat) (call : Call) : Contract World Act Act.Res :=
  tape.tracked (fun _ _ _ _ => True) isPoll tid call

/-- A stream returns what its polls have made it send. -/
def streamPost (tid : Nat) : (call : Call) → Call.Out call → TapeHist → Prop
  | .subscribeEvents fromTsMs _ _ _, result, h => result = .ok (streaming tid fromTsMs h.log).sent
  | _, _, _ => True

theorem streaming_of_foreign {h h' : TapeHist} (foreign : Foreign tid h h') :
    streaming tid fromTsMs h'.log = streaming tid fromTsMs h.log := foreign.ownFold_eq

theorem safe_subscribeEvents (remaining : Nat) {s : Stream} {h : TapeHist} (standing : streaming tid fromTsMs h.log = s) :
    tape.Safe (streamContract tid (.subscribeEvents fromTsMs runId kind polls)) tid
      (fun result h' => ∃ more, result = .ok more ∧ (streaming tid fromTsMs h'.log).sent = s.sent ++ more)
      (subscribeEvents runId kind remaining s.fromTsMs).run h := by
  induction remaining generalizing s h with
  | zero =>
    intro h' foreign
    exact ⟨[], rfl, by rw [streaming_of_foreign foreign, standing, List.append_nil]⟩
  | succ remaining inductionHypothesis =>
    refine safe_attempt (safe_perform fun h₁ res₁ state₁ foreign₁ _ answers₁ => ?_)
    have now : streaming tid fromTsMs h₁.log = s := (streaming_of_foreign foreign₁).trans standing
    refine ⟨⟨_, res₁, state₁, rfl, answers₁, trivial, by rw [isPoll, now]⟩, fun h₂ foreign₂ h₃ foreign₃ => ?_⟩
    have upTo : ∀ {h'}, Foreign tid h₃ h' → streaming tid fromTsMs h'.log = streaming tid fromTsMs
        (h₁.push tid (.journal (.since s.fromTsMs runId kind (max 512 1))) res₁ state₁).log :=
      fun foreign => streaming_of_foreign ((foreign₂.trans foreign₃).trans foreign)
    match res₁ with
    | .error e =>
      intro h' foreign
      have silent := (upTo foreign).trans (streaming_of_silent rfl)
      exact ⟨[], rfl, by rw [silent, now, List.append_nil]⟩
    | .ok batch =>
      have moved : streaming tid fromTsMs h₃.log = s.poll batch := by
        refine (upTo (Foreign.refl tid h₃)).trans ?_
        rw [← now]
        exact streaming_of_poll rfl rfl
      refine safe_return ((inductionHypothesis moved).mono ?_)
      rintro result h' ⟨more, rfl, grown⟩
      exact ⟨_, rfl, grown.trans (List.append_assoc s.sent batch more)⟩

theorem stream_compose :
    System.Compose tape (fun _ => True) (tape.tracked (fun _ _ _ _ => True) isPoll) streamPost := by
  refine System.tracked_compose fun {tid call h} _ fresh => ?_
  have other : (∀ h act, isPoll tid call h act) → (∀ result h, streamPost tid call result h) →
      tape.Safe (streamContract tid call) tid (streamPost tid call) (tape.body call) h := fun always trivially =>
    System.Safe.of_all_proper trivially (Prog.all_of (fun act h => always h act) _) h
  cases call with
  | subscribeEvents fromTsMs runId kind polls =>
    refine (safe_subscribeEvents polls (ownFold_of_fresh fresh)).mono ?_
    rintro result h' ⟨more, rfl, grown⟩
    exact congrArg Except.ok (grown.trans (List.nil_append more)).symm
  | _ => exact other (fun _ _ => trivial) fun _ _ => trivial

end Safety

/-! ## Runs -/

section Runs

variable {tid other : Nat} {fromTsMs : Int} {runId kind : String} {polls : Nat} {call : Call} {h : TapeHist} {act : Act}

/-- An executed step is a poll of the stream from its time, or leaves the stream where it is. -/
theorem poll_or_unmoved (serves : other = tid → call = .subscribeEvents fromTsMs runId kind polls)
    (proper : isPoll other call h act) :
    other = tid ∧ act = .journal (.since (streaming tid fromTsMs h.log).fromTsMs runId kind (max 512 1)) ∨
      ∀ (res : act.Res) state, streaming tid fromTsMs (h.push other act res state).log = streaming tid fromTsMs h.log := by
  by_cases own : other = tid
  · rw [serves own, own] at proper
    exact .inl ⟨own, proper⟩
  · exact .inr fun res state => ownFold_cons_ne own

theorem polled_of_fault {res : act.Res} (failed : act.fault = some res) : polled ⟨tid, act, res⟩ = none := by
  unfold polled
  split
  next same =>
    cases same
    cases failed
  next => rfl

/-- What appears in the journal when a step is executed or fails, if anything. -/
theorem row_of_answers {res : act.Res} {state : World} (answers : tape.Answers act h.state res state) :
    state.journal.rows = h.state.journal.rows ∨
      ∃ row, act = .journal (.insertEntry row) ∧ state.journal.rows = h.state.journal.rows ++ [row] :=
  (journal_of_answers answers).imp_right fun ⟨row, isInsert, grown, _⟩ => ⟨row, isInsert, grown⟩

theorem Kept.exec (kept : Kept tid fromTsMs runId kind h)
    (serves : other = tid → call = .subscribeEvents fromTsMs runId kind polls) (proper : isPoll other call h act)
    (keeps : keepsUp tid fromTsMs runId kind other h act) :
    Kept tid fromTsMs runId kind (h.push other act (act.exec h.state).1 (act.exec h.state).2) := by
  rcases poll_or_unmoved serves proper with ⟨rfl, rfl⟩ | unmoved
  · exact kept.push_poll (polled_poll other _ h.state) rfl
  · refine kept.push_silent (unmoved _ _) ((row_of_answers (.exec (S := tape))).imp_right ?_)
    rintro ⟨row, rfl, grown⟩
    exact ⟨row, grown, fun isDue => by simpa [keepsUp, isDue] using keeps⟩

theorem Draining.exec {budget : Nat} (draining : Draining tid fromTsMs runId kind budget h)
    (kept : Kept tid fromTsMs runId kind h)
    (serves : other = tid → call = .subscribeEvents fromTsMs runId kind polls) (proper : isPoll other call h act)
    (keeps : keepsUp tid fromTsMs runId kind other h act) (isSettled : settled fromTsMs runId kind act) :
    Draining tid fromTsMs runId kind budget (h.push other act (act.exec h.state).1 (act.exec h.state).2) := by
  rcases poll_or_unmoved serves proper with ⟨rfl, rfl⟩ | unmoved
  · exact draining.push_poll kept (polled_poll other _ h.state) (by simpa [keepsUp] using keeps) rfl
  · refine draining.push_silent kept (unmoved _ _) ((row_of_answers (.exec (S := tape))).imp_right ?_)
    rintro ⟨row, rfl, grown⟩
    exact ⟨row, grown, by simpa [settled] using isSettled⟩

theorem Kept.fault (kept : Kept tid fromTsMs runId kind h) {res : act.Res} (failed : act.fault = some res) :
    Kept tid fromTsMs runId kind (h.push other act res h.state) :=
  kept.push_silent (streaming_of_silent (polled_of_fault failed)) (.inl rfl)

theorem Draining.fault {budget : Nat} (draining : Draining tid fromTsMs runId kind budget h)
    (kept : Kept tid fromTsMs runId kind h) {res : act.Res} (failed : act.fault = some res) :
    Draining tid fromTsMs runId kind budget (h.push other act res h.state) :=
  draining.push_silent kept (streaming_of_silent (polled_of_fault failed)) (.inl rfl)

end Runs

/-- Once the stream has polled more often than there were entries ahead of it, it has sent all it is asked
    for, those that stood in the journal at `c` among them. -/
def Delivers (tid : Nat) (fromTsMs : Int) (runId kind : String) (c c' : TapeConfig) : Prop :=
  (streaming tid fromTsMs c.log).polls + ahead c.state.journal.rows runId kind (streaming tid fromTsMs c.log) <
    (streaming tid fromTsMs c'.log).polls → Drained tid fromTsMs runId kind c'.toHist

/-- **A stream by timestamp is at-least-once**, in every run in which no entry it asks for is inserted behind
    its time and no poll of it is stuck: once the inserts stop, it sends every entry it asks for. -/
theorem stream_delivers {w : World} {before after : List (Choice Call)} {tid : Nat} {fromTsMs : Int} {runId kind : String}
    {polls : Nat}
    (keeps : tape.Along (System.Executes fun other _ h act => keepsUp tid fromTsMs runId kind other h act) (quiet w)
      (before ++ after))
    (stopped : tape.Along (System.Executes fun _ _ _ act => settled fromTsMs runId kind act)
      (tape.run (quiet w) before) after)
    (serves : (tape.run (quiet w) (before ++ after)).callOf tid = some (.subscribeEvents fromTsMs runId kind polls)) :
    Delivers tid fromTsMs runId kind (tape.run (quiet w) before) (tape.run (quiet w) (before ++ after)) ∧
      ∀ result, (tape.run (quiet w) (before ++ after)).pool[tid]? =
        some ⟨.subscribeEvents fromTsMs runId kind polls, .ret result⟩ →
        result = .ok (streaming tid fromTsMs (tape.run (quiet w) (before ++ after)).log).sent := by
  have owned := quiet_owned w
  have empty : tape.PoolSafe (tape.tracked (fun _ _ _ _ => True) isPoll) streamPost (quiet w) :=
    System.poolSafe_of_empty rfl
  have permits : tape.Along (System.Permits (fun _ => True) fun _ _ _ _ => True) (quiet w) (before ++ after) :=
    System.along_free tape (quiet w) _
  have known : tape.Along (System.Executes fun other call h act =>
      isPoll other call h act ∧ keepsUp tid fromTsMs runId kind other h act) (quiet w) (before ++ after) :=
    ((System.along_proper stream_compose owned empty permits).and keeps).mono fun c choice both =>
      (System.Executes.of_permits (both.1.mono fun _ _ _ => And.right)).and both.2
  obtain ⟨first, second⟩ := System.Along.append.mp known
  rw [System.run_append] at serves ⊢
  have isCall : ∀ {other call}, (tape.run (tape.run (quiet w) before) after).callOf other = some call → other = tid →
      call = .subscribeEvents fromTsMs runId kind polls := by
    rintro other call isOther rfl
    exact Option.some.inj (isOther.symm.trans serves)
  have kept : Kept tid fromTsMs runId kind (tape.run (quiet w) before).toHist := by
    refine System.run_hist_of_execs ?_ (fun _ _ _ _ failed kept => kept.fault failed) (Kept.initial w) first
    exact fun other call h act isOther both kept => kept.exec (isCall (System.callOf_run isOther after)) both.1 both.2
  constructor
  · intro enough
    -- the budget of the polls after `before` is the number of entries ahead there
    let budget := (streaming tid fromTsMs (tape.run (quiet w) before).log).polls +
      ahead (tape.run (quiet w) before).state.journal.rows runId kind (streaming tid fromTsMs (tape.run (quiet w) before).log)
    have drained := System.run_hist_of_execs
      (I := fun h => Kept tid fromTsMs runId kind h ∧ Draining tid fromTsMs runId kind budget h)
      (fun other call h act isOther permitted both =>
        ⟨both.1.exec (isCall isOther) permitted.1.1 permitted.1.2,
          both.2.exec both.1 (isCall isOther) permitted.1.1 permitted.1.2 permitted.2⟩)
      (fun other h act res failed both => ⟨both.1.fault failed, both.2.fault both.1 failed⟩)
      ⟨kept, .inr (Nat.add_comm _ _).le⟩ ((second.and stopped).mono fun c choice both => both.1.and both.2)
    exact drained.2.resolve_right (by omega)
  · intro result returned
    rw [← System.run_append] at returned ⊢
    exact (System.run_safe stream_compose owned empty permits).returned returned

end Tape.Journal.Timestamps
