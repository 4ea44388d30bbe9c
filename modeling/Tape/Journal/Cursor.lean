import Tape.Rules

/-! # Readers of the journal

A reader polls the journal from a cursor and moves the cursor to the largest
`global_seq` it was handed.  `journal_full` takes the number in one transaction and
inserts the entry in another, so an entry can become visible after entries with larger
numbers; a reader that has gone past its number by then never asks for it.
-/

namespace Tape.Journal

open Interleave

/-- What a reader polls: `read_journal_after`, or `events_by_subject` for a pattern. -/
inductive Feed where
  | journal
  | subject (pattern : String)

namespace Feed

/-- The entries the reader asks for. -/
def accepts : Feed → EventEntry → Bool
  | journal, _ => true
  | subject pattern, e => Subjects.«matches» pattern e.subject

/-- What the feed's `SELECT` asks of an entry beyond its number. -/
def prefilter (dialect : Subjects.Dialect) : Feed → EventEntry → Bool
  | journal, _ => true
  | subject pattern, e => Subjects.like dialect (Subjects.patternToSqlLike pattern).toList e.subject.toList

def poll (cursor limit : Int) : Feed → JournalStmt
  | journal => .readAfter cursor (max limit 1)
  | subject pattern => .bySubject cursor (Subjects.patternToSqlLike pattern) (max limit 1)

def follow (limit : Int) (polls : Nat) (cursor : Int) : Feed → Call
  | journal => .followJournal limit polls cursor
  | subject pattern => .followSubject pattern limit polls cursor

/-- The store method behind one poll. -/
def fetch (cursor limit : Int) : Feed → StoreM (List EventEntry)
  | journal => orElse (RunStore.readJournalAfter cursor limit) []
  | subject pattern => RunStore.eventsBySubject cursor pattern limit

/-- The reader's loop, with `polls` polls left. -/
def loop (limit : Int) (polls : Nat) (cursor : Int) : Feed → StoreM Int
  | journal => followJournal limit polls cursor
  | subject pattern => followSubject pattern limit polls cursor

theorem loop_zero (feed : Feed) (limit cursor : Int) : feed.loop limit 0 cursor = return cursor := by
  cases feed <;> rfl

theorem loop_succ (feed : Feed) (limit : Int) (polls : Nat) (cursor : Int) :
    feed.loop limit (polls + 1) cursor =
      feed.fetch cursor limit >>= fun batch => feed.loop limit polls (advanceCursor cursor batch) := by
  cases feed <;> rfl

/-- The entries a poll hands to the reader. -/
def handed (feed : Feed) : TapeEvent → List EventEntry
  | ⟨_, .sql (.journal (.readAfter ..)), .ok rows⟩ => accepted rows
  | ⟨_, .sql (.journal (.bySubject ..)), .ok rows⟩ => accepted rows
  | _ => []
where
  accepted (rows : List EventEntry) : List EventEntry := rows.filter feed.accepts

/-- The entries thread `reader` was handed so far. -/
def delivered (feed : Feed) (reader : Nat) (log : List TapeEvent) : List EventEntry :=
  (log.filter fun event => event.tid = reader).flatMap feed.handed

/-- The cursor of thread `reader`, which started from `start`. -/
def cursor (feed : Feed) (reader : Nat) (start : Int) : List TapeEvent → Int
  | [] => start
  | event :: older =>
    if event.tid = reader then advanceCursor (cursor feed reader start older) (feed.handed event)
    else cursor feed reader start older

end Feed

/-- An entry the reader asks for is inserted, if at all, ahead of the reader's cursor, and the
    `LIKE` prefilter lets it through. -/
def insertsAhead (feed : Feed) (reader : Nat) (start : Int) (h : TapeHist) : Act → Bool
  | .sql (.journal (.insertEntry row)) =>
    !(feed.accepts row && start < row.globalSeq) ||
      (feed.cursor reader start h.log < row.globalSeq && feed.prefilter h.state.dialect row)
  | _ => true

/-! ## Cursors -/

/-- A cursor that moves stops at an entry of the batch. -/
theorem advanceCursor_cases (cursor : Int) (batch : List EventEntry) :
    advanceCursor cursor batch = cursor ∨ ∃ e ∈ batch, advanceCursor cursor batch = e.globalSeq := by
  induction batch generalizing cursor with
  | nil => exact .inl rfl
  | cons e batch inductionHypothesis =>
    -- the first entry moves the cursor or leaves it, the rest of the batch likewise
    rcases inductionHypothesis (max cursor e.globalSeq) with stays | ⟨last, member, moves⟩
    · rcases le_total e.globalSeq cursor with behind | ahead
      · exact .inl (stays.trans (max_eq_left behind))
      · exact .inr ⟨e, List.mem_cons_self, stays.trans (max_eq_right ahead)⟩
    · exact .inr ⟨last, List.mem_cons_of_mem e member, moves⟩

section Reader

variable {feed : Feed} {reader : Nat} {start : Int}

theorem cursor_push_self (h : TapeHist) (act : Act) (res : act.Res) (state : World) :
    feed.cursor reader start (h.push reader act res state).log =
      advanceCursor (feed.cursor reader start h.log) (feed.handed ⟨reader, act, res⟩) := by
  simp [Feed.cursor]

theorem cursor_push_ne (h : TapeHist) {tid : Nat} (act : Act) (res : act.Res) (state : World) (ne : tid ≠ reader) :
    feed.cursor reader start (h.push tid act res state).log = feed.cursor reader start h.log := by
  simp [Feed.cursor, ne]

theorem delivered_push (h : TapeHist) (tid : Nat) (act : Act) (res : act.Res) (state : World) {e : EventEntry}
    (member : e ∈ feed.delivered reader h.log) : e ∈ feed.delivered reader (h.push tid act res state).log := by
  rw [Feed.delivered, Hist.push_log, List.filter_cons]
  split
  · exact List.mem_flatMap.mpr (by
      obtain ⟨event, own, handed⟩ := List.mem_flatMap.mp member
      exact ⟨event, List.mem_cons_of_mem _ own, handed⟩)
  · exact member

theorem delivered_push_self (h : TapeHist) (act : Act) (res : act.Res) (state : World) {e : EventEntry}
    (handed : e ∈ feed.handed ⟨reader, act, res⟩) :
    e ∈ feed.delivered reader (h.push reader act res state).log := by
  rw [Feed.delivered, Hist.push_log, List.filter_cons_of_pos (by simp)]
  exact List.mem_flatMap.mpr ⟨_, List.mem_cons_self, handed⟩

theorem cursor_of_foreign {h h' : TapeHist} (foreign : Foreign reader h h') :
    feed.cursor reader start h'.log = feed.cursor reader start h.log :=
  foreign.eq_of_ignores fun _ _ other => if_neg other

/-- A thread that has done nothing yet stands at its start. -/
theorem cursor_of_fresh {log : List TapeEvent} (fresh : lastOwn reader log = none) :
    feed.cursor reader start log = start := by
  induction log with
  | nil => rfl
  | cons event older inductionHypothesis =>
    rw [lastOwn, List.find?_eq_none] at fresh
    have other : event.tid ≠ reader := by simpa using fresh event List.mem_cons_self
    rw [Feed.cursor, if_neg other]
    refine inductionHypothesis ?_
    rw [lastOwn, List.find?_eq_none]
    exact fun event member => fresh event (List.mem_cons_of_mem _ member)

end Reader

/-! ## The journal table -/

section Rows

variable {act : Act} {w w' : World} {res : act.Res}

theorem dialect_of_answers (answers : tape.Answers act w res w') : w'.dialect = w.dialect := by
  cases answers with
  | fault _ => rfl
  | exec => rcases act with (s | s | s | s | s | s | s) | _ | _ <;> rfl

/-- The journal only grows, by entries under numbers that were free. -/
theorem journal_of_answers (answers : tape.Answers act w res w') :
    w'.journal.rows = w.journal.rows ∨
      ∃ row, act = .journal (.insertEntry row) ∧ w'.journal.rows = w.journal.rows ++ [row] ∧
        ∀ old ∈ w.journal.rows, old.globalSeq ≠ row.globalSeq := by
  cases answers with
  | fault _ => exact .inl rfl
  | exec =>
    rcases act with (s | s | s | s | s | s | s) | _ | _
    case sql.journal =>
      cases s
      case insertEntry row =>
        have table : (tape.exec (.journal (.insertEntry row)) w).2.journal =
          (insertRow "tape_journal" w.journal (fun old => old.globalSeq = row.globalSeq) row).2 := rfl
        rw [table, insertRow]
        split
        next inserted accepted =>
          refine .inr ⟨row, rfl, Sql.Table.rows_insert accepted, fun old member => ?_⟩
          simpa using Sql.Table.not_clash_of_insert accepted old member
        next => exact .inl rfl
      all_goals exact .inl rfl
    all_goals exact .inl rfl

/-- No two entries come to share their number. -/
theorem unique_of_answers (answers : tape.Answers act w res w')
    (unique : ∀ a ∈ w.journal.rows, ∀ b ∈ w.journal.rows, a.globalSeq = b.globalSeq → a = b) :
    ∀ a ∈ w'.journal.rows, ∀ b ∈ w'.journal.rows, a.globalSeq = b.globalSeq → a = b := by
  obtain same | ⟨row, -, grown, free⟩ := journal_of_answers answers
  · rw [same]
    exact unique
  · rw [grown]
    intro a memberA b memberB same
    simp only [List.mem_append, List.mem_singleton] at memberA memberB
    -- the new entry's number was free
    obtain oldA | rfl := memberA <;> obtain oldB | rfl := memberB
    · exact unique a oldA b oldB same
    · exact absurd same (free a oldA)
    · exact absurd same.symm (free b oldB)
    · rfl

end Rows

/-- What a poll of the feed hands over. -/
theorem handed_poll (feed : Feed) (tid : Nat) (cursor limit : Int) (w : World) :
    feed.handed ⟨tid, .journal (feed.poll cursor limit), ((Act.journal (feed.poll cursor limit)).exec w).1⟩ =
      (JournalStmt.tail w cursor (max limit 1) (feed.prefilter w.dialect)).filter feed.accepts := by
  cases feed <;> rfl

/-! ## A reader that has missed nothing -/

structure Caught (feed : Feed) (reader : Nat) (start : Int) (h : TapeHist) : Prop where
  unique : ∀ a ∈ h.state.journal.rows, ∀ b ∈ h.state.journal.rows, a.globalSeq = b.globalSeq → a = b
  prefiltered : ∀ e ∈ h.state.journal.rows, feed.accepts e → start < e.globalSeq →
    feed.prefilter h.state.dialect e
  complete : ∀ e ∈ h.state.journal.rows, feed.accepts e → start < e.globalSeq →
    e.globalSeq ≤ feed.cursor reader start h.log → e ∈ feed.delivered reader h.log

section Steps

variable {feed : Feed} {reader : Nat} {start : Int} {h : TapeHist} {state : World}

/-- A step of another thread: at most an entry appears, ahead of the cursor. -/
theorem Caught.push_ne {tid : Nat} {act : Act} {res : act.Res} (caught : Caught feed reader start h)
    (ne : tid ≠ reader) (ahead : insertsAhead feed reader start h act)
    (answers : tape.Answers act h.state res state) : Caught feed reader start (h.push tid act res state) := by
  have dialect := dialect_of_answers answers
  have unmoved : feed.cursor reader start (h.push tid act res state).log = feed.cursor reader start h.log :=
    cursor_push_ne h act res state ne
  obtain same | ⟨row, rfl, grown, -⟩ := journal_of_answers answers
  · -- nothing was inserted
    refine ⟨unique_of_answers answers caught.unique, ?_, ?_⟩
    · rw [Hist.push_state, same, dialect]
      exact caught.prefiltered
    · rw [Hist.push_state, same, unmoved]
      exact fun e member accepts after behind =>
        delivered_push h tid act res state (caught.complete e member accepts after behind)
  · -- one entry appeared, and the condition says where
    have admitted : feed.accepts row → start < row.globalSeq →
        feed.cursor reader start h.log < row.globalSeq ∧ feed.prefilter h.state.dialect row := by
      intro accepts after
      simpa [insertsAhead, accepts, after] using ahead
    refine ⟨unique_of_answers answers caught.unique, ?_, ?_⟩
    · rw [Hist.push_state, grown, dialect]
      intro e member accepts after
      rcases List.mem_append.mp member with old | new
      · exact caught.prefiltered e old accepts after
      · obtain rfl := List.mem_singleton.mp new
        exact (admitted accepts after).2
    · rw [Hist.push_state, grown, unmoved]
      intro e member accepts after behind
      rcases List.mem_append.mp member with old | new
      · exact delivered_push h tid _ res state (caught.complete e old accepts after behind)
      · obtain rfl := List.mem_singleton.mp new
        exact absurd behind (not_le.mpr (admitted accepts after).1)

/-- A poll of the reader itself: it is handed every entry between its cursor and its next one. -/
theorem Caught.push_poll {limit : Int} {res : (Act.journal (feed.poll (feed.cursor reader start h.log) limit)).Res}
    (caught : Caught feed reader start h)
    (answers : tape.Answers (.journal (feed.poll (feed.cursor reader start h.log) limit)) h.state res state) :
    Caught feed reader start (h.push reader _ res state) := by
  have dialect := dialect_of_answers answers
  have same : state.journal.rows = h.state.journal.rows := by
    obtain same | ⟨row, isInsert, -, -⟩ := journal_of_answers answers
    · exact same
    · cases feed <;> cases isInsert
  constructor
  · rw [Hist.push_state, same]
    exact caught.unique
  · rw [Hist.push_state, same, dialect]
    exact caught.prefiltered
  · rw [Hist.push_state, same, cursor_push_self]
    intro e member accepts after behind
    by_cases known : e.globalSeq ≤ feed.cursor reader start h.log
    · exact delivered_push h reader _ res state (caught.complete e member accepts after known)
    apply delivered_push_self
    -- the cursor moved past the entry, to an entry of the batch that was handed over
    rcases advanceCursor_cases (feed.cursor reader start h.log) (feed.handed ⟨reader, _, res⟩) with
      stays | ⟨last, handed, moves⟩
    · rw [stays] at behind
      exact absurd behind known
    rw [moves] at behind
    obtain ⟨rfl, -⟩ | ⟨failed, -⟩ := answers_cases answers
    · rw [handed_poll, List.mem_filter] at handed ⊢
      refine ⟨mem_limitRows_orderBy ?_ handed.1 ?_ behind, accepts⟩
      · intro a memberA b memberB
        exact caught.unique a (List.mem_of_mem_filter memberA) b (List.mem_of_mem_filter memberB)
      · rw [List.mem_filter, Bool.and_eq_true, decide_eq_true_eq]
        exact ⟨member, not_le.mp known, caught.prefiltered e member accepts after⟩
    · -- a poll that failed hands over nothing
      cases failed
      cases feed <;> cases handed

end Steps

/-! ## The contract of a reader -/

section Contract

variable (feed : Feed) (reader : Nat) (limit : Int) (polls : Nat) (start : Int)

/-- The reader thread polls from its cursor and does nothing else. -/
def cursorContract (tid : Nat) (call : Call) : Contract World Act Act.Res where
  rely := Foreign tid
  allowed h act := insertsAhead feed reader start h act
  guar h h' := ∃ act res state, h' = h.push tid act res state ∧ tape.Answers act h.state res state ∧
    insertsAhead feed reader start h act ∧ (tid = reader → call = feed.follow limit polls start →
      act = .journal (feed.poll (feed.cursor reader start h.log) limit))
  rely_refl := Foreign.refl tid
  rely_trans := Foreign.trans

/-- What a reader returned, as a number. -/
def returnedCursor : (call : Call) → call.Out → Option Int
  | .followJournal .., .ok cursor => some cursor
  | .followSubject .., .ok cursor => some cursor
  | _, _ => none

/-- The reader returns its cursor. -/
def cursorPost (tid : Nat) (call : Call) (out : call.Out) (h : TapeHist) : Prop :=
  tid = reader → call = feed.follow limit polls start → ∀ cursor, returnedCursor call out = some cursor →
    cursor = feed.cursor reader start h.log

end Contract

section Safety

variable {feed : Feed} {reader : Nat} {limit : Int} {polls : Nat} {start : Int}

/-- A poll from the cursor moves the cursor by the batch it returns. -/
theorem safe_fetch {cursor : Int} {h : TapeHist} (standing : feed.cursor reader start h.log = cursor) :
    tape.Safe (cursorContract feed reader limit polls start reader (feed.follow limit polls start)) reader
      (fun result h => ∀ batch, result = .ok batch → feed.cursor reader start h.log = advanceCursor cursor batch)
      (feed.fetch cursor limit).run h := by
  cases feed with
  | journal =>
    intro h₁ rely ahead res state answers
    have now := (cursor_of_foreign rely).trans standing
    refine ⟨⟨_, res, state, rfl, answers, ahead, fun _ _ => by rw [now]; rfl⟩, ?_⟩
    have moved : Feed.journal.cursor reader start (h₁.push reader _ res state).log =
        advanceCursor cursor (Feed.journal.handed ⟨reader, _, res⟩) := by rw [cursor_push_self, now]
    change Except StoreError (List EventEntry) at res
    cases res with
    | ok rows =>
      rintro h₂ rely batch ⟨⟩
      exact (cursor_of_foreign rely).trans (moved.trans (congrArg _ (List.filter_true rows)))
    | error e =>
      -- the failed poll is an empty batch
      rintro h₂ rely batch ⟨⟩
      exact (cursor_of_foreign rely).trans moved
  | subject pattern =>
    refine safe_query (fun _ _ _ returned => by cases returned) fun h₁ res state rely ahead answers => ?_
    have now := (cursor_of_foreign rely).trans standing
    refine ⟨⟨_, res, state, rfl, answers, ahead, fun _ _ => by rw [now]; rfl⟩, ?_⟩
    rintro (rows : List EventEntry) isOk h₂ rely batch ⟨⟩
    rw [cursor_of_foreign rely, cursor_push_self, now, isOk]
    rfl

theorem safe_loop (remaining : Nat) {cursor : Int} {h : TapeHist}
    (standing : feed.cursor reader start h.log = cursor) :
    tape.Safe (cursorContract feed reader limit polls start reader (feed.follow limit polls start)) reader
      (fun result h => ∀ value, result = .ok value → value = feed.cursor reader start h.log)
      (feed.loop limit remaining cursor).run h := by
  induction remaining generalizing cursor h with
  | zero =>
    rw [Feed.loop_zero]
    rintro h' rely value ⟨⟩
    exact ((cursor_of_foreign rely).trans standing).symm
  | succ remaining inductionHypothesis =>
    rw [Feed.loop_succ]
    refine System.Safe.exceptBind (fun _ _ _ returned => by cases returned) ((safe_fetch standing).mono ?_)
    exact fun result h moved batch isOk => inductionHypothesis (moved batch isOk)

end Safety

theorem cursor_compose (feed : Feed) (reader : Nat) (limit : Int) (polls : Nat) (start : Int) :
    System.Compose tape (fun _ => True) (cursorContract feed reader limit polls start)
      (cursorPost feed reader limit polls start) where
  compatible {tid call other call' h h'} ne guar := by
    obtain ⟨act, res, state, rfl, -, -, -⟩ := guar
    exact .push h act res state ne
  fresh {tid call h} _ fresh := by
    by_cases reads : tid = reader ∧ call = feed.follow limit polls start
    · obtain ⟨rfl, rfl⟩ := reads
      have safe : tape.Safe (cursorContract feed tid limit polls start tid (feed.follow limit polls start)) tid
          (fun result h => ∀ value, result = .ok value → value = feed.cursor tid start h.log)
          (feed.loop limit polls start).run h := safe_loop polls (cursor_of_fresh fresh)
      cases feed with
      | journal =>
        refine System.Safe.mono ?_ safe
        intro result h returned _ _ cursor isCursor
        cases result with
        | ok value => exact returned cursor (congrArg Except.ok (Option.some.inj isCursor))
        | error e => cases isCursor
      | subject pattern =>
        refine System.Safe.mono ?_ safe
        intro result h returned _ _ cursor isCursor
        cases result with
        | ok value => exact returned cursor (congrArg Except.ok (Option.some.inj isCursor))
        | error e => cases isCursor
    · -- nothing is asked of the other threads
      refine System.Safe.of_all ?_ (fun _ _ isReader isFollow => absurd ⟨isReader, isFollow⟩ reads) (Prog.all_true _) h
      exact fun h act res state _ ahead answers => ⟨act, res, state, rfl, answers, ahead,
        fun isReader isFollow => absurd ⟨isReader, isFollow⟩ reads⟩

/-- **A reader misses nothing.**  In every interleaving of any calls, from a fresh database, in which
    every entry a reader asks for is inserted ahead of the reader's cursor and let through by its
    prefilter: every entry of the journal that the reader asks for and that its cursor has passed was
    handed to it.  The cursor is the one the reader returns. -/
theorem reader_misses_nothing (feed : Feed) (reader : Nat) (limit : Int) (polls : Nat) (start : Int)
    (dialect : Subjects.Dialect) (choices : List (Choice Call))
    (ahead : tape.Along (System.Permits (fun _ => True) fun _ _ h act => insertsAhead feed reader start h act)
      (quiet (World.empty dialect)) choices)
    (serves : (tape.run (quiet (World.empty dialect)) choices).callOf reader = some (feed.follow limit polls start)) :
    (∀ e ∈ (tape.run (quiet (World.empty dialect)) choices).state.journal.rows, feed.accepts e → start < e.globalSeq →
      e.globalSeq ≤ feed.cursor reader start (tape.run (quiet (World.empty dialect)) choices).log →
      e ∈ feed.delivered reader (tape.run (quiet (World.empty dialect)) choices).log) ∧
    ∀ (out : (feed.follow limit polls start).Out) (cursor : Int),
      (tape.run (quiet (World.empty dialect)) choices).pool[reader]? = some ⟨feed.follow limit polls start, .ret out⟩ →
      returnedCursor (feed.follow limit polls start) out = some cursor →
      cursor = feed.cursor reader start (tape.run (quiet (World.empty dialect)) choices).log := by
  have owned := quiet_owned (World.empty dialect)
  have empty : tape.PoolSafe (cursorContract feed reader limit polls start) (cursorPost feed reader limit polls start)
      (quiet (World.empty dialect)) := System.poolSafe_of_empty rfl
  have compose := cursor_compose feed reader limit polls start
  constructor
  · have caught : Caught feed reader start (tape.run (quiet (World.empty dialect)) choices).toHist := by
      refine System.run_hist_serving compose ?_ owned empty ?_ ahead
      · rintro tid call h h' isCall ⟨act, res, state, rfl, answers, ahead, polling⟩ caught
        -- the reader polls, every other thread inserts at most
        by_cases isReader : tid = reader
        · subst isReader
          rw [serves, Option.some.injEq] at isCall
          obtain rfl := polling rfl isCall.symm
          exact caught.push_poll answers
        · exact caught.push_ne isReader ahead answers
      · constructor <;> simp [World.empty, Sql.Table.empty]
    exact caught.complete
  · intro out cursor returned isCursor
    exact (System.run_safe compose owned empty ahead).returned returned rfl rfl cursor isCursor

/-! ## A writer that is overtaken -/

def writer (session : String) : Call := .beginRun 0 "app" "user" session "invocation" {} "A" 60000 1 session

/-- Thread 0 reads; thread 1 takes number 1 and stalls, and inserts its entry only after thread 2 has
    inserted number 2 and the reader has polled. -/
def overtaken (reads : Call) : List (Choice Call) :=
  [.spawn reads, .spawn (writer "s1"), .spawn (writer "s2")] ++ List.replicate 6 (.exec 1) ++
    List.replicate 7 (.exec 2) ++ [.exec 0, .exec 1, .exec 0, .exec 0]

/-- The two writers insert in the order of their numbers. -/
def inTurn : List (Choice Call) :=
  [.spawn (writer "s1"), .spawn (writer "s2")] ++ List.replicate 7 (.exec 1) ++ [.exec 0] ++
    List.replicate 7 (.exec 2) ++ [.exec 0, .exec 0]

def overtakenRun : TapeConfig :=
  tape.run (quiet (World.empty .sqlite)) (overtaken (Feed.journal.follow 512 3 0))

/-- The reader's cursor is at 2, entry 1 is in the journal, and no poll has handed it over. -/
theorem overtaken_entry_missed :
    ¬ ∀ e ∈ overtakenRun.state.journal.rows, Feed.journal.accepts e → 0 < e.globalSeq →
      e.globalSeq ≤ Feed.journal.cursor 0 0 overtakenRun.log → e ∈ Feed.journal.delivered 0 overtakenRun.log := by
  intro complete
  have inserted : overtakenRun.state.journal.rows.map EventEntry.globalSeq = [2, 1] := by decide +kernel
  have passed : Feed.journal.cursor 0 0 overtakenRun.log = 2 := by decide +kernel
  have handed : (Feed.journal.delivered 0 overtakenRun.log).map EventEntry.globalSeq = [2] := by decide +kernel
  obtain ⟨e, member, isFirst⟩ : ∃ e ∈ overtakenRun.state.journal.rows, e.globalSeq = 1 :=
    List.mem_map.mp (by rw [inserted]; simp)
  have got := complete e member rfl (by omega) (by omega)
  have number : e.globalSeq ∈ [(2 : Int)] := handed ▸ List.mem_map_of_mem got
  simp [isFirst] at number

/-- A reader of the run's subjects, beside two writers that insert in order, has been handed whatever
    its cursor has passed. -/
theorem entries_in_turn_delivered :
    (Feed.subject "/tape/run/**").cursor 0 0 (tape.run (quiet (World.empty .sqlite))
      (.spawn ((Feed.subject "/tape/run/**").follow 512 3 0) :: inTurn)).log = 2 ∧
    ∀ e ∈ (tape.run (quiet (World.empty .sqlite))
        (.spawn ((Feed.subject "/tape/run/**").follow 512 3 0) :: inTurn)).state.journal.rows,
      (Feed.subject "/tape/run/**").accepts e → 0 < e.globalSeq → e.globalSeq ≤ 2 →
      e ∈ (Feed.subject "/tape/run/**").delivered 0 (tape.run (quiet (World.empty .sqlite))
        (.spawn ((Feed.subject "/tape/run/**").follow 512 3 0) :: inTurn)).log := by
  have passed : (Feed.subject "/tape/run/**").cursor 0 0 (tape.run (quiet (World.empty .sqlite))
      (.spawn ((Feed.subject "/tape/run/**").follow 512 3 0) :: inTurn)).log = 2 := by decide +kernel
  have serves : (tape.run (quiet (World.empty .sqlite)) (.spawn ((Feed.subject "/tape/run/**").follow 512 3 0) ::
      inTurn)).callOf 0 = some ((Feed.subject "/tape/run/**").follow 512 3 0) := by
    rw [System.run_cons]
    exact System.callOf_run rfl inTurn
  have complete := (reader_misses_nothing (.subject "/tape/run/**") 0 512 3 0 .sqlite
    (.spawn ((Feed.subject "/tape/run/**").follow 512 3 0) :: inTurn) (by decide +kernel) serves).1
  rw [passed] at complete
  exact ⟨passed, complete⟩

end Tape.Journal
