import Tape.Journal.Cursor
import Tape.Methods

/-! # Sequence numbers

`next_seq` raises the run's cursor in one statement and reads it in another.  The number
it returns is whatever the cursor has come to by then: two calls that both raise it before
either reads it return the same number, and the second journal entry is refused for its
key, after the row it is about was changed.  As long as the cursor is raised between any
two reads of it, the numbers differ, and every entry finds its key free.
-/

namespace Tape.Run

open Interleave

/-- The run's cursor; zero while there is no such run. -/
def cursorOf (runId : String) (w : World) : Int := ((w.runs.find? runId).map RunRow.seqCursor).getD 0

/-! ## Events -/

/-- The `UPDATE` of `next_seq` raised the run's cursor. -/
def raises (runId : String) : TapeEvent → Bool
  | ⟨_, .sql (.run (.bumpSeq r)), .ok updated⟩ => r = runId && changed updated
  | _ => false
where
  changed (updated : Nat) : Bool := 0 < updated

/-- The number that the `SELECT` of `next_seq` read. -/
def numberRead (runId : String) : TapeEvent → Option Int
  | ⟨_, .sql (.run (.readSeq r)), .ok cursor⟩ => if r = runId then some (cursor.getD 0) else none
  | _ => none

/-- The numbers that calls of `next_seq` have returned for the run. -/
def numbersRead (runId : String) (log : List TapeEvent) : List Int := log.filterMap (numberRead runId)

/-- The event tried to append an entry of the run. -/
def appends (runId : String) : TapeEvent → Bool
  | ⟨_, .sql (.journal (.insertEntry row)), _⟩ => row.runId = runId
  | _ => false

/-- The cursor was raised since it was last read. -/
def raisedSinceRead (runId : String) : List TapeEvent → Bool
  | [] => false
  | event :: older => raises runId event || (numberRead runId event).isNone && raisedSinceRead runId older

/-- The number that the thread has read and not yet appended an entry under. -/
def held (tid : Nat) (runId : String) : List TapeEvent → Option Int
  | [] => none
  | event :: older =>
    if event.tid = tid then
      (numberRead runId event).orElse fun _ => if appends runId event then none else held tid runId older
    else held tid runId older

/-- The cursor is read only after it was raised again, and no entry of the run is appended under the
    placeholder that stands for a failed `next_seq`. -/
def apart (runId : String) (h : TapeHist) : Act → Bool
  | .sql (.run (.readSeq r)) => r ≠ runId || raisedSinceRead runId h.log
  | .sql (.journal (.insertEntry row)) => row.runId ≠ runId || row.seq ≠ 0
  | _ => true

/-- The key of the entry is free. -/
def keyFree (runId : String) (h : TapeHist) : Act → Bool
  | .sql (.journal (.insertEntry row)) => row.runId ≠ runId || (h.state.journal.find? row.pk).isNone
  | _ => true

/-- An entry goes under the number its thread holds, or under the placeholder; the cursor is read by the thread whose
    last statement was to raise it; a run starts at zero. -/
def UsesOwn (tid : Nat) (h : TapeHist) : Act → Prop
  | .sql (.journal (.insertEntry row)) => held tid row.runId h.log = some row.seq ∨ row.seq = 0
  | .sql (.run (.readSeq r)) => ∃ updated : Nat, lastOwn tid h.log = some ⟨tid, .run (.bumpSeq r), .ok updated⟩
  | .sql (.run (.insertRun row)) => row.seqCursor = 0
  | _ => True

section Held

variable {tid : Nat} {runId : String} {event : TapeEvent} {log : List TapeEvent}

theorem held_of_foreign {h h' : TapeHist} (foreign : Foreign tid h h') :
    held tid runId h'.log = held tid runId h.log :=
  foreign.eq_of_ignores fun event older other => by simp [held, other]

theorem held_cons_ne (ne : tid ≠ event.tid) : held tid runId (event :: log) = held tid runId log := by
  simp [held, Ne.symm ne]

theorem held_cons_read {number : Int} (isRead : numberRead runId event = some number) :
    held event.tid runId (event :: log) = some number := by
  simp [held, isRead]

theorem held_cons_append (unread : numberRead runId event = none) (isAppend : appends runId event) :
    held event.tid runId (event :: log) = none := by
  simp [held, unread, isAppend]

theorem held_cons_other (unread : numberRead runId event = none) (other : appends runId event = false) :
    held tid runId (event :: log) = held tid runId log := by
  simp [held, unread, other]

theorem held_cons_plain {act : Act} {res : act.Res} (isPlain : isPlain act) :
    held tid runId (⟨tid, act, res⟩ :: log) = held tid runId log := by
  refine held_cons_other ?_ ?_
  · unfold numberRead
    split
    next same =>
      cases same
      cases isPlain
    next => rfl
  · unfold appends
    split
    next same =>
      cases same
      cases isPlain
    next => rfl

theorem mem_of_held {number : Int} (isHeld : held tid runId log = some number) :
    number ∈ numbersRead runId log := by
  induction log with
  | nil => cases isHeld
  | cons event log inductionHypothesis =>
    simp only [held] at isHeld
    have later : number ∈ numbersRead runId log → number ∈ numbersRead runId (event :: log) := by
      intro member
      rw [numbersRead, List.filterMap_cons]
      split
      · exact member
      · exact List.mem_cons_of_mem _ member
    split at isHeld
    next =>
      cases isRead : numberRead runId event with
      | none =>
        rw [isRead, Option.orElse_none] at isHeld
        split at isHeld
        · cases isHeld
        · exact later (inductionHypothesis isHeld)
      | some read =>
        rw [isRead, Option.orElse_some, Option.some.injEq] at isHeld
        simp [numbersRead, isRead, isHeld]
    next => exact later (inductionHypothesis isHeld)

end Held

/-! ## The methods -/

abbrev sequenceContract (ok : Nat → Call → TapeHist → Act → Prop) : Nat → Call → Contract World Act Act.Res :=
  tape.tracked ok fun tid _ h act => UsesOwn tid h act

section Safety

variable {ok : Nat → Call → TapeHist → Act → Prop} {tid : Nat} {call : Call}

theorem usesOwn_of_plain {act : Act} (isPlain : isPlain act) (h : TapeHist) : UsesOwn tid h act := by
  unfold UsesOwn
  split
  next => cases isPlain
  next => cases isPlain
  next => exact of_decide_eq_true isPlain
  next => trivial

/-- The number `next_seq` returns is the one its thread holds from then on. -/
theorem safe_nextSeq (runId : String) (h : TapeHist) :
    tape.Safe (tape.tracked ok (fun tid _ h act => UsesOwn tid h act) tid call) tid
      (fun result h => ∀ seq, result = .ok seq → held tid runId h.log = some seq) (RunStore.nextSeq runId).run h := by
  refine safe_query (fun _ _ _ isOk => by cases isOk) fun h₁ res₁ state₁ _ permitted₁ answers₁ => ?_
  refine ⟨⟨_, res₁, state₁, rfl, answers₁, permitted₁, trivial⟩, fun updated isOk => ?_⟩
  subst isOk
  refine safe_query (fun _ _ _ isOk => by cases isOk) fun h₂ res₂ state₂ foreign₂ permitted₂ answers₂ => ?_
  have last : lastOwn tid h₂.log = some ⟨tid, .run (.bumpSeq runId), .ok updated⟩ :=
    foreign₂.lastOwn_eq.trans (lastOwn_push_self ..)
  refine ⟨⟨_, res₂, state₂, rfl, answers₂, permitted₂, updated, last⟩, fun cursor isOk => ?_⟩
  subst isOk
  intro h₃ foreign seq isOk
  rw [held_of_foreign foreign, ← Except.ok.inj isOk]
  have isRead : numberRead runId ⟨tid, .run (.readSeq runId), .ok cursor⟩ = some (Option.getD cursor 0) := if_pos rfl
  exact held_cons_read isRead

theorem safe_journal (runId : String) (seq : Int) (kind subject : String) (payload : Json) (ts : Int) {h : TapeHist}
    (own : held tid runId h.log = some seq ∨ seq = 0) :
    tape.Safe (tape.tracked ok (fun tid _ h act => UsesOwn tid h act) tid call) tid (fun _ _ => True)
      (RunStore.journalFull runId seq kind subject payload ts).run h := by
  refine safe_query (fun _ _ => trivial) fun h₁ res₁ state₁ foreign₁ permitted₁ answers₁ => ?_
  refine ⟨⟨_, res₁, state₁, rfl, answers₁, permitted₁, trivial⟩, fun globalSeq _ => ?_⟩
  intro h₂ foreign₂ permitted₂ res₂ state₂ answers₂
  refine ⟨⟨_, res₂, state₂, rfl, answers₂, permitted₂, ?_⟩, fun _ _ => trivial⟩
  have still : held tid runId h₂.log = held tid runId h.log := by
    rw [held_of_foreign foreign₂, Hist.push_log, held_cons_plain rfl, held_of_foreign foreign₁]
  rw [← still] at own
  exact own

/-- A method journals under the numbers it drew itself. -/
theorem numbered_usesOwn (ok : Nat → Call → TapeHist → Act → Prop) (tid : Nat) (call : Call) :
    Numbered
      (fun {_} program => ∀ h, tape.Safe (tape.tracked ok (fun tid _ h act => UsesOwn tid h act) tid call) tid
        (fun _ _ => True) program h)
      (fun runId seq {_} program => ∀ h, held tid runId h.log = some seq ∨ seq = 0 →
        tape.Safe (tape.tracked ok (fun tid _ h act => UsesOwn tid h act) tid call) tid (fun _ _ => True) program h) where
  composable := System.Safe.composable _ tid
  plain act isPlain h := by
    have all : (Prog.perform act : Prog Act Act.Res _).All fun act => ∀ h, UsesOwn tid h act :=
      ⟨usesOwn_of_plain isPlain, fun _ => trivial⟩
    exact System.Safe.of_all_proper (fun _ _ => trivial) all h
  nextSeq runId rest h := by
    refine System.Safe.exceptBind (fun _ _ => trivial) ((safe_nextSeq runId h).mono ?_)
    exact fun _ h' own seq isOk => rest seq h' (.inl (own seq isOk))
  nextSeqOr runId rest h := by
    refine safe_orElse ((safe_nextSeq runId h).mono ?_)
    intro result h' own h'' foreign
    cases result with
    | ok seq => exact rest seq h'' (.inl ((held_of_foreign foreign).trans (own seq rfl)))
    | error e => exact rest 0 h'' (.inr rfl)
  query {_ s f runId seq} isPlain rest h own := by
    refine safe_query (fun _ _ => trivial) fun h₁ res₁ state₁ foreign permitted answers => ?_
    refine ⟨⟨_, res₁, state₁, rfl, answers, permitted, usesOwn_of_plain isPlain h₁⟩, fun value isOk => ?_⟩
    refine rest value _ ?_
    rw [Hist.push_log, held_cons_plain isPlain, held_of_foreign foreign]
    exact own
  journal runId seq kind payload ts _ _ h own := safe_journal runId seq kind _ payload ts own
  rest first rest h own := System.Safe.bind ((first h own).mono fun value h' _ => rest value h')
  unnumbered subject payload ts _ h := safe_journal "" 0 "value" subject payload ts (.inr rfl)

theorem sequence_compose (ok : Nat → Call → TapeHist → Act → Prop) :
    System.Compose tape (fun call => isMethod call) (sequenceContract ok) fun _ _ _ _ => True := by
  refine System.tracked_compose fun {tid call h} admitted _ => ?_
  have numbered := numbered_usesOwn ok tid call
  refine numbered.method admitted (fun runId gateName _ _ _ h => ?_) (numbered.compactRun fun act isBlanking h => ?_) ?_ h
  · have all : (Prog.perform (.signal (.consume runId gateName)) : Prog Act Act.Res _).All
        fun act => ∀ h, UsesOwn tid h act := ⟨fun _ => trivial, fun _ => trivial⟩
    exact System.Safe.of_all_proper (fun _ _ => trivial) all h
  · have usesOwn : ∀ h, UsesOwn tid h act := by
      intro h
      unfold UsesOwn
      split
      next => cases isBlanking
      next => cases isBlanking
      next => cases isBlanking
      next => trivial
    have all : (Prog.perform act : Prog Act Act.Res _).All fun act => ∀ h, UsesOwn tid h act := ⟨usesOwn, fun _ => trivial⟩
    exact System.Safe.of_all_proper (fun _ _ => trivial) all h
  · rintro runId decisionIndex model requestJson responseJson rationale policyVersion ts rfl
    exact numbered.recordDecision (fun runId seq payload ts _ h own => safe_journal runId seq "decision" _ payload ts own)
      runId decisionIndex model requestJson responseJson rationale policyVersion ts

end Safety

/-! ## The cursor and the journal -/

section Rows

variable {runId : String} {tid : Nat} {h : TapeHist} {act : Act} {res : act.Res} {state : World}

/-- An `UPDATE` that raised the cursor found the run. -/
theorem found_of_raises (answers : tape.Answers act h.state res state) (raised : raises runId ⟨tid, act, res⟩) :
    act = .run (.bumpSeq runId) ∧ res = (act.exec h.state).1 ∧ state = (act.exec h.state).2 ∧
      ∃ row, h.state.runs.find? runId = some row := by
  unfold raises at raised
  split at raised
  next _ r updated same =>
    cases same
    rw [Bool.and_eq_true, decide_eq_true_eq] at raised
    obtain ⟨rfl, changed⟩ := raised
    obtain ⟨answer, rfl⟩ := exec_of_ok answers
    obtain rfl : updated = h.state.runs.count (RunStmt.bumpSeq r).selects := Except.ok.inj answer
    obtain ⟨row, found, selected⟩ := (Sql.Table.count_pos_iff _ _).mp (of_decide_eq_true changed)
    have own : row.runId = r := of_decide_eq_true selected
    exact ⟨rfl, rfl, rfl, row, own ▸ found⟩
  next => cases raised

variable (runId) in
/-- The cursor moves when it is raised, and only then. -/
theorem cursor_of_answers (answers : tape.Answers act h.state res state) (own : UsesOwn tid h act) :
    cursorOf runId state = cursorOf runId h.state + (if raises runId ⟨tid, act, res⟩ then 1 else 0) := by
  by_cases raised : raises runId ⟨tid, act, res⟩
  · obtain ⟨rfl, -, rfl, row, found⟩ := found_of_raises answers raised
    have isRun : row.runId = runId := Sql.Table.key_of_find? found
    have changed : ((Act.run (.bumpSeq runId)).exec h.state).2.runs.find? runId =
        some { row with seqCursor := row.seqCursor + 1 } :=
      (RunStmt.find?_exec_of_some found).trans (congrArg some (if_pos (decide_eq_true isRun)))
    simp [cursorOf, found, changed, raised]
  · rw [if_neg raised, add_zero]
    cases found : h.state.runs.find? runId with
    | none =>
      cases found' : state.runs.find? runId with
      | none => simp [cursorOf, found, found']
      | some row =>
        obtain ⟨rfl, -⟩ := run_inserted_of_answers answers found found'
        have zero : row.seqCursor = 0 := own
        simp [cursorOf, found, found', zero]
    | some row =>
      have isRun : row.runId = runId := Sql.Table.key_of_find? found
      rcases run_of_answers answers found with kept | ⟨s, rfl, rfl, -, changed⟩
      · simp [cursorOf, found, kept]
      · have same : (s.apply row).seqCursor = row.seqCursor := by
          cases s with
          | bumpSeq r =>
            by_cases own : r = runId
            · -- the run is there, so the `UPDATE` would have raised its cursor
              subst own
              refine absurd ?_ raised
              have positive : 0 < h.state.runs.count (RunStmt.bumpSeq r).selects :=
                Sql.Table.count_pos_of_find? found (decide_eq_true isRun)
              exact Bool.and_eq_true_iff.mpr ⟨decide_eq_true rfl, decide_eq_true positive⟩
            · exact congrArg RunRow.seqCursor (if_neg (by simpa [RunStmt.selects, isRun] using Ne.symm own))
          | _ =>
            unfold RunStmt.apply
            split <;> rfl
        simp [cursorOf, found, changed, same]

/-- The number read is the cursor. -/
theorem cursor_of_numberRead {number : Int} (answers : tape.Answers act h.state res state)
    (isRead : numberRead runId ⟨tid, act, res⟩ = some number) :
    act = .run (.readSeq runId) ∧ state = h.state ∧ number = cursorOf runId h.state := by
  unfold numberRead at isRead
  split at isRead
  next _ r cursor same =>
    cases same
    split at isRead
    next own =>
      subst own
      obtain ⟨answer, rfl⟩ := exec_of_ok answers
      obtain rfl : cursor = (h.state.runs.find? r).map RunRow.seqCursor := Except.ok.inj answer
      exact ⟨rfl, rfl, (Option.some.inj isRead).symm⟩
    next => cases isRead
  next => cases isRead

theorem insert_of_appends (isAppend : appends runId ⟨tid, act, res⟩) :
    ∃ row, act = .journal (.insertEntry row) ∧ row.runId = runId := by
  unfold appends at isAppend
  split at isAppend
  next _ row _ same =>
    cases same
    exact ⟨row, rfl, of_decide_eq_true isAppend⟩
  next => cases isAppend

end Rows

/-! ## The invariant -/

/-- From where the cursor stood at the start: every number read is below the cursor once that was raised
    again, no two threads hold one number, and no entry of the journal is under a number still held. -/
structure Sequenced (runId : String) (start : Int) (log : List TapeEvent) (w : World) : Prop where
  below : ∀ number, number = start ∨ number ∈ numbersRead runId log →
    number ≤ cursorOf runId w ∧ (raisedSinceRead runId log → number < cursorOf runId w)
  nodup : (numbersRead runId log).Nodup
  ownHeld : ∀ tid tid' number, held tid runId log = some number → held tid' runId log = some number → tid = tid'
  entries : ∀ row ∈ w.journal.rows, row.runId = runId →
    (row.seq ≤ start ∨ row.seq ∈ numbersRead runId log) ∧ ∀ tid, held tid runId log ≠ some row.seq

section Step

variable {runId : String} {start : Int} {log : List TapeEvent} {w w' : World} {event : TapeEvent}

/-- A number is read that is above all that were read before. -/
theorem Sequenced.cons_read (sequenced : Sequenced runId start log w) (raised : raisedSinceRead runId log)
    (isRead : numberRead runId event = some (cursorOf runId w)) (unraised : raises runId event = false) :
    Sequenced runId start (event :: log) w := by
  -- the cursor was raised since the last read, so nobody has seen its value yet
  have above : ∀ earlier, earlier = start ∨ earlier ∈ numbersRead runId log → earlier < cursorOf runId w :=
    fun earlier known => (sequenced.below earlier known).2 raised
  -- nor does anybody hold it
  have unheld : ∀ other, held other runId log ≠ some (cursorOf runId w) := fun other isHeld =>
    lt_irrefl _ (above _ (.inr (mem_of_held isHeld)))
  have numbers : numbersRead runId (event :: log) = cursorOf runId w :: numbersRead runId log := by
    simp [numbersRead, isRead]
  have since : raisedSinceRead runId (event :: log) = false := by simp [raisedSinceRead, unraised, isRead]
  constructor
  · intro earlier known
    rw [numbers, List.mem_cons, or_left_comm] at known
    refine ⟨?_, fun impossible => by simp [since] at impossible⟩
    rcases known with rfl | known
    · exact le_refl _
    · exact (above earlier known).le
  · rw [numbers]
    exact List.nodup_cons.mpr ⟨fun known => lt_irrefl _ (above _ (.inr known)), sequenced.nodup⟩
  · intro first second number isHeld isHeld'
    by_cases isFirst : first = event.tid <;> by_cases isSecond : second = event.tid
    · rw [isFirst, isSecond]
    · rw [isFirst, held_cons_read isRead, Option.some.injEq] at isHeld
      rw [held_cons_ne isSecond, ← isHeld] at isHeld'
      exact absurd isHeld' (unheld second)
    · rw [isSecond, held_cons_read isRead, Option.some.injEq] at isHeld'
      rw [held_cons_ne isFirst, ← isHeld'] at isHeld
      exact absurd isHeld (unheld first)
    · rw [held_cons_ne isFirst] at isHeld
      rw [held_cons_ne isSecond] at isHeld'
      exact sequenced.ownHeld first second number isHeld isHeld'
  · intro row member own
    obtain ⟨known, free⟩ := sequenced.entries row member own
    rw [numbers]
    refine ⟨known.imp_right (List.mem_cons_of_mem _), fun other isHeld => ?_⟩
    by_cases same : other = event.tid
    · rw [same, held_cons_read isRead, Option.some.injEq] at isHeld
      have startBelow := above start (.inl rfl)
      -- entries carry numbers that were read before, or lie below the start
      rcases known with before | known
      · omega
      · exact (above row.seq (.inr known)).ne isHeld.symm
    · exact free other ((held_cons_ne same).symm.trans isHeld)

/-- An entry of the run is appended, or refused, under the number its thread holds. -/
theorem Sequenced.cons_append (sequenced : Sequenced runId start log w) (unread : numberRead runId event = none)
    (unraised : raises runId event = false) (isAppend : appends runId event) {seq : Int}
    (own : held event.tid runId log = some seq) (cursor : cursorOf runId w' = cursorOf runId w)
    (rows : ∀ row ∈ w'.journal.rows, row ∈ w.journal.rows ∨ row.seq = seq) :
    Sequenced runId start (event :: log) w' := by
  have numbers : numbersRead runId (event :: log) = numbersRead runId log := by simp [numbersRead, unread]
  have since : raisedSinceRead runId (event :: log) = raisedSinceRead runId log := by
    simp [raisedSinceRead, unraised, unread]
  -- the thread lets go of its number, the others keep theirs
  have still : ∀ tid number, held tid runId (event :: log) = some number →
      tid ≠ event.tid ∧ held tid runId log = some number := by
    intro tid number isHeld
    by_cases same : tid = event.tid
    · rw [same, held_cons_append unread isAppend] at isHeld
      cases isHeld
    · exact ⟨same, (held_cons_ne same).symm.trans isHeld⟩
  constructor
  · rw [numbers, since, cursor]
    exact sequenced.below
  · rw [numbers]
    exact sequenced.nodup
  · intro first second number isHeld isHeld'
    exact sequenced.ownHeld first second number (still _ _ isHeld).2 (still _ _ isHeld').2
  · intro row member ofRun
    rw [numbers]
    rcases rows row member with old | rfl
    · obtain ⟨known, free⟩ := sequenced.entries row old ofRun
      exact ⟨known, fun tid isHeld => free tid (still _ _ isHeld).2⟩
    · refine ⟨.inr (mem_of_held own), fun tid isHeld => ?_⟩
      obtain ⟨other, isHeld⟩ := still _ _ isHeld
      exact other (sequenced.ownHeld tid event.tid row.seq isHeld own)

/-- Anything else leaves the numbers alone. -/
theorem Sequenced.cons_other (sequenced : Sequenced runId start log w) (unread : numberRead runId event = none)
    (other : appends runId event = false)
    (cursor : cursorOf runId w' = cursorOf runId w + (if raises runId event then 1 else 0))
    (rows : ∀ row ∈ w'.journal.rows, row.runId = runId → row ∈ w.journal.rows) :
    Sequenced runId start (event :: log) w' := by
  have numbers : numbersRead runId (event :: log) = numbersRead runId log := by simp [numbersRead, unread]
  constructor
  · intro number known
    rw [numbers] at known
    obtain ⟨bound, strict⟩ := sequenced.below number known
    rw [cursor]
    by_cases raised : raises runId event
    · rw [if_pos raised]
      exact ⟨by omega, fun _ => by omega⟩
    · rw [if_neg raised, add_zero]
      refine ⟨bound, fun since => strict ?_⟩
      simpa [raisedSinceRead, raised, unread] using since
  · rw [numbers]
    exact sequenced.nodup
  · intro first second number isHeld isHeld'
    rw [held_cons_other unread other] at isHeld isHeld'
    exact sequenced.ownHeld first second number isHeld isHeld'
  · intro row member ofRun
    rw [numbers]
    obtain ⟨known, free⟩ := sequenced.entries row (rows row member ofRun) ofRun
    exact ⟨known, fun tid isHeld => free tid ((held_cons_other unread other).symm.trans isHeld)⟩

theorem Sequenced.push {tid : Nat} {h : TapeHist} {act : Act} {res : act.Res} {state : World}
    (sequenced : Sequenced runId start h.log h.state) (answers : tape.Answers act h.state res state)
    (isApart : apart runId h act) (own : UsesOwn tid h act) :
    Sequenced runId start (h.push tid act res state).log (h.push tid act res state).state := by
  have cursor := cursor_of_answers runId answers own
  cases isRead : numberRead runId ⟨tid, act, res⟩ with
  | some number =>
    obtain ⟨rfl, rfl, rfl⟩ := cursor_of_numberRead answers isRead
    have raised : raisedSinceRead runId h.log := by simpa [apart] using isApart
    exact sequenced.cons_read raised isRead rfl
  | none =>
    have rows := Journal.journal_of_answers answers
    by_cases isAppend : appends runId ⟨tid, act, res⟩
    · obtain ⟨row, rfl, isRun⟩ := insert_of_appends isAppend
      have numbered : row.seq ≠ 0 := by simpa [apart, isRun] using isApart
      have isHeld : held tid runId h.log = some row.seq := by
        have uses := own.resolve_right numbered
        rwa [isRun] at uses
      refine sequenced.cons_append isRead rfl isAppend isHeld (by simpa [raises] using cursor) ?_
      intro row' member
      rcases rows with same | ⟨inserted, same, grown, -⟩
      · exact .inl (same ▸ member)
      · cases same
        rw [Hist.push_state, grown, List.mem_append, List.mem_singleton] at member
        exact member.imp_right fun same => congrArg EventEntry.seq same
    · refine sequenced.cons_other isRead (Bool.eq_false_iff.mpr isAppend) cursor fun row member ofRun => ?_
      rcases rows with same | ⟨inserted, rfl, grown, -⟩
      · exact same ▸ member
      · rw [Hist.push_state, grown, List.mem_append, List.mem_singleton] at member
        refine member.resolve_right fun same => isAppend ?_
        subst same
        exact decide_eq_true ofRun

/-- The number a thread is about to append under is free. -/
theorem Sequenced.keyFree {tid : Nat} {h : TapeHist} {act : Act} (sequenced : Sequenced runId start h.log h.state)
    (isApart : apart runId h act) (own : UsesOwn tid h act) : keyFree runId h act := by
  unfold Run.keyFree
  split
  next row =>
    by_cases isRun : row.runId = runId
    · have numbered : row.seq ≠ 0 := by simpa [apart, isRun] using isApart
      have isHeld : held tid runId h.log = some row.seq := by
        have uses := own.resolve_right numbered
        rwa [isRun] at uses
      cases found : h.state.journal.find? row.pk with
      | none => simp
      | some old =>
        have same : old.pk = row.pk := Sql.Table.key_of_find? found
        obtain ⟨sameRun, sameSeq⟩ := Prod.mk.inj same
        have free := (sequenced.entries old (Sql.Table.mem_of_find? found) (sameRun.trans isRun)).2 tid
        rw [sameSeq] at free
        exact absurd isHeld free
    · simp [isRun]
  next => rfl

end Step

section Runs

variable {runId : String} {w : World} {choices : List (Choice Call)}

theorem sequenced_quiet (reached : ∀ row ∈ w.journal.rows, row.runId = runId → row.seq ≤ cursorOf runId w) :
    Sequenced runId (cursorOf runId w) [] w := by
  refine ⟨fun number known => ?_, List.nodup_nil, fun _ _ _ isHeld => (by cases isHeld), fun row member ofRun => ?_⟩
  · rcases known with rfl | known
    · exact ⟨le_refl _, fun impossible => by cases impossible⟩
    · cases known
  · exact ⟨.inl (reached row member ofRun), fun _ isHeld => by cases isHeld⟩

variable (isApart : tape.Along (System.Permits (fun call => isMethod call) fun tid _ h act =>
    apart runId h act ∧ UsesOwn tid h act) (quiet w) choices)

include isApart

/-- Where the cursor is raised between any two reads of it, the numbers that are read differ. -/
theorem numbersRead_nodup (reached : ∀ row ∈ w.journal.rows, row.runId = runId → row.seq ≤ cursorOf runId w) :
    (numbersRead runId (tape.run (quiet w) choices).log).Nodup := by
  have sequenced := System.run_hist_of_steps (I := fun h => Sequenced runId (cursorOf runId w) h.log h.state)
    (fun tid call h act res state _ known answers sequenced => sequenced.push answers known.1 known.2)
    (sequenced_quiet reached) isApart
  exact sequenced.nodup

theorem along_keyFree (reached : ∀ row ∈ w.journal.rows, row.runId = runId → row.seq ≤ cursorOf runId w) :
    tape.Along (System.Permits (fun call => isMethod call) fun _ _ h act => keyFree runId h act) (quiet w) choices := by
  refine System.Along.of_invariant (I := fun h => Sequenced runId (cursorOf runId w) h.log h.state) ?_ ?_
    (sequenced_quiet reached) isApart
  · exact fun tid call h act res state known answers sequenced => sequenced.push answers known.1 known.2
  · exact fun tid call h act known sequenced => sequenced.keyFree known.1 known.2

end Runs

/-- **Sequence numbers are unique.**  From a database whose cursor has reached every entry of the run's
    journal: along every interleaving of the store's methods in which the cursor is raised between any two
    reads of it, and nothing is journaled under the placeholder of a failed `next_seq`, no two calls of
    `next_seq` return one number for the run, and every entry of the run that is inserted finds its key
    free. -/
theorem sequence_numbers_unique (runId : String) (w : World)
    (reached : ∀ row ∈ w.journal.rows, row.runId = runId → row.seq ≤ cursorOf runId w) (choices : List (Choice Call))
    (isApart : tape.Along (System.Permits (fun call => isMethod call) fun _ _ h act => apart runId h act) (quiet w)
      choices) :
    (numbersRead runId (tape.run (quiet w) choices).log).Nodup ∧
      tape.Along (System.Permits (fun call => isMethod call) fun _ _ h act => keyFree runId h act) (quiet w) choices := by
  have proper := System.along_proper (sequence_compose fun _ _ h act => apart runId h act) (quiet_owned w)
    (System.poolSafe_of_empty rfl) isApart
  exact ⟨numbersRead_nodup proper reached, along_keyFree proper reached⟩

/-! ## Calls one after the other -/

/-- The event is a statement of `next_seq` on the run. -/
def isCursor (runId : String) : TapeEvent → Bool
  | ⟨_, .sql (.run (.bumpSeq r)), _⟩ | ⟨_, .sql (.run (.readSeq r)), _⟩ => r = runId
  | _ => false

/-- No other call of `next_seq` on the run executes a statement between the two of this one, and no entry of the
    run is appended under the placeholder. -/
def undisturbed (runId : String) (tid : Nat) (h : TapeHist) : Act → Bool
  | .sql (.run (.readSeq r)) => r ≠ runId || (h.log.find? (isCursor runId)).all fun event => event.tid = tid
  | .sql (.journal (.insertEntry row)) => row.runId ≠ runId || row.seq ≠ 0
  | _ => true

/-- The run is there, so every `UPDATE` of its cursor has changed it. -/
structure Bumps (runId : String) (h : TapeHist) : Prop where
  there : (h.state.runs.find? runId).isSome
  changed : ∀ tid updated, ⟨tid, .sql (.run (.bumpSeq runId)), .ok updated⟩ ∈ h.log →
    raises runId ⟨tid, .sql (.run (.bumpSeq runId)), .ok updated⟩

section Disjoint

variable {runId : String} {tid : Nat} {h : TapeHist} {act : Act} {res : act.Res} {state : World}

theorem Bumps.push (bumps : Bumps runId h) (answers : tape.Answers act h.state res state) :
    Bumps runId (h.push tid act res state) := by
  obtain ⟨row, found⟩ := Option.isSome_iff_exists.mp bumps.there
  refine ⟨?_, fun other updated member => ?_⟩
  · rcases run_of_answers answers found with kept | ⟨s, -, -, -, changed⟩
    · rw [Hist.push_state, kept, Option.isSome_some]
    · rw [Hist.push_state, changed, Option.isSome_some]
  · rcases List.mem_cons.mp member with same | older
    · cases same
      obtain ⟨answer, -⟩ := exec_of_ok answers
      obtain rfl : updated = h.state.runs.count (RunStmt.bumpSeq runId).selects := Except.ok.inj answer
      have isRun : row.runId = runId := Sql.Table.key_of_find? found
      have positive : 0 < h.state.runs.count (RunStmt.bumpSeq runId).selects :=
        Sql.Table.count_pos_of_find? found (decide_eq_true isRun)
      exact Bool.and_eq_true_iff.mpr ⟨decide_eq_true rfl, decide_eq_true positive⟩
    · exact bumps.changed other updated older

/-- The thread's own `UPDATE` is the last that was done to the cursor. -/
theorem raisedSinceRead_of_last {log : List TapeEvent} {bump : TapeEvent} (last : lastOwn tid log = some bump)
    (raised : raises runId bump) (isBump : isCursor runId bump)
    (alone : (log.find? (isCursor runId)).all fun event => event.tid = tid) : raisedSinceRead runId log := by
  induction log with
  | nil => cases last
  | cons event log inductionHypothesis =>
    by_cases own : event.tid = tid
    · have isLast : lastOwn tid (event :: log) = some event := by simp [lastOwn, own]
      obtain rfl : event = bump := Option.some.inj (isLast.symm.trans last)
      simp [raisedSinceRead, raised]
    · have other : isCursor runId event = false := by
        by_contra cursor
        rw [List.find?_cons_of_pos (by simpa using cursor)] at alone
        simp [own] at alone
      have unread : numberRead runId event = none := by
        unfold numberRead
        split
        next => simpa [isCursor] using other
        next => rfl
      have older : lastOwn tid log = some bump := by simpa [lastOwn, own] using last
      rw [List.find?_cons_of_neg (by simp [other])] at alone
      simp [raisedSinceRead, unread, inductionHypothesis older alone]

theorem apart_of_undisturbed (bumps : Bumps runId h) (own : UsesOwn tid h act) (isUndisturbed : undisturbed runId tid h act) :
    apart runId h act := by
  unfold apart
  split
  next r =>
    by_cases isRun : r = runId
    · subst isRun
      obtain ⟨updated, last⟩ := own
      have raised := bumps.changed tid updated (List.mem_of_find?_eq_some last)
      have alone : (h.log.find? (isCursor r)).all fun event => event.tid = tid := by
        simpa [undisturbed] using isUndisturbed
      simp [raisedSinceRead_of_last last raised (decide_eq_true rfl) alone]
    · simp [isRun]
  next => exact isUndisturbed
  next => rfl

end Disjoint

/-- On a run that is there, calls of `next_seq` that do not overlap return different numbers. -/
theorem numbers_unique_of_disjoint (runId : String) (w : World)
    (reached : ∀ row ∈ w.journal.rows, row.runId = runId → row.seq ≤ cursorOf runId w) (there : (w.runs.find? runId).isSome)
    (choices : List (Choice Call))
    (isUndisturbed : tape.Along (System.Permits (fun call => isMethod call) fun tid _ h act => undisturbed runId tid h act)
      (quiet w) choices) :
    (numbersRead runId (tape.run (quiet w) choices).log).Nodup ∧
      tape.Along (System.Permits (fun call => isMethod call) fun _ _ h act => keyFree runId h act) (quiet w) choices := by
  have proper := System.along_proper (sequence_compose fun tid _ h act => undisturbed runId tid h act) (quiet_owned w)
    (System.poolSafe_of_empty rfl) isUndisturbed
  have isApart : tape.Along (System.Permits (fun call => isMethod call) fun tid _ h act =>
      apart runId h act ∧ UsesOwn tid h act) (quiet w) choices := by
    refine System.Along.of_invariant (I := Bumps runId) ?_ ?_ ⟨there, fun _ _ member => by cases member⟩ proper
    · exact fun tid call h act res state _ answers bumps => bumps.push answers
    · exact fun tid call h act known bumps => ⟨apart_of_undisturbed bumps known.2 known.1, known.2⟩
  exact ⟨numbersRead_nodup isApart reached, along_keyFree isApart reached⟩

/-! ## Two decisions at once -/

def begun : List (Choice Call) := serve 0 (.beginRun 0 "app" "user" "s" "i" {} "A" 60000 1 "r")

def decision (index : Int) : Call := .recordDecision "r" index "model" "" "yes" "" "" 10

/-- Both calls raise the cursor before either reads it. -/
def decisionsAtOnce : List (Choice Call) :=
  begun ++ [.spawn (decision 0), .spawn (decision 1), .exec 1, .exec 2, .exec 1, .exec 2] ++
    List.replicate 8 (.exec 1) ++ List.replicate 8 (.exec 2)

def decisionsInTurn : List (Choice Call) := begun ++ serve 1 (decision 0) ++ serve 2 (decision 1)

def afterDecisions (choices : List (Choice Call)) : TapeConfig := tape.run (quiet (World.empty .sqlite)) choices

def decisionFailed (c : TapeConfig) (tid : Nat) : Bool :=
  match c.pool[tid]? with
  | some ⟨.recordDecision .., .ret (.error _)⟩ => true
  | _ => false

/-- Both are given the number 3; the second decision is recorded, and its call fails without an entry. -/
theorem decisions_at_once_collide :
    numbersRead "r" (afterDecisions decisionsAtOnce).log = [3, 3, 1] ∧
      ((afterDecisions decisionsAtOnce).state.decisions.find? ("r", 1)).isSome ∧
      decisionFailed (afterDecisions decisionsAtOnce) 2 ∧
      ((afterDecisions decisionsAtOnce).state.journal.rows.filter fun row => row.kind = "decision").length = 1 := by
  refine ⟨?_, ?_, ?_, ?_⟩ <;> decide +kernel

theorem decisions_in_turn_numbered :
    (numbersRead "r" (afterDecisions decisionsInTurn).log).Nodup ∧
      ((afterDecisions decisionsInTurn).state.journal.rows.filter fun row => row.kind = "decision").length = 2 := by
  refine ⟨?_, by decide +kernel⟩
  unfold afterDecisions
  exact (sequence_numbers_unique "r" (World.empty .sqlite) (fun _ member => by cases member) decisionsInTurn
    (by decide +kernel)).1

end Tape.Run
