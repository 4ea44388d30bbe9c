import Tape.Journal.Cursor
import Tape.Processes

/-! # One entry for each decision

`record_decision` inserts the row of a decision before it journals the decision, and the table admits one row.
However the calls are interleaved or broken off, a decision has at most one entry.
-/

namespace Tape.Journal

open Interleave

/-- The entry is of the decision. -/
def IsOf (runId : String) (index : Int) (entry : EventEntry) : Prop :=
  entry.runId = runId ∧ entry.kind = "decision" ∧ entry.payload.get? "decision_index" = some (.int index)

/-- The decision whose row the event inserted. -/
def insertedDecision : TapeEvent → Option (String × Int)
  | ⟨_, .sql (.decision (.insertDecision row)), .ok _⟩ => some row.pk
  | _ => none

/-- The event tried to insert an entry. -/
def journals : TapeEvent → Bool
  | ⟨_, .sql (.journal (.insertEntry _)), _⟩ => true
  | _ => false

def nextInHand (hand : Option (String × Int)) (event : TapeEvent) : Option (String × Int) :=
  if journals event then none else (insertedDecision event).or hand

/-- The decision whose row thread `tid` has inserted, and not journaled yet. -/
def inHand (tid : Nat) (log : List TapeEvent) : Option (String × Int) := ownFold tid nextInHand none log

/-- A thread journals the decision that it has in hand. -/
def Documents (tid : Nat) (h : TapeHist) : Act → Prop
  | .sql (.journal (.insertEntry row)) => row.kind = "decision" →
    ∃ index, row.payload.get? "decision_index" = some (.int index) ∧ inHand tid h.log = some (row.runId, index)
  | _ => True

abbrev decidedContract : Nat → Call → Contract World Act Act.Res :=
  tape.tracked (fun _ _ _ _ => True) fun tid _ h act => Documents tid h act

/-! ## The methods -/

section Safety

variable {tid : Nat} {call : Call} {h : TapeHist}

/-- The act journals no decision. -/
def Undecided (act : Act) : Prop := ∀ row, act = .journal (.insertEntry row) → row.kind ≠ "decision"

theorem undecided_of_isPlain {act : Act} (isPlain : isPlain act) : Undecided act := by
  rintro row rfl
  cases isPlain

theorem documents_of_undecided {act : Act} (undecided : Undecided act) (h : TapeHist) : Documents tid h act := by
  unfold Documents
  split
  next row => exact fun isDecision => absurd isDecision (undecided row rfl)
  next => trivial

theorem all_nextSeq (runId : String) : (RunStore.nextSeq runId).run.All Undecided :=
  .exceptBind (all_query nofun) fun _ => .exceptBind (all_query nofun) fun _ => trivial

theorem all_journal (runId : String) (seq : Int) {kind : String} (subject : String) (payload : Json) (ts : Int)
    (other : kind ≠ "decision") : (RunStore.journalFull runId seq kind subject payload ts).run.All Undecided := by
  refine .exceptBind (all_query nofun) fun _ => all_query ?_
  rintro row ⟨⟩
  exact other

theorem numbered_undecided : Numbered (fun {_} (program : Prog Act Act.Res _) => program.All Undecided)
    fun _ _ {_} program => program.All Undecided where
  composable := all_composable Undecided
  plain act isPlain := ⟨undecided_of_isPlain isPlain, fun _ => trivial⟩
  nextSeq runId rest := .exceptBind (all_nextSeq runId) rest
  nextSeqOr runId rest := .exceptBind (all_orElse (all_nextSeq runId)) rest
  query isPlain rest := .exceptBind (all_query (undecided_of_isPlain isPlain)) rest
  journal runId seq kind payload ts _ other := all_journal runId seq _ payload ts other
  rest first rest := first.bind rest
  unnumbered subject payload ts _ := all_journal "" 0 subject payload ts (by decide)

theorem inHand_of_foreign {h' : TapeHist} (foreign : Foreign tid h h') : inHand tid h'.log = inHand tid h.log :=
  foreign.ownFold_eq

theorem safe_documents {runId model requestJson responseJson rationale policyVersion : String} {decisionIndex ts : Int} :
    tape.Safe (decidedContract tid call) tid (fun _ _ => True)
      (RunStore.recordDecision runId decisionIndex model requestJson responseJson rationale policyVersion ts).run h := by
  refine safe_query (fun _ _ => trivial) fun h₁ res₁ state₁ _ permitted₁ answers₁ => ?_
  refine ⟨⟨_, res₁, state₁, rfl, answers₁, permitted₁, trivial⟩, fun found _ => ?_⟩
  cases found with
  | some recorded => exact fun _ _ => trivial
  | none =>
    have draws : ∀ h, tape.Safe (decidedContract tid call) tid (fun _ _ => True) (RunStore.nextSeq runId).run h :=
      System.Safe.of_all_proper (fun _ _ => trivial)
        ((all_nextSeq runId).mono fun _ undecided h => documents_of_undecided undecided h)
    refine System.Safe.exceptBind (fun _ _ => trivial) ((draws _).mono fun _ h₂ _ seq _ => ?_)
    refine safe_query (fun _ _ => trivial) fun h₃ res₃ state₃ _ permitted₃ answers₃ => ?_
    refine ⟨⟨_, res₃, state₃, rfl, answers₃, permitted₃, trivial⟩, fun value isOk => ?_⟩
    subst isOk
    have journaled : tape.Safe (decidedContract tid call) tid (fun _ _ => True)
        (RunStore.journal runId seq "decision" (Json.obj [("decision_index", .int decisionIndex), ("model", .str model),
          ("policy_version", .str policyVersion), ("rationale", .str rationale)]) ts).run
        (h₃.push tid (.decision (.insertDecision _)) (.ok value) state₃) := ?_
    · exact System.Safe.exceptBind (fun _ _ => trivial) (journaled.mono fun _ _ _ _ _ _ _ => trivial)
    refine safe_query (fun _ _ => trivial) fun h₄ res₄ state₄ foreign₄ permitted₄ answers₄ => ?_
    refine ⟨⟨_, res₄, state₄, rfl, answers₄, permitted₄, trivial⟩, fun globalSeq _ => ?_⟩
    intro h₅ foreign₅ permitted₅ res₅ state₅ answers₅
    refine ⟨⟨_, res₅, state₅, rfl, answers₅, permitted₅, fun _ => ⟨decisionIndex, rfl, ?_⟩⟩, fun _ _ => trivial⟩
    calc inHand tid h₅.log
      _ = inHand tid h₄.log := (inHand_of_foreign foreign₅).trans (ownFold_cons_self rfl)
      _ = some (runId, decisionIndex) := (inHand_of_foreign foreign₄).trans (ownFold_cons_self rfl)

end Safety

theorem decided_compose : System.Compose tape (fun _ => True) decidedContract fun _ _ _ _ => True := by
  refine System.tracked_compose fun {tid call h} _ _ => ?_
  by_cases records : ∃ runId decisionIndex model requestJson responseJson rationale policyVersion ts,
      call = .recordDecision runId decisionIndex model requestJson responseJson rationale policyVersion ts
  · obtain ⟨_, _, _, _, _, _, _, _, rfl⟩ := records
    exact safe_documents
  · have all : call.body.All Undecided := by
      refine numbered_undecided.call (fun _ _ => ⟨nofun, fun _ => trivial⟩)
        (numbered_undecided.compactRun fun act isBlanking => ⟨?_, fun _ => trivial⟩) call ?_
      · rintro row rfl
        cases isBlanking
      · exact fun runId decisionIndex model requestJson responseJson rationale policyVersion ts same =>
          absurd ⟨_, _, _, _, _, _, _, _, same⟩ records
    exact System.Safe.of_all_proper (fun _ _ => trivial) (all.mono fun _ undecided h => documents_of_undecided undecided h) h

/-! ## The invariant -/

/-- The decision has one entry at most, and none while a thread has the decision in hand; and only then one, if its
    row is there. -/
structure Once (runId : String) (index : Int) (h : TapeHist) : Prop where
  there : ∀ entry ∈ h.state.journal.rows, IsOf runId index entry → (h.state.decisions.find? (runId, index)).isSome
  held : ∀ tid, inHand tid h.log = some (runId, index) → (h.state.decisions.find? (runId, index)).isSome
  unfiled : ∀ tid, inHand tid h.log = some (runId, index) → ∀ entry ∈ h.state.journal.rows, ¬ IsOf runId index entry
  alone : ∀ tid other, inHand tid h.log = some (runId, index) → inHand other h.log = some (runId, index) → other = tid
  once : ∀ a ∈ h.state.journal.rows, IsOf runId index a → ∀ b ∈ h.state.journal.rows, IsOf runId index b → a = b

section Push

variable {runId : String} {index : Int} {tid other : Nat} {h : TapeHist} {event : TapeEvent} {act : Act} {res : act.Res}
  {state : World} {log : List TapeEvent}

/-- What a thread has in hand it had before, or it has just inserted it. -/
theorem inHand_cases (isHeld : inHand other (event :: log) = some (runId, index)) :
    insertedDecision event = some (runId, index) ∧ other = event.tid ∨ inHand other log = some (runId, index) := by
  by_cases own : event.tid = other
  · subst own
    rw [inHand, ownFold_cons_self rfl, nextInHand] at isHeld
    split at isHeld
    · cases isHeld
    · cases inserted : insertedDecision event with
      | none =>
        rw [inserted, Option.none_or] at isHeld
        exact .inr isHeld
      | some pk =>
        rw [inserted, Option.some_or] at isHeld
        exact .inl ⟨isHeld, rfl⟩
  · rw [inHand, ownFold_cons_ne own] at isHeld
    exact .inr isHeld

/-- A row of a decision stays. -/
theorem decision_stays (answers : tape.Answers act h.state res state)
    (there : (h.state.decisions.find? (runId, index)).isSome) : (state.decisions.find? (runId, index)).isSome := by
  obtain ⟨row, found⟩ := Option.isSome_iff_exists.mp there
  rcases decisions_cases answers with same | ⟨s, rfl, rfl, rfl⟩
  · rw [same]
    exact there
  · have kept : ((s.exec h.state).2.find? (runId, index)).isSome := by
      rcases DecisionStmt.find?_exec_of_some (s := s) found with after | ⟨-, after⟩
      all_goals rw [after, Option.isSome_some]
    exact kept

/-- A row of a decision is inserted when there is none. -/
theorem inserted_fresh (answers : tape.Answers act h.state res state)
    (inserted : insertedDecision ⟨tid, act, res⟩ = some (runId, index)) :
    h.state.decisions.find? (runId, index) = none ∧ (state.decisions.find? (runId, index)).isSome ∧
      state.journal.rows = h.state.journal.rows := by
  unfold insertedDecision at inserted
  split at inserted
  next _ row value same =>
    cases same
    obtain ⟨executed, rfl⟩ := exec_of_ok answers
    obtain ⟨absent, found⟩ := find?_insertRow_of_ok executed.symm
    rw [Option.some.inj inserted] at absent found
    exact ⟨absent, Option.isSome_iff_exists.mpr ⟨_, found⟩, rfl⟩
  next => cases inserted

theorem Once.push (once : Once runId index h) (answers : tape.Answers act h.state res state)
    (documents : Documents tid h act) : Once runId index (h.push tid act res state) := by
  by_cases inserted : insertedDecision ⟨tid, act, res⟩ = some (runId, index)
  · obtain ⟨absent, found, same⟩ := inserted_fresh answers inserted
    have unfiled : ∀ entry ∈ h.state.journal.rows, ¬ IsOf runId index entry := by
      intro entry member isOf
      have there := once.there entry member isOf
      rw [absent] at there
      cases there
    have unheld : ∀ other, inHand other h.log ≠ some (runId, index) := by
      intro other isHeld
      have there := once.held other isHeld
      rw [absent] at there
      cases there
    constructor
    · exact fun entry _ _ => found
    · exact fun _ _ => found
    · intro _ _ entry member
      rw [Hist.push_state, same] at member
      exact unfiled entry member
    · intro first second isFirst isSecond
      have firstOwn := ((inHand_cases isFirst).resolve_right (unheld first)).2
      have secondOwn := ((inHand_cases isSecond).resolve_right (unheld second)).2
      exact secondOwn.trans firstOwn.symm
    · intro a member isOf
      rw [Hist.push_state, same] at member
      exact absurd isOf (unfiled a member)
  -- whoever has the decision in hand had it before
  have earlier : ∀ other, inHand other (⟨tid, act, res⟩ :: h.log) = some (runId, index) →
      inHand other h.log = some (runId, index) :=
    fun other isHeld => (inHand_cases isHeld).resolve_left fun here => inserted here.1
  have held : ∀ other, inHand other (⟨tid, act, res⟩ :: h.log) = some (runId, index) →
      (state.decisions.find? (runId, index)).isSome :=
    fun other isHeld => decision_stays answers (once.held other (earlier other isHeld))
  have alone : ∀ first second, inHand first (⟨tid, act, res⟩ :: h.log) = some (runId, index) →
      inHand second (⟨tid, act, res⟩ :: h.log) = some (runId, index) → second = first :=
    fun first second isFirst isSecond => once.alone first second (earlier first isFirst) (earlier second isSecond)
  rcases journal_of_answers answers with same | ⟨row, rfl, grown, -⟩
  · constructor
    · intro entry member isOf
      rw [Hist.push_state, same] at member
      exact decision_stays answers (once.there entry member isOf)
    · exact held
    · intro other isHeld
      rw [Hist.push_state, same]
      exact once.unfiled other (earlier other isHeld)
    · exact alone
    · rw [Hist.push_state, same]
      exact once.once
  · have emptied : inHand tid (⟨tid, .journal (.insertEntry row), res⟩ :: h.log) = none :=
      ownFold_cons_self rfl
    have mine : IsOf runId index row → inHand tid h.log = some (runId, index) := by
      rintro ⟨ofRun, isDecision, isIndex⟩
      obtain ⟨index', isIndex', isHeld⟩ := documents isDecision
      rw [isIndex, Option.some.injEq, Json.int.injEq] at isIndex'
      rw [isHeld, ofRun, isIndex']
    constructor
    · intro entry member isOf
      rw [Hist.push_state, grown] at member
      rcases List.mem_append.mp member with old | new
      · exact decision_stays answers (once.there entry old isOf)
      · rw [List.mem_singleton.mp new] at isOf
        exact decision_stays answers (once.held tid (mine isOf))
    · exact held
    · intro other isHeld entry member isOf
      rw [Hist.push_state, grown] at member
      rcases List.mem_append.mp member with old | new
      · exact once.unfiled other (earlier other isHeld) entry old isOf
      · rw [List.mem_singleton.mp new] at isOf
        -- the thread that files it is the one that has it in hand, and then has not
        obtain rfl := once.alone tid other (mine isOf) (earlier other isHeld)
        rw [Hist.push_log, emptied] at isHeld
        cases isHeld
    · exact alone
    · intro a isA aOf b isB bOf
      rw [Hist.push_state, grown] at isA isB
      rcases List.mem_append.mp isA with oldA | newA <;> rcases List.mem_append.mp isB with oldB | newB
      · exact once.once a oldA aOf b oldB bOf
      · rw [List.mem_singleton.mp newB] at bOf
        exact absurd aOf (once.unfiled tid (mine bOf) a oldA)
      · rw [List.mem_singleton.mp newA] at aOf
        exact absurd bOf (once.unfiled tid (mine aOf) b oldB)
      · exact (List.mem_singleton.mp newA).trans (List.mem_singleton.mp newB).symm

end Push

/-- **One entry for each decision.**  However the calls are interleaved, the journal has at most one entry for a
    decision of a run. -/
theorem one_entry_per_decision (dialect : Subjects.Dialect) (choices : List (Choice Call)) (runId : String) (index : Int)
    {a b : EventEntry} (isA : a ∈ (tape.run (quiet (World.empty dialect)) choices).state.journal.rows) (aOf : IsOf runId index a)
    (isB : b ∈ (tape.run (quiet (World.empty dialect)) choices).state.journal.rows) (bOf : IsOf runId index b) : a = b := by
  have once : Once runId index (tape.run (quiet (World.empty dialect)) choices).toHist := by
    refine System.run_tracked (I := Once runId index) decided_compose ?_ (quiet_owned _) (System.poolSafe_of_empty rfl) ?_
      (System.along_free tape _ choices)
    · exact fun tid call h act res state _ answers _ documents once => once.push answers documents
    · constructor
      · exact fun entry member => by cases member
      · exact fun _ isHeld => by cases isHeld
      · exact fun _ isHeld => by cases isHeld
      · exact fun _ _ isHeld => by cases isHeld
      · exact fun entry member => by cases member
  exact once.once a isA aOf b isB bOf

end Tape.Journal
