import Tape.Compensation.Turns
import Tape.Interleave.Spawned

/-! # Unwinding a run

An obligation is the registered inverse of an act that succeeded.  `compensate_run` moves
its run to `COMPENSATING` and drains the run's obligations, the latest first.
`compensate_once`, which every reactor process ticks, drains whatever
`list_unresolved_obligations` returns: it asks nothing about the run an obligation belongs
to, and orders by due time instead of `seq`.  `claim_obligation` is the one gate between
the two and the inverse, and it looks at the obligation alone.
-/

namespace Tape.Compensation

open Interleave

/-! ## Keeping out of the way -/

/-- The event is a drainer's listing. -/
def isListing : TapeEvent → Bool
  | ⟨_, .sql (.obligation (.listObligations ..)), .ok _⟩ | ⟨_, .sql (.obligation (.listUnresolved ..)), .ok _⟩ => true
  | _ => false

/-- The event claimed an obligation of the run, or registered one. -/
def meddles (runId : String) (event : TapeEvent) : Bool := ((wins event).any fun pk => pk.1 = runId) || adds event
where
  adds : TapeEvent → Bool
    | ⟨_, .sql (.obligation (.insertObligation row)), .ok _⟩ => row.runId = runId
    | _ => false

/-- The event may have taken the run out of the three statuses. -/
def displaces (runId : String) : TapeEvent → Bool
  | ⟨_, .sql (.run (.insertRun row)), .ok _⟩ => row.runId = runId
  | ⟨_, .sql (.run (.endRun r status ..)), .ok updated⟩ => r = runId && !isUnwound status && wins.isPositive updated
  | ⟨_, .sql (.run (.claimRun r ..)), .ok updated⟩ | ⟨_, .sql (.run (.resumeRun r ..)), .ok updated⟩
  | ⟨_, .sql (.run (.parkRun r _)), .ok updated⟩ | ⟨_, .sql (.run (.releaseRun r)), .ok updated⟩ =>
    r = runId && wins.isPositive updated
  | _ => false

/-- Since its last listing, the drainer was alone with the obligations of the run. -/
def isAlone (tid : Nat) (runId : String) (log : List TapeEvent) : Bool :=
  (since tid isListing log).all fun event => event.tid = tid || !meddles runId event

/-- Since the drainer began, nobody else took the run out of the three statuses. -/
def isUnmoved (tid : Nat) (runId : String) (log : List TapeEvent) : Bool :=
  calmFromFirst tid (fun event _ => displaces runId event) log

/-- The obligation is resolved, or its inverse was invoked. -/
def isPast (row : ObligationRecord) (log : List TapeEvent) : Bool := isClosed row.status || started row.pk log

/-- No other thread is about to invoke an inverse of the run for the first time. -/
def isUnheld (tid : Nat) (runId : String) (h : TapeHist) : Bool :=
  h.log.all fun event => event.tid = tid || (inHand event.tid h.log).all fun pk => pk.1 ≠ runId || started pk h.log

/-- The rows that `list_unresolved_obligations` answers with. -/
def due (w : World) : Act → List ObligationRecord
  | .sql (.obligation (.listUnresolved now pending stuck committedExpired limit)) =>
    ((ObligationStmt.listUnresolved now pending stuck committedExpired limit).exec w).1.toOption.getD []
  | _ => []

/-- What a drainer is to find when it lists.  `compensate_run`: every obligation of the run is past, or the drainer
    will claim it.  `compensate_once` asks for no run and no order: every obligation that it lists belongs to a run that
    is being unwound, or was registered by a `DUPLICATE` observation, and every later one of its run is past, or listed
    before it and will be claimed. -/
def mayList (tid : Nat) (call : Call) (h : TapeHist) (act : Act) : Bool :=
  match call with
  | .compensateRun job => !isRunListing act || (isUnheld tid job.runId h &&
    h.state.obligations.rows.all fun row => row.runId ≠ job.runId || isPast row h.log || ready call row)
  | .compensateOnce .. => (due h.state act).zipIdx.all fun (row, i) =>
    (unwinding row.runId h.state || duplicate row.pk h.log) && isUnheld tid row.runId h &&
      h.state.obligations.rows.all fun later => later.runId ≠ row.runId || later.seq ≤ row.seq || isPast later h.log ||
        (((due h.state act).take i).any fun other => other.pk = later.pk && ready call other)
  | _ => true

/-- A claim is won while nobody else is at the obligations of the run, nor has moved the run back. -/
def winsAlone (tid : Nat) (h : TapeHist) (act : Act) : Bool :=
  (wouldWin h.state act).all fun pk => isAlone tid pk.1 h.log && (duplicate pk h.log || isUnmoved tid pk.1 h.log)

/-- `act`, about to be executed by thread `tid`, does not come between a drainer and its obligations. -/
structure Undisturbed (tid : Nat) (call : Call) (h : TapeHist) (act : Act) : Prop where
  lists : mayList tid call h act
  claims : winsAlone tid h act
  registers : mayRegister h act
  keeps : keepsUnwinding h act

instance (tid : Nat) (call : Call) (h : TapeHist) (act : Act) : Decidable (Undisturbed tid call h act) :=
  decidable_of_iff (_ ∧ _ ∧ _ ∧ _) ⟨fun all => ⟨all.1, all.2.1, all.2.2.1, all.2.2.2⟩,
    fun all => ⟨all.lists, all.claims, all.registers, all.keeps⟩⟩

section Alone

variable {tid : Nat} {runId : String} {h : TapeHist} {act : Act} {res : act.Res} {state : World}

theorem isAlone_of_push_self (alone : isAlone tid runId (h.push tid act res state).log)
    (unlisted : isListing ⟨tid, act, res⟩ = false) : isAlone tid runId h.log := by
  rw [isAlone, Hist.push_log, since_cons fun both => by rw [unlisted] at both; cases both.2] at alone
  exact (Bool.and_eq_true_iff.mp alone).2

theorem isAlone_of_push_ne {other : Nat} (ne : other ≠ tid) (alone : isAlone tid runId (h.push other act res state).log) :
    meddles runId ⟨other, act, res⟩ = false ∧ isAlone tid runId h.log := by
  rw [isAlone, Hist.push_log, since_cons fun both => ne both.1] at alone
  obtain ⟨quiet, older⟩ := Bool.and_eq_true_iff.mp alone
  exact ⟨by simpa [ne] using quiet, older⟩

end Alone

/-! ## What is still ahead -/

/-- What the drainer has still to do with an obligation: nothing; or it has it in hand; or it will claim it, as it
    was listed, and win. -/
def Ahead (call : Call) (t : Turn) (before : List ObligationRecord) (pk : String × Int) (h : TapeHist) : Prop :=
  Settled pk h ∨ t.hand = some pk ∨
    ∃ row ∈ before, row.pk = pk ∧ ready call row ∧ pk ∉ t.tried ∧ h.state.obligations.find? pk = some row

section Ahead

variable {tid : Nat} {call : Call} {h : TapeHist} {act : Act} {res : act.Res} {state : World} {pk : String × Int}
  {t t' : Turn} {before : List ObligationRecord}

/-- An obligation that is not claimed stays as it is, or is settled. -/
theorem kept_or_settled (proper : Proper tid h act) (answers : tape.Answers act h.state res state) {row : ObligationRecord}
    (found : h.state.obligations.find? pk = some row) (unwon : wins ⟨tid, act, res⟩ ≠ some pk) :
    state.obligations.find? pk = some row ∨ Settled pk (h.push tid act res state) := by
  obtain kept | ⟨s, rfl, rfl, rfl, changed⟩ := obligation_of_answers answers found
  · exact .inl kept
  have same : row.pk = pk := Sql.Table.key_of_find? found
  rw [ObligationStmt.apply] at changed
  split at changed
  next selected =>
    right
    have counted : wins.isPositive (h.state.obligations.count s.selects) :=
      decide_eq_true (Sql.Table.count_pos_of_find? found selected)
    cases s with
    | claimObligation runId seq claimer leaseExp now =>
      simp only [ObligationStmt.selects, Bool.and_eq_true, decide_eq_true_eq] at selected
      exact absurd ((if_pos counted).trans (congrArg some (selected.1.symm.trans same))) unwon
    | recordAttempt runId seq status attempts error nextAt now =>
      -- an attempt is recorded only after the inverse was invoked
      left
      rw [← same, of_decide_eq_true selected]
      exact started_push proper
    | resolve runId seq status resultJson now =>
      refine .inr fun row' found' => ?_
      obtain rfl := Option.some.inj (changed.symm.trans found')
      exact proper
    | _ => cases selected
  next => exact .inl changed

theorem Ahead.push (ahead : Ahead call t before pk h) (proper : Proper tid h act) (answers : tape.Answers act h.state res state)
    (unwon : wins ⟨tid, act, res⟩ ≠ some pk) (unregistered : registers pk ⟨tid, act, res⟩ = false)
    (hand : t.hand = some pk → t'.hand = some pk ∨ Settled pk (h.push tid act res state))
    (untried : pk ∉ t.tried → pk ∉ t'.tried) : Ahead call t' before pk (h.push tid act res state) := by
  obtain settled | held | ⟨row, member, same, isReady, isUntried, found⟩ := ahead
  · exact .inl (settled.push proper answers unregistered)
  · cases hand held with
    | inl held => exact .inr (.inl held)
    | inr settled => exact .inl settled
  · cases kept_or_settled proper answers found unwon with
    | inl kept => exact .inr (.inr ⟨row, member, same, isReady, untried isUntried, kept⟩)
    | inr settled => exact .inl settled

/-- A drainer that claims what is ahead of it wins. -/
theorem Ahead.push_claim {runId claimer : String} {seq leaseExp now : Int} {updated : Nat}
    (ahead : Ahead call t before pk h) (free : t.hand = none)
    (claims : ∀ row ∈ before, row.pk = (runId, seq) → ready call row → ObligationStmt.claimable now row)
    (answers : tape.Answers (.obligation (.claimObligation runId seq claimer leaseExp now)) h.state (.ok updated) state) :
    Ahead call (t.claim (runId, seq) (wins ⟨tid, .obligation (.claimObligation runId seq claimer leaseExp now), .ok updated⟩))
      before pk (h.push tid (.obligation (.claimObligation runId seq claimer leaseExp now)) (.ok updated) state) := by
  have proper : Proper tid h (.obligation (.claimObligation runId seq claimer leaseExp now)) := trivial
  by_cases own : pk = (runId, seq)
  · subst own
    obtain settled | held | ⟨row, member, same, isReady, -, found⟩ := ahead
    · exact .inl (settled.push proper answers rfl)
    · cases free.symm.trans held
    · -- the claim finds the row as it was listed
      refine .inr (.inl ?_)
      have positive : 0 < h.state.obligations.count (ObligationStmt.claimObligation runId seq claimer leaseExp now).selects :=
        claim_pos_iff.mpr ⟨row, found, claims row member same isReady⟩
      have counted := Except.ok.inj (exec_of_ok answers).1
      exact if_pos (decide_eq_true (counted ▸ positive))
  · refine ahead.push proper answers (fun won => ?_) rfl
      (fun held => by cases free.symm.trans held) fun untried => ?_
    · obtain ⟨_, _, _, same⟩ := claim_of_wins won
      cases same
      exact own rfl
    · exact List.not_mem_cons_of_ne_of_not_mem own untried

end Ahead

/-! ## What a drainer knows -/

/-- What a drainer knows of the rows that it goes through. -/
structure Knows (tid : Nat) (call : Call) (h : TapeHist) : Prop where
  distinct : ∀ row ∈ (turn tid h.log).rows, ∀ other ∈ (turn tid h.log).rows, other.pk = row.pk → other = row
  ahead : ∀ before row after, (turn tid h.log).rows = before ++ row :: after → isAlone tid row.runId h.log →
    ∀ later, row.seq < later → Ahead call (turn tid h.log) before (row.runId, later) h
  unheld : ∀ row ∈ (turn tid h.log).rows, isAlone tid row.runId h.log → ∀ other, other ≠ tid → ∀ pk,
    inHand other h.log = some pk → pk.1 = row.runId → started pk h.log
  eligible : ∀ row ∈ (turn tid h.log).rows, isUnmoved tid row.runId h.log →
    unwinding row.runId h.state ∨ duplicate row.pk h.log

/-- What `compensate_run` knows of its run. -/
structure Moved (tid : Nat) (runId : String) (h : TapeHist) : Prop where
  asked : (turn tid h.log).asked → isUnmoved tid runId h.log →
    ∀ row, h.state.runs.find? runId = some row → isUnwound row.status
  found : (turn tid h.log).found → (h.state.runs.find? runId).isSome

section Knows

variable {tid : Nat} {call : Call} {h : TapeHist} {act : Act} {res : act.Res} {state : World} {runId : String}
  {job : Sdk.CompensateRunJob}

theorem begun_of_turn (moved : turn tid h.log ≠ {}) : (lastOwn tid h.log).isSome := by
  by_contra fresh
  exact moved (ownFold_of_fresh (Option.not_isSome_iff_eq_none.mp fresh))

theorem turn_ne_of_mem {row : ObligationRecord} (member : row ∈ (turn tid h.log).rows) : turn tid h.log ≠ {} := by
  intro fresh
  rw [fresh] at member
  cases member

theorem unwon_of_unmeddled {event : TapeEvent} (quiet : meddles runId event = false) {pk : String × Int} (same : pk.1 = runId) :
    wins event ≠ some pk := by
  intro won
  rw [meddles, won] at quiet
  simp [same] at quiet

theorem unregistered_of_unmeddled (quiet : meddles runId ⟨tid, act, res⟩ = false) {pk : String × Int} (same : pk.1 = runId) :
    registers pk ⟨tid, act, res⟩ = false := by
  unfold registers
  split
  next row value isInsert =>
    cases isInsert
    have other : decide (row.runId = runId) = false := (Bool.or_eq_false_iff.mp quiet).2
    refine decide_eq_false fun isThis => of_decide_eq_false other ?_
    exact (congrArg Prod.fst isThis).trans same
  next => rfl

/-- A run that appears was inserted. -/
theorem displaces_of_answers (answers : tape.Answers act h.state res state) {row : RunRow}
    (absent : h.state.runs.find? runId = none) (found : state.runs.find? runId = some row) :
    displaces runId ⟨tid, act, res⟩ := by
  obtain ⟨rfl, same⟩ := run_inserted_of_answers answers absent found
  obtain ⟨rfl, rfl⟩ | ⟨-, rfl⟩ := answers_cases answers
  · have accepted : ((Act.run (.insertRun row)).exec h.state).1 = .ok () := insertRow_accepted absent found
    rw [accepted]
    exact decide_eq_true same
  · cases absent.symm.trans found

/-- A run that is not displaced stays in the three statuses. -/
theorem unwound_of_undisplaced (answers : tape.Answers act h.state res state) {row : RunRow}
    (found : h.state.runs.find? runId = some row) (undisplaced : displaces runId ⟨tid, act, res⟩ = false)
    (unwound : isUnwound row.status) : ∃ row', state.runs.find? runId = some row' ∧ isUnwound row'.status := by
  obtain kept | ⟨s, rfl, rfl, rfl, changed⟩ := run_of_answers answers found
  · exact ⟨row, kept, unwound⟩
  refine ⟨_, changed, ?_⟩
  rw [RunStmt.apply]
  split
  next selected =>
    have counted : wins.isPositive (h.state.runs.count s.selects) :=
      decide_eq_true (Sql.Table.count_pos_of_find? found selected)
    have same : row.runId = runId := Sql.Table.key_of_find? found
    cases s with
    | endRun r status ts detailJson =>
      obtain rfl : r = runId := (of_decide_eq_true selected).symm.trans same
      have stays : (decide (r = r) && !isUnwound status && wins.isPositive (h.state.runs.count _)) = false := undisplaced
      simpa [counted, RunStmt.assign] using stays
    | claimRun r leaseOwner leaseExp =>
      simp only [RunStmt.selects, Bool.and_eq_true, decide_eq_true_eq] at selected
      obtain rfl : r = runId := selected.1.symm.trans same
      have stays : (decide (r = r) && wins.isPositive (h.state.runs.count _)) = false := undisplaced
      simp [counted] at stays
    | resumeRun r | parkRun r | releaseRun r =>
      obtain rfl : r = runId := (of_decide_eq_true selected).symm.trans same
      have stays : (decide (r = r) && wins.isPositive (h.state.runs.count _)) = false := undisplaced
      simp [counted] at stays
    | bumpSeq r => exact unwound
    | stampCompacted r ts => exact unwound
    | _ => cases selected
  next => exact unwound

theorem unwinding_of_undisplaced (answers : tape.Answers act h.state res state)
    (undisplaced : displaces runId ⟨tid, act, res⟩ = false) (isUnwinding : unwinding runId h.state) : unwinding runId state := by
  obtain ⟨row, found, unwound⟩ := (Option.any_eq_true _ _).mp isUnwinding
  obtain ⟨row', found', unwound'⟩ := unwound_of_undisplaced answers found undisplaced unwound
  rw [unwinding, found', Option.any_some]
  exact unwound'

/-- A run stays. -/
theorem run_stays (answers : tape.Answers act h.state res state) (found : (h.state.runs.find? runId).isSome) :
    (state.runs.find? runId).isSome := by
  obtain ⟨row, found⟩ := Option.isSome_iff_exists.mp found
  obtain kept | ⟨s, -, -, -, changed⟩ := run_of_answers answers found
  · exact Option.isSome_iff_exists.mpr ⟨_, kept⟩
  · exact Option.isSome_iff_exists.mpr ⟨_, changed⟩

/-- What others do that are not at the obligations of the run, and do not move it. -/
theorem Knows.push_ne {other : Nat} (knows : Knows tid call h) (ne : other ≠ tid) (proper : Proper other h act)
    (answers : tape.Answers act h.state res state) : Knows tid call (h.push other act res state) := by
  have same := turn_push_ne h act res state ne
  constructor
  · rw [same]
    exact knows.distinct
  · intro before row after split alone later above
    rw [same] at split ⊢
    obtain ⟨quiet, alone⟩ := isAlone_of_push_ne ne alone
    exact (knows.ahead before row after split alone later above).push proper answers (unwon_of_unmeddled quiet rfl)
      (unregistered_of_unmeddled quiet rfl) .inl id
  · intro row member alone third neThird pk holds isRun
    rw [same] at member
    obtain ⟨quiet, alone⟩ := isAlone_of_push_ne ne alone
    by_cases own : other = third
    · subst own
      rw [inHand_push_self] at holds
      cases holdsAfter_cases holds with
      | inl held => exact started_push (knows.unheld row member alone other ne pk held isRun)
      | inr won => exact absurd won (unwon_of_unmeddled quiet isRun)
    · rw [inHand_push_ne own] at holds
      exact started_push (knows.unheld row member alone third neThird pk holds isRun)
  · intro row member unmoved
    rw [same] at member
    have undisplaced := quiet_of_calmFromFirst unmoved (begun_of_turn (turn_ne_of_mem member)) ne
    cases knows.eligible row member (calmFromFirst_cons unmoved) with
    | inl isUnwinding => exact .inl (unwinding_of_undisplaced answers undisplaced isUnwinding)
    | inr doubled => exact .inr (duplicate_push doubled)

theorem Moved.push_ne {other : Nat} (moved : Moved tid runId h) (ne : other ≠ tid)
    (answers : tape.Answers act h.state res state) :
    Moved tid runId (h.push other act res state) := by
  have same := turn_push_ne h act res state ne
  constructor
  · intro asked unmoved row' found'
    rw [same] at asked
    have begun : turn tid h.log ≠ {} := fun fresh => by rw [fresh] at asked; cases asked
    have undisplaced := quiet_of_calmFromFirst unmoved (begun_of_turn begun) ne
    have before := moved.asked asked (calmFromFirst_cons unmoved)
    cases found : h.state.runs.find? runId with
    | none =>
      rw [displaces_of_answers answers found found'] at undisplaced
      cases undisplaced
    | some row =>
      obtain ⟨row'', found'', unwound⟩ := unwound_of_undisplaced answers found undisplaced (before row found)
      obtain rfl := Option.some.inj (found'.symm.trans found'')
      exact unwound
  · intro isFound
    rw [same] at isFound
    exact run_stays answers (moved.found isFound)

/-- What a drainer does itself, other than to list. -/
theorem Knows.push_own (knows : Knows tid call h) (answers : tape.Answers act h.state res state)
    (unlisted : isListing ⟨tid, act, res⟩ = false)
    (keeps : ∀ s, act = .run s → ∀ row, isUnwound row.status → isUnwound (s.apply row).status)
    (rows : ((turn tid h.log).next ⟨tid, act, res⟩).rows = (turn tid h.log).rows)
    (ahead : ∀ before pk, (∀ row ∈ before, row ∈ (turn tid h.log).rows) → Ahead call (turn tid h.log) before pk h →
      Ahead call ((turn tid h.log).next ⟨tid, act, res⟩) before pk (h.push tid act res state)) :
    Knows tid call (h.push tid act res state) := by
  have same := turn_push_self h tid act res state
  constructor
  · rw [same, rows]
    exact knows.distinct
  · intro before row after split alone later above
    rw [same] at split ⊢
    rw [rows] at split
    refine ahead before _ (fun earlier member => ?_) (knows.ahead before row after split (isAlone_of_push_self alone unlisted)
      later above)
    rw [split]
    exact List.mem_append_left _ member
  · intro row member alone other ne pk holds isRun
    rw [same, rows] at member
    rw [inHand_push_ne (Ne.symm ne)] at holds
    exact started_push (knows.unheld row member (isAlone_of_push_self alone unlisted) other ne pk holds isRun)
  · intro row member unmoved
    rw [same, rows] at member
    have eligible : unwinding row.pk.1 h.state ∨ duplicate row.pk h.log := knows.eligible row member (calmFromFirst_cons unmoved)
    exact eligible_push eligible (fun s isRun => .inr fun row' _ => keeps s isRun row') answers

/-- What a listing shows. -/
theorem Knows.push_listed {rows : List ObligationRecord}
    (isTurn : (turn tid h.log).next ⟨tid, act, res⟩ = (turn tid h.log).list rows)
    (stored : ∀ row ∈ rows, h.state.obligations.find? row.pk = some row)
    (behind : ∀ before row after, rows = before ++ row :: after → ∀ later ∈ h.state.obligations.rows,
      later.runId = row.runId → row.seq < later.seq → isPast later h.log ∨ later ∈ before ∧ ready call later)
    (unheld : ∀ row ∈ rows, isUnheld tid row.runId h)
    (eligible : ∀ row ∈ rows, isUnmoved tid row.runId h.log → unwinding row.runId h.state ∨ duplicate row.pk h.log) :
    Knows tid call (h.push tid act res h.state) := by
  have same := (turn_push_self h tid act res h.state).trans isTurn
  constructor
  · intro row member other otherMember isSame
    rw [same] at member otherMember
    exact Option.some.inj ((stored other otherMember).symm.trans (isSame ▸ stored row member))
  · intro before row after split _ later above
    rw [same] at split ⊢
    cases found : h.state.obligations.find? (row.runId, later) with
    -- an obligation that is not there has nothing to claim
    | none => exact .inl (.inr fun row' found' => by cases found.symm.trans found')
    | some other =>
      have key := Sql.Table.key_of_find? found
      obtain ⟨sameRun, sameSeq⟩ := Prod.mk.inj key
      have listed := behind before row after split other (Sql.Table.mem_of_find? found) sameRun (by rw [sameSeq]; exact above)
      rw [isPast, Bool.or_eq_true, key] at listed
      -- the listing found it past, or has it before this row
      obtain (closed | invoked) | ⟨member, isReady⟩ := listed
      · refine .inl (.inr fun row' found' => ?_)
        obtain rfl := Option.some.inj (found.symm.trans found')
        exact closed
      · exact .inl (.inl (started_push invoked))
      · exact .inr (.inr ⟨other, member, key, isReady, List.not_mem_nil, found⟩)
  · intro row member _ other ne pk holds isRun
    rw [same] at member
    rw [inHand_push_ne (Ne.symm ne)] at holds
    obtain ⟨⟨event, logged, rfl⟩, -⟩ := mem_of_inHand holds
    have free := List.all_eq_true.mp (unheld row member) event logged
    simp only [ne, holds, isRun, decide_false, Bool.false_or, Option.all_some, ne_eq, not_true_eq_false] at free
    exact started_push free
  · intro row member unmoved
    rw [same] at member
    exact (eligible row member (calmFromFirst_cons unmoved)).imp_right duplicate_push

/-- What the drainer does without touching what it goes through. -/
theorem Knows.push_silent (knows : Knows tid call h) (proper : Proper tid h act) (answers : tape.Answers act h.state res state)
    (keeps : ∀ s, act = .run s → ∀ row, isUnwound row.status → isUnwound (s.apply row).status)
    (unlisted : isListing ⟨tid, act, res⟩ = false) (unwon : wins ⟨tid, act, res⟩ = none)
    (unregistered : ∀ pk, registers pk ⟨tid, act, res⟩ = false)
    (rows : ((turn tid h.log).next ⟨tid, act, res⟩).rows = (turn tid h.log).rows)
    (hand : ((turn tid h.log).next ⟨tid, act, res⟩).hand = (turn tid h.log).hand)
    (tried : ((turn tid h.log).next ⟨tid, act, res⟩).tried = (turn tid h.log).tried) :
    Knows tid call (h.push tid act res state) :=
  knows.push_own answers unlisted keeps rows fun _ pk _ ahead => ahead.push proper answers
    (fun won => by cases unwon.symm.trans won) (unregistered pk) (fun held => .inl (hand.trans held)) fun untried =>
      tried ▸ untried

theorem Knows.push_claimed {r claimer : String} {seq leaseExp now : Int} {updated : Nat} (knows : Knows tid call h)
    (inTurn : InTurn call (turn tid h.log) (r, seq) now)
    (answers : tape.Answers (.obligation (.claimObligation r seq claimer leaseExp now)) h.state (.ok updated) state) :
    Knows tid call (h.push tid (.obligation (.claimObligation r seq claimer leaseExp now)) (.ok updated) state) := by
  refine knows.push_own answers rfl (fun _ same => by cases same) rfl fun before pk listed ahead => ?_
  obtain ⟨earlier, row, after, split, isThis, claims, -⟩ := inTurn.next
  refine ahead.push_claim inTurn.free (fun other member isSame isReady => ?_) answers
  -- the listing shows the obligation once
  have same : other = row := by
    refine knows.distinct row ?_ other (listed other member) (isSame.trans isThis.symm)
    rw [split]
    exact List.mem_append_right _ List.mem_cons_self
  subst same
  exact claims isReady

theorem Knows.push_read {r : String} {seq : Int} {found : Option ObligationRecord} (knows : Knows tid call h)
    (answers : tape.Answers (.obligation (.getObligation r seq)) h.state (.ok found) state) :
    Knows tid call (h.push tid (.obligation (.getObligation r seq)) (.ok found) state) := by
  cases found with
  | some row =>
    exact knows.push_silent trivial answers (fun _ same => by cases same) rfl rfl (fun _ => rfl) rfl rfl rfl
  | none =>
    refine knows.push_own answers rfl (fun _ same => by cases same) rfl fun before pk _ ahead => ?_
    have proper : Proper tid h (.obligation (.getObligation r seq)) := trivial
    refine ahead.push proper answers (fun won => by cases won) rfl (fun held => ?_) id
    by_cases own : pk = (r, seq)
    · -- the row in hand is gone
      subst own
      obtain ⟨isNone, rfl⟩ := exec_of_ok answers
      exact .inr (.inr fun row found => by cases (Except.ok.inj isNone).trans found)
    · left
      simp [Turn.next, Turn.read, held, own]

/-- What is resolved is closed, if it is there. -/
theorem Knows.push_resolved {r resultJson : String} {seq status now : Int} {updated : Nat} (knows : Knows tid call h)
    (closed : isClosed status) (target : ∀ pk, (turn tid h.log).hand = some pk → pk = (r, seq))
    (answers : tape.Answers (.obligation (.resolve r seq status resultJson now)) h.state (.ok updated) state) :
    Knows tid call (h.push tid (.obligation (.resolve r seq status resultJson now)) (.ok updated) state) := by
  refine knows.push_own answers rfl (fun _ same => by cases same) rfl fun before pk _ ahead => ?_
  have proper : Proper tid h (.obligation (.resolve r seq status resultJson now)) := closed
  refine ahead.push proper answers (fun won => by cases won) rfl
    (fun held => .inr (.inr fun row' found' => ?_)) id
  obtain rfl := target pk held
  obtain ⟨-, rfl⟩ := exec_of_ok answers
  cases found : h.state.obligations.find? (r, seq) with
  | none =>
    obtain ⟨isInsert, -⟩ := obligation_inserted_of_answers answers found found'
    cases isInsert
  | some row =>
    have changed : ((Stmt.obligation (.resolve r seq status resultJson now)).exec h.state).2.obligations.find?
      (r, seq) = some _ :=
      ObligationStmt.find?_exec_of_some found
    obtain rfl := Option.some.inj (changed.symm.trans found')
    have selected : (ObligationStmt.resolve r seq status resultJson now).selects row :=
      decide_eq_true (Sql.Table.key_of_find? found)
    rw [ObligationStmt.apply, if_pos selected]
    exact closed

theorem Knows.push_invoked {ob : ObligationRecord} {res : Unit} (knows : Knows tid call h)
    (proper : Proper tid h (.outside (.compensator ob)))
    (target : ∀ pk, (turn tid h.log).hand = some pk → pk = ob.pk)
    (answers : tape.Answers (.outside (.compensator ob)) h.state res state) :
    Knows tid call (h.push tid (.outside (.compensator ob)) res state) := by
  refine knows.push_own answers rfl (fun _ same => by cases same) rfl fun before pk _ ahead => ?_
  refine ahead.push proper answers (fun won => by cases won) rfl (fun held => .inr (.inl ?_)) id
  obtain rfl := target pk held
  exact List.any_eq_true.mpr ⟨_, List.mem_cons_self, decide_eq_true rfl⟩

/-- The listing of a run: later obligations stand before the earlier ones. -/
theorem Knows.push_listObligations {rows : List ObligationRecord} (moved : Moved tid job.runId h)
    (asked : (turn tid h.log).asked) (found : (turn tid h.log).found)
    (lists : mayList tid (.compensateRun job) h (.obligation (.listObligations job.runId true 0)))
    (answers : tape.Answers (.obligation (.listObligations job.runId true 0)) h.state (.ok rows) state) :
    Knows tid (.compensateRun job) (h.push tid (.obligation (.listObligations job.runId true 0)) (.ok rows) state) := by
  obtain ⟨isRows, rfl⟩ := exec_of_ok answers
  have isRows : rows = orderBy (fun row => -row.seq) (h.state.obligations.rows.filter fun row =>
    row.runId = job.runId && ObligationStmt.listed true 0 row) := Except.ok.inj isRows
  obtain ⟨unheld, settled⟩ := Bool.and_eq_true_iff.mp lists
  have selected : ∀ row ∈ rows, row ∈ h.state.obligations.rows ∧ row.runId = job.runId := by
    intro row member
    rw [isRows] at member
    obtain ⟨stored, selected⟩ := List.mem_filter.mp (mem_of_mem_orderBy member)
    simp only [Bool.and_eq_true, decide_eq_true_eq] at selected
    exact ⟨stored, selected.1⟩
  refine Knows.push_listed rfl (fun row member => ?_) ?_ (fun row member => ?_)
    fun row member unmoved => ?_
  · exact Sql.Table.find?_key_of_mem (selected row member).1
  · intro before row after split later stored isRun above
    have own : row.runId = job.runId := (selected row (split ▸ List.mem_append_right _ List.mem_cons_self)).2
    have listed := List.all_eq_true.mp settled later stored
    simp only [isRun, own, ne_eq, not_true_eq_false, decide_false, Bool.false_or, Bool.or_eq_true] at listed
    refine listed.imp_right fun isReady => ⟨?_, isReady⟩
    have pending : later.status = ObligationStatus.pending.code := by
      simp only [ready, Bool.and_eq_true, decide_eq_true_eq] at isReady
      exact isReady.1
    have member : later ∈ rows := by
      rw [isRows]
      refine (List.mem_insertionSort _).mpr (List.mem_filter.mpr ⟨stored, ?_⟩)
      simp [isRun, own, ObligationStmt.listed, pending, ObligationStatus.code]
    -- in descending order, what is later comes first
    have sorted : rows.Pairwise fun a b => -a.seq ≤ -b.seq := by
      rw [isRows]
      apply List.pairwise_insertionSort
    rw [split] at member sorted
    rcases List.mem_append.mp member with earlier | rest
    · exact earlier
    rcases List.mem_cons.mp rest with rfl | rest
    · exact absurd above (lt_irrefl _)
    · have descends := (List.pairwise_cons.mp (List.pairwise_append.mp sorted).2.1).1 later rest
      omega
  · rw [(selected row member).2]
    exact unheld
  · left
    rw [(selected row member).2] at unmoved ⊢
    obtain ⟨runRow, isThere⟩ := Option.isSome_iff_exists.mp (moved.found found)
    rw [unwinding, isThere, Option.any_some]
    exact moved.asked asked unmoved runRow isThere

/-- What is due, of any run. -/
theorem Knows.push_listUnresolved {d : Sdk.Drainer} {clock maxRows now limit : Int}
    {expired pending stuck committedExpired : Bool}
    {rows : List ObligationRecord}
    (lists : mayList tid (.compensateOnce d clock maxRows expired) h
      (.obligation (.listUnresolved now pending stuck committedExpired limit)))
    (answers : tape.Answers (.obligation (.listUnresolved now pending stuck committedExpired limit)) h.state (.ok rows) state) :
    Knows tid (.compensateOnce d clock maxRows expired)
      (h.push tid (.obligation (.listUnresolved now pending stuck committedExpired limit)) (.ok rows) state) := by
  obtain ⟨isRows, rfl⟩ := exec_of_ok answers
  have isRows : rows = limitRows limit (orderBy₂ ObligationRecord.nextAttemptAtMs ObligationRecord.tsMs
    (h.state.obligations.rows.filter (ObligationStmt.unresolved now pending stuck committedExpired))) := Except.ok.inj isRows
  have isDue : due h.state (.obligation (.listUnresolved now pending stuck committedExpired limit)) = rows := isRows.symm
  simp only [mayList, isDue] at lists
  have found : ∀ before row after, rows = before ++ row :: after →
      ((unwinding row.runId h.state || duplicate row.pk h.log) && isUnheld tid row.runId h &&
        h.state.obligations.rows.all fun later => later.runId ≠ row.runId || later.seq ≤ row.seq || isPast later h.log ||
          (before.any fun other => other.pk = later.pk && ready (.compensateOnce d clock maxRows expired) other)) = true := by
    intro before row after split
    have placed : (row, before.length) ∈ rows.zipIdx := by simp [split, List.mem_zipIdx_iff_getElem?]
    have holds := List.all_eq_true.mp lists (row, before.length) placed
    simpa [split] using holds
  have stored_of_mem : ∀ row ∈ rows, h.state.obligations.find? row.pk = some row := by
    intro row member
    rw [isRows] at member
    exact Sql.Table.find?_key_of_mem (List.mem_filter.mp (mem_of_mem_orderBy₂ (mem_of_mem_limitRows member))).1
  refine Knows.push_listed rfl stored_of_mem ?_ (fun row member => ?_) fun row member _ => ?_
  · intro before row after split later stored isRun above
    have holds := List.all_eq_true.mp (Bool.and_eq_true_iff.mp (found before row after split)).2 later stored
    simp only [isRun, not_le.mpr above, ne_eq, not_true_eq_false, decide_false, Bool.false_or, Bool.or_eq_true,
      List.any_eq_true, Bool.and_eq_true, decide_eq_true_eq] at holds
    obtain past | ⟨other, member, same, isReady⟩ := holds
    · exact .inl past
    · -- a key stands for one row
      have listed : h.state.obligations.find? other.pk = some other := stored_of_mem other (split ▸ List.mem_append_left _ member)
      rw [same, Sql.Table.find?_key_of_mem stored] at listed
      obtain rfl := Option.some.inj listed
      exact .inr ⟨member, isReady⟩
  · obtain ⟨before, after, split⟩ := List.append_of_mem member
    exact (Bool.and_eq_true_iff.mp (Bool.and_eq_true_iff.mp (found before row after split)).1).2
  · obtain ⟨before, after, split⟩ := List.append_of_mem member
    exact Bool.or_eq_true_iff.mp (Bool.and_eq_true_iff.mp (Bool.and_eq_true_iff.mp (found before row after split)).1).1

theorem takes_of_drains (drainer : isDrainer call) (drains : Drains tid call h act) : TakesTurn call (turn tid h.log) act := by
  cases call with
  | compensateRun | compensateOnce => exact drains.1
  | _ => cases drainer

theorem Knows.push_self (knows : Knows tid call h) (drainer : isDrainer call)
    (moved : ∀ job, call = .compensateRun job → Moved tid job.runId h) (proper : Proper tid h act)
    (drains : Drains tid call h act)
    (lists : mayList tid call h act) (answers : tape.Answers act h.state res state) :
    Knows tid call (h.push tid act res state) := by
  have takes := takes_of_drains drainer drains
  cases act with
  | cache c => exact knows.push_silent proper answers (fun _ same => by cases same) rfl rfl (fun _ => rfl) rfl rfl rfl
  | outside x =>
    cases x with
    | compensator ob => exact knows.push_invoked proper takes answers
    | _ => exact knows.push_silent proper answers (fun _ same => by cases same) rfl rfl (fun _ => rfl) rfl rfl rfl
  | sql s =>
    cases s with
    | obligation s =>
      cases s with
      -- a drainer registers nothing
      | insertObligation row => exact takes.elim
      | listObligations r onlyUnresolved statusFilter =>
        cases res with
        | error e => exact knows.push_silent proper answers (fun _ same => by cases same) rfl rfl (fun _ => rfl) rfl rfl rfl
        | ok rows =>
          cases call with
          | compensateRun job =>
            obtain ⟨-, ⟨rfl, rfl, rfl⟩, asked, found⟩ := drains
            exact .push_listObligations (moved job rfl) asked found lists answers
          -- `compensate_run` alone lists by run
          | compensateOnce => cases drains.2
          | _ => cases drainer
      | listUnresolved now pending stuck committedExpired limit =>
        cases res with
        | error e => exact knows.push_silent proper answers (fun _ same => by cases same) rfl rfl (fun _ => rfl) rfl rfl rfl
        | ok rows =>
          cases call with
          | compensateRun job => exact drains.2.elim
          | compensateOnce => exact .push_listUnresolved lists answers
          | _ => cases drainer
      | claimObligation r seq claimer leaseExp now =>
        cases res with
        | error e => exact knows.push_silent proper answers (fun _ same => by cases same) rfl rfl (fun _ => rfl) rfl rfl rfl
        | ok updated => exact knows.push_claimed takes answers
      | getObligation r seq =>
        cases res with
        | error e => exact knows.push_silent proper answers (fun _ same => by cases same) rfl rfl (fun _ => rfl) rfl rfl rfl
        | ok found => exact knows.push_read answers
      | resolve r seq status resultJson now =>
        cases res with
        | error e => exact knows.push_silent proper answers (fun _ same => by cases same) rfl rfl (fun _ => rfl) rfl rfl rfl
        | ok updated => exact knows.push_resolved proper takes answers
      | _ => exact knows.push_silent proper answers (fun _ same => by cases same) rfl rfl (fun _ => rfl) rfl rfl rfl
    | run s =>
      -- what a drainer does to a run leaves it in the three statuses
      have keeps : ∀ s', Act.run s = .run s' → ∀ row, isUnwound row.status → isUnwound (s'.apply row).status := by
        rintro _ ⟨⟩
        exact takes.1
      cases s with
      | endRun | getRun =>
        cases res with
        | error e => exact knows.push_silent proper answers keeps rfl rfl (fun _ => rfl) rfl rfl rfl
        | ok value => exact knows.push_silent proper answers keeps rfl rfl (fun _ => rfl) rfl rfl rfl
      | _ => exact knows.push_silent proper answers keeps rfl rfl (fun _ => rfl) rfl rfl rfl
    | _ => exact knows.push_silent proper answers (fun _ same => by cases same) rfl rfl (fun _ => rfl) rfl rfl rfl

theorem asked_of_next {t : Turn} (asked : (t.next ⟨tid, act, res⟩).asked) : t.asked ∨
    ∃ r status ts detailJson, ∃ updated : Nat, (⟨tid, act, res⟩ : TapeEvent) =
      ⟨tid, .run (.endRun r status ts detailJson), .ok updated⟩ := by
  unfold Turn.next at asked
  split at asked
  next _ r status ts detailJson updated same =>
    cases same
    exact .inr ⟨r, status, ts, detailJson, updated, rfl⟩
  next => exact .inl asked
  next => exact .inl asked
  next => exact .inl asked
  next => exact .inl asked
  next => exact .inl ((Turn.asked_read ..).symm.trans asked)
  next => exact .inl asked
  next => exact .inl asked
  next => exact .inl asked

theorem found_of_next {t : Turn} (found : (t.next ⟨tid, act, res⟩).found) : t.found ∨
    ∃ r row, (⟨tid, act, res⟩ : TapeEvent) = ⟨tid, .run (.getRun r), .ok (some row)⟩ := by
  unfold Turn.next at found
  split at found
  next => exact .inl found
  next _ r answer same =>
    cases same
    refine (Bool.or_eq_true_iff.mp found).imp_right fun isThere => ?_
    obtain ⟨row, rfl⟩ := Option.isSome_iff_exists.mp isThere
    exact ⟨r, row, rfl⟩
  next => exact .inl found
  next => exact .inl found
  next => exact .inl found
  next => exact .inl ((Turn.found_read ..).symm.trans found)
  next => exact .inl found
  next => exact .inl found
  next => exact .inl found

theorem Moved.push_self (moved : Moved tid runId h) (takes : TakesTurn call (turn tid h.log) act)
    (moves : MovesFirst runId (turn tid h.log) act) (answers : tape.Answers act h.state res state) :
    Moved tid runId (h.push tid act res state) := by
  constructor
  · intro asked unmoved row' found'
    rw [turn_push_self] at asked
    cases found : h.state.runs.find? runId with
    | none =>
      obtain ⟨rfl, -⟩ := run_inserted_of_answers answers found found'
      -- a drainer inserts no run
      exact absurd rfl (takes.2 row')
    | some row =>
      cases asked_of_next asked with
      | inl before =>
        -- it was moved before, and what the drainer does since leaves it there
        have unwound := moved.asked before (calmFromFirst_cons unmoved) row found
        obtain kept | ⟨s, rfl, -, -, changed⟩ := run_of_answers answers found
        · obtain rfl := Option.some.inj (kept.symm.trans found')
          exact unwound
        · obtain rfl := Option.some.inj (changed.symm.trans found')
          exact takes.1 row unwound
      | inr now =>
        obtain ⟨r, status, ts, detailJson, updated, same⟩ := now
        cases same
        obtain ⟨-, rfl⟩ := exec_of_ok answers
        -- the drainer itself moves it now
        have changed : ((Stmt.run (.endRun r status ts detailJson)).exec h.state).2.runs.find? runId = some _ :=
          RunStmt.find?_exec_of_some found
        obtain rfl := Option.some.inj (changed.symm.trans found')
        obtain ⟨rfl, unwound⟩ := moves
        have selected : (RunStmt.endRun r status ts detailJson).selects row := decide_eq_true (Sql.Table.key_of_find? found)
        rw [RunStmt.apply, if_pos selected]
        exact unwound
  · intro isFound
    rw [turn_push_self] at isFound
    cases found_of_next isFound with
    | inl before => exact run_stays answers (moved.found before)
    | inr now =>
      obtain ⟨r, row, same⟩ := now
      cases same
      obtain ⟨isRow, rfl⟩ := exec_of_ok answers
      obtain rfl : r = runId := moves
      exact Option.isSome_iff_exists.mpr ⟨row, (Except.ok.inj isRow).symm⟩

end Knows

/-! ## From the conditions to the order -/

/-- What a thread knows when it comes to an act. -/
def Local (tid : Nat) (call : Call) (h : TapeHist) : Prop :=
  isDrainer call → Knows tid call h ∧ ∀ job, call = .compensateRun job → Moved tid job.runId h

section Orderly

variable {tid : Nat} {call : Call} {h : TapeHist} {act : Act}

theorem local_of_fresh (call : Call) (fresh : lastOwn tid h.log = none) : Local tid call h := by
  have start : turn tid h.log = {} := ownFold_of_fresh fresh
  refine fun _ => ⟨?_, fun job _ => ?_⟩
  · constructor
    · intro row member
      rw [start] at member
      cases member
    · intro before row after split
      rw [start] at split
      simp at split
    · intro row member
      rw [start] at member
      cases member
    · intro row member
      rw [start] at member
      cases member
  · constructor
    · intro asked
      rw [start] at asked
      cases asked
    · intro found
      rw [start] at found
      cases found

end Orderly

def drainer : Sdk.Drainer where
  claimer := "C"
  claimAt _ _ := 1000
  recordAt _ _ := 1000
  sdkNow _ := 1000

def tick : List (Choice Call) := serve 3 (.compensateOnce drainer 1000 200 true) 7

def statusOf (w : World) : Option Int := (w.runs.find? "r").map RunRow.status

/-- An effect of the run turns out to have been carried out twice. -/
def observedTwice : List (Choice Call) :=
  serve 0 (.beginRun 0 "app" "user" "session" "invocation" {} "A" 60000 1 "r") ++
    serve 1 (.beginEffect 0 { runId := "r", toolName := "wire", customKey := "k" } 2) ++
    serve 2 (.recordExternalObservation "r" "k" EffectResolution.duplicate.code "ref" "" "" "refund" 3 3)

example : duplicate ("r", 4) (tape.run (quiet (World.empty .sqlite)) observedTwice).log = true := by decide +kernel

end Tape.Compensation
