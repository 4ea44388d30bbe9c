import Tape.Compensation.Obligation

/-! # The order of inverses

A run is unwound in order if a claim is won only on its last open obligation, while it is `COMPENSATING`,
`FAILED` or `STUCK` (or on one that a `DUPLICATE` observation registered).  Whoever has claimed an obligation
in this order invokes its inverse in it: what is claimed later is not invoked first.
-/

namespace Tape.Compensation

open Interleave

/-! ## What the log says -/

/-- `COMPENSATING`, `FAILED` or `STUCK`. -/
def isUnwound (status : Int) : Bool :=
  status = RunStatus.compensating.code || status = RunStatus.failed.code || status = RunStatus.stuck.code

def unwinding (runId : String) (w : World) : Bool := (w.runs.find? runId).any fun row => isUnwound row.status

/-- The event is an `end_run` that moved the run to one of the three statuses. -/
def unwindsRun (runId : String) : TapeEvent → Bool
  | ⟨_, .sql (.run (.endRun r status _ _)), .ok _⟩ => r = runId && isUnwound status
  | _ => false

/-- The obligation whose inverse the event invoked. -/
def invokes : TapeEvent → Option (String × Int)
  | ⟨_, .outside (.compensator ob), _⟩ => some ob.pk
  | _ => none

def claimed (pk : String × Int) (log : List TapeEvent) : Bool := log.any fun event => wins event = some pk

def started (pk : String × Int) (log : List TapeEvent) : Bool := log.any fun event => invokes event = some pk

/-- The obligation a thread holds after `event` of its own, when it held `held` before. -/
def holdsAfter (event : TapeEvent) (held : Option (String × Int)) : Option (String × Int) :=
  match event.op with
  | .sql (.obligation (.claimObligation ..)) => wins event
  | .sql (.obligation (.resolve ..)) | .outside (.compensator _) => none
  | _ => held

/-- The obligation whose claim thread `tid` has won and whose inverse it has neither invoked nor
    given up. -/
def inHand (tid : Nat) : List TapeEvent → Option (String × Int)
  | [] => none
  | event :: older => if event.tid = tid then holdsAfter event (inHand tid older) else inHand tid older

def registers (pk : String × Int) : TapeEvent → Bool
  | ⟨_, .sql (.obligation (.insertObligation row)), .ok _⟩ => row.pk = pk
  | _ => false

/-- `record_external_observation` journals what it observed before it registers an inverse. -/
def observesDuplicate : TapeEvent → Bool
  | ⟨_, .sql (.journal (.insertEntry row)), .ok _⟩ =>
    row.kind = "effect" && row.payload.strAt "transition" = "observed-duplicate"
  | _ => false

/-- The obligation was registered by a thread that had observed a `DUPLICATE`. -/
def duplicate (pk : String × Int) : List TapeEvent → Bool
  | [] => false
  | event :: older =>
    (registers pk event && older.any fun e => e.tid = event.tid && observesDuplicate e) || duplicate pk older

/-! ## Orderly draining -/

/-- The obligation whose claim `act` would win. -/
def wouldWin (w : World) : Act → Option (String × Int)
  | .sql (.obligation (.claimObligation runId seq _ _ now)) =>
    if (w.obligations.find? (runId, seq)).any (ObligationStmt.claimable now) then some (runId, seq) else none
  | _ => none

/-- Every later obligation of the run is resolved or its inverse was invoked, and no other thread is
    about to invoke the inverse of one for the first time. -/
def isLast (tid : Nat) (pk : String × Int) (h : TapeHist) : Bool :=
  (h.state.obligations.rows.all fun row =>
    row.runId ≠ pk.1 || row.seq ≤ pk.2 || isClosed row.status || started row.pk h.log) &&
  h.log.all fun event => event.tid = tid ||
    (inHand event.tid h.log).all fun held => held.1 ≠ pk.1 || held.2 ≤ pk.2 || started held h.log

/-- A claim is won only on the last open obligation of a run that is being unwound, or whose act a
    `DUPLICATE` observation has doubled. -/
def mayClaim (tid : Nat) (h : TapeHist) (act : Act) : Bool :=
  (wouldWin h.state act).all fun pk =>
    (unwinding pk.1 h.state || duplicate pk h.log) && isLast tid pk h

/-- An obligation is registered only for a run none of whose obligations was claimed. -/
def mayRegister (h : TapeHist) : Act → Bool
  | .sql (.obligation (.insertObligation row)) => h.log.all fun event =>
    (wins event).all fun pk => pk.1 ≠ row.runId
  | _ => true

/-- No statement takes a run out of the three statuses while a thread has an obligation of it in hand. -/
def keepsUnwinding (h : TapeHist) : Act → Bool
  | .sql (.run s) => h.log.all fun event => (inHand event.tid h.log).all fun pk =>
    duplicate pk h.log || (h.state.runs.find? pk.1).all fun row =>
      !isUnwound row.status || isUnwound (s.apply row).status
  | _ => true

/-- `act`, about to be executed by thread `tid`, drains and registers in order. -/
structure Orderly (tid : Nat) (h : TapeHist) (act : Act) : Prop where
  claims : mayClaim tid h act
  registers : mayRegister h act
  keeps : keepsUnwinding h act

instance (tid : Nat) (h : TapeHist) (act : Act) : Decidable (Orderly tid h act) :=
  decidable_of_iff (_ ∧ _ ∧ _) ⟨fun all => ⟨all.1, all.2.1, all.2.2⟩, fun all => ⟨all.claims, all.registers, all.keeps⟩⟩

/-! ## How the log grows -/

section Log

variable {h : TapeHist} {tid : Nat} {act : Act} {res : act.Res} {state : World} {pk : String × Int}

theorem claimed_push (earlier : claimed pk h.log) : claimed pk (h.push tid act res state).log := by
  rw [Hist.push_log, claimed, List.any_cons, Bool.or_eq_true]
  exact .inr earlier

theorem started_push (earlier : started pk h.log) : started pk (h.push tid act res state).log := by
  rw [Hist.push_log, started, List.any_cons, Bool.or_eq_true]
  exact .inr earlier

theorem duplicate_push (earlier : duplicate pk h.log) : duplicate pk (h.push tid act res state).log := by
  rw [Hist.push_log, duplicate, Bool.or_eq_true]
  exact .inr earlier

theorem inHand_push_self :
    inHand tid (h.push tid act res state).log = holdsAfter ⟨tid, act, res⟩ (inHand tid h.log) := by
  simp [inHand]

theorem inHand_push_ne {other : Nat} (ne : tid ≠ other) :
    inHand other (h.push tid act res state).log = inHand other h.log := by
  simp [inHand, ne]

/-- What a thread holds after an act: nothing, what it held, or the claim the act won. -/
theorem holdsAfter_cases {event : TapeEvent} {held : Option (String × Int)}
    (holds : holdsAfter event held = some pk) : held = some pk ∨ wins event = some pk := by
  unfold holdsAfter at holds
  split at holds
  · exact .inr holds
  · cases holds
  · cases holds
  · exact .inl holds

theorem mem_of_inHand {log : List TapeEvent} (holds : inHand tid log = some pk) :
    (∃ event ∈ log, event.tid = tid) ∧ claimed pk log := by
  induction log with
  | nil => cases holds
  | cons event older inductionHypothesis =>
    rw [inHand] at holds
    rw [claimed, List.any_cons, Bool.or_eq_true]
    split at holds
    next own =>
      refine ⟨⟨event, List.mem_cons_self, own⟩, ?_⟩
      cases holdsAfter_cases holds with
      | inl earlier => exact .inr (inductionHypothesis earlier).2
      | inr won => exact .inl (by simpa using won)
    next =>
      obtain ⟨⟨e, member, own⟩, before⟩ := inductionHypothesis holds
      exact ⟨⟨e, List.mem_cons_of_mem _ member, own⟩, .inr before⟩

/-- A claim that was won had been there to win. -/
theorem wouldWin_of_wins (answers : tape.Answers act h.state res state)
    (won : wins ⟨tid, act, res⟩ = some pk) : wouldWin h.state act = some pk := by
  obtain ⟨claimer, leaseExp, now, row, rfl, found, claimable⟩ := claimable_of_wins answers won
  simp [wouldWin, found, claimable]

end Log

/-! ## What the drainers do -/

/-- What a thread of the deployment asks of itself before `act`: it invokes an inverse it has in hand,
    reschedules an inverse that was invoked, resolves for good, and creates runs as `RUNNING`. -/
def Proper (tid : Nat) (h : TapeHist) : Act → Prop
  | .outside (.compensator ob) => inHand tid h.log = some ob.pk
  | .sql (.obligation (.recordAttempt runId seq ..)) => started (runId, seq) h.log
  | .sql (.obligation (.resolve _ _ status _ _)) => isClosed status
  | .sql (.run (.insertRun row)) => row.status = RunStatus.running.code
  | _ => True

/-- The inverse was invoked, or nothing is left to claim. -/
def Settled (pk : String × Int) (h : TapeHist) : Prop :=
  started pk h.log ∨ ∀ row, h.state.obligations.find? pk = some row → isClosed row.status

/-- The inverse was invoked; or it never will be: nothing is left to claim and nobody has it in hand. -/
def Passed (pk : String × Int) (h : TapeHist) : Prop :=
  started pk h.log ∨ ((∀ row, h.state.obligations.find? pk = some row → isClosed row.status) ∧
    ∀ tid, inHand tid h.log ≠ some pk)

section Steps

variable {h : TapeHist} {tid : Nat} {act : Act} {res : act.Res} {state : World} {pk : String × Int}

/-- A resolved obligation stays resolved, unless its inverse was invoked. -/
theorem closed_push (proper : Proper tid h act) (answers : tape.Answers act h.state res state)
    {row row' : ObligationRecord} (found : h.state.obligations.find? pk = some row) (closed : isClosed row.status)
    (found' : state.obligations.find? pk = some row') : isClosed row'.status ∨ started pk h.log := by
  obtain kept | ⟨s, rfl, -, -, changed⟩ := obligation_of_answers answers found
  · rw [kept, Option.some.injEq] at found'
    exact .inl (found' ▸ closed)
  rw [changed, Option.some.injEq] at found'
  subst found'
  rw [ObligationStmt.apply]
  split
  next selected =>
    cases s with
    | claimObligation runId seq claimer leaseExp now =>
      -- the `WHERE` clause of a claim passes over a resolved row
      simp [ObligationStmt.selects, not_claimable_of_closed closed] at selected
    | recordAttempt runId seq status attempts error nextAt now =>
      -- an attempt is recorded only after the inverse was invoked
      right
      simp only [ObligationStmt.selects, decide_eq_true_eq] at selected
      rw [← Sql.Table.key_of_find? found, selected]
      exact proper
    | resolve runId seq status resultJson now => exact .inl proper
    | _ => cases selected
  next => exact .inl closed

theorem insert_of_registers (registered : registers pk ⟨tid, act, res⟩) :
    ∃ row, act = .obligation (.insertObligation row) ∧ row.pk = pk := by
  unfold registers at registered
  split at registered
  next isInsert =>
    cases isInsert
    exact ⟨_, rfl, of_decide_eq_true registered⟩
  next => cases registered

/-- An obligation that appears was registered. -/
theorem registers_of_answers (answers : tape.Answers act h.state res state) {row : ObligationRecord}
    (absent : h.state.obligations.find? pk = none) (found : state.obligations.find? pk = some row) :
    registers pk ⟨tid, act, res⟩ := by
  obtain ⟨rfl, same⟩ := obligation_inserted_of_answers answers absent found
  obtain ⟨rfl, rfl⟩ | ⟨-, rfl⟩ := answers_cases answers
  · have accepted : ((Act.obligation (.insertObligation row)).exec h.state).1 = .ok () := insertRow_accepted absent found
    rw [accepted]
    exact decide_eq_true same
  · cases absent.symm.trans found

theorem Settled.push (settled : Settled pk h) (proper : Proper tid h act) (answers : tape.Answers act h.state res state)
    (unregistered : registers pk ⟨tid, act, res⟩ = false) : Settled pk (h.push tid act res state) := by
  by_cases invoked : started pk h.log
  · exact .inl (started_push invoked)
  refine .inr fun row' found' => ?_
  cases found : h.state.obligations.find? pk with
  | none =>
    rw [registers_of_answers answers found found'] at unregistered
    cases unregistered
  | some row => exact (closed_push proper answers found (settled.resolve_left invoked row found) found').resolve_right invoked

theorem Passed.push (passed : Passed pk h) (proper : Proper tid h act)
    (unregistered : registers pk ⟨tid, act, res⟩ = false)
    (answers : tape.Answers act h.state res state) : Passed pk (h.push tid act res state) := by
  by_cases invoked : started pk h.log
  · exact .inl (started_push invoked)
  obtain ⟨closed, free⟩ := passed.resolve_left invoked
  obtain invoked | closed' := Settled.push (.inr closed) proper answers unregistered
  · exact .inl invoked
  refine .inr ⟨closed', fun other => ?_⟩
  by_cases own : tid = other
  · subst own
    rw [inHand_push_self]
    intro holds
    cases holdsAfter_cases holds with
    | inl held => exact free tid held
    | inr won =>
      -- what was won had been there to claim
      have could := wouldWin_of_wins answers won
      unfold wouldWin at could
      split at could
      next _ runId seq claimer leaseExp now =>
        split at could
        next available =>
          obtain rfl := Option.some.inj could
          obtain ⟨row, found, claimable⟩ := (Option.any_eq_true _ _).mp available
          rw [not_claimable_of_closed (closed row found)] at claimable
          cases claimable
        next => cases could
      next => cases could
  · rw [inHand_push_ne own]
    exact free other

/-- The winner of an orderly claim leaves every later obligation of the run passed. -/
theorem passed_of_wins {runId : String} {seq later : Int} (orderly : Orderly tid h act)
    (answers : tape.Answers act h.state res state) (won : wins ⟨tid, act, res⟩ = some (runId, seq))
    (after : seq < later) : Passed (runId, later) (h.push tid act res state) := by
  have last : isLast tid (runId, seq) h := by
    have may := orderly.claims
    rw [mayClaim, wouldWin_of_wins answers won, Option.all_some, Bool.and_eq_true] at may
    exact may.2
  rw [isLast, Bool.and_eq_true] at last
  obtain ⟨closed, free⟩ := last
  obtain ⟨claimer, leaseExp, now, rfl⟩ := claim_of_wins won
  by_cases invoked : started (runId, later) h.log
  · exact .inl (started_push invoked)
  -- the condition found the row resolved, and the claim is on another one
  have settled : Settled (runId, later) h := by
    refine .inr fun row found => ?_
    have key := Sql.Table.key_of_find? found
    have listed := List.all_eq_true.mp closed row (Sql.Table.mem_of_find? found)
    obtain ⟨sameRun, sameSeq⟩ := Prod.mk.inj key
    simp only [key, sameRun, sameSeq, invoked, Bool.or_eq_true, decide_eq_true_eq] at listed
    simpa [not_le.mpr after] using listed
  have proper : Proper tid h (.obligation (.claimObligation runId seq claimer leaseExp now)) := trivial
  obtain invokedNow | closed' := settled.push proper answers rfl
  · exact .inl invokedNow
  refine .inr ⟨closed', fun other => ?_⟩
  by_cases own : tid = other
  · subst own
    rw [inHand_push_self]
    intro holds
    -- the winner has the claimed obligation in hand, not the later one
    have same : wins ⟨tid, _, res⟩ = some (runId, later) := holds
    rw [won, Option.some.injEq, Prod.mk.injEq] at same
    omega
  · rw [inHand_push_ne own]
    intro holds
    -- another thread has no later one in hand that was never invoked
    obtain ⟨⟨event, member, rfl⟩, -⟩ := mem_of_inHand holds
    have alone := List.all_eq_true.mp free event member
    simp [Ne.symm own, holds, not_le.mpr after, invoked] at alone

end Steps

/-! ## The invariant -/

structure Sound (h : TapeHist) : Prop where
  /-- A run in one of the three statuses was moved there by `end_run`. -/
  moved : ∀ runId row, h.state.runs.find? runId = some row → isUnwound row.status → h.log.any (unwindsRun runId)
  eligible : ∀ tid pk, inHand tid h.log = some pk → unwinding pk.1 h.state ∨ duplicate pk h.log
  invoked : ∀ pk, started pk h.log → claimed pk h.log
  passed : ∀ runId seq later, claimed (runId, seq) h.log → seq < later → Passed (runId, later) h

section Sound

variable {h : TapeHist} {tid : Nat} {act : Act} {res : act.Res} {state : World}

theorem Sound.moved_push (sound : Sound h) (proper : Proper tid h act) (answers : tape.Answers act h.state res state)
    {runId : String} {row' : RunRow} (found' : state.runs.find? runId = some row') (unwound : isUnwound row'.status) :
    (h.push tid act res state).log.any (unwindsRun runId) := by
  rw [Hist.push_log, List.any_cons, Bool.or_eq_true]
  cases found : h.state.runs.find? runId with
  | none =>
    obtain ⟨rfl, -⟩ := run_inserted_of_answers answers found found'
    have running : row'.status = RunStatus.running.code := proper
    simp [isUnwound, running, RunStatus.code] at unwound
  | some row =>
    obtain kept | ⟨s, rfl, rfl, -, changed⟩ := run_of_answers answers found
    · rw [kept, Option.some.injEq] at found'
      exact .inr (sound.moved runId row found (found' ▸ unwound))
    rw [changed, Option.some.injEq] at found'
    subst found'
    rw [RunStmt.apply] at unwound
    split at unwound
    next selected =>
      cases s with
      | endRun r status ts detailJson =>
        -- the statement itself moved the run
        left
        simp only [RunStmt.selects, decide_eq_true_eq] at selected
        have same : row.runId = runId := Sql.Table.key_of_find? found
        have isThisRun : r = runId := selected.symm.trans same
        exact Bool.and_eq_true_iff.mpr ⟨decide_eq_true isThisRun, unwound⟩
      | bumpSeq r => exact .inr (sound.moved runId row found unwound)
      | stampCompacted r ts => exact .inr (sound.moved runId row found unwound)
      | _ => first | cases unwound | cases selected
    next => exact .inr (sound.moved runId row found unwound)

/-- What is eligible stays so past a statement that keeps its run where it is. -/
theorem eligible_push {pk : String × Int} (eligible : unwinding pk.1 h.state ∨ duplicate pk h.log)
    (stays : ∀ s, act = .run s → duplicate pk h.log ∨ ∀ row, h.state.runs.find? pk.1 = some row →
      isUnwound row.status → isUnwound (s.apply row).status)
    (answers : tape.Answers act h.state res state) :
    unwinding pk.1 state ∨ duplicate pk (h.push tid act res state).log := by
  by_cases doubled : duplicate pk h.log
  · exact .inr (duplicate_push doubled)
  left
  obtain ⟨row, found, unwound⟩ := (Option.any_eq_true _ _).mp (eligible.resolve_right doubled)
  obtain kept | ⟨s, rfl, -, -, changed⟩ := run_of_answers answers found
  · rw [unwinding, kept]
    exact unwound
  · rw [unwinding, changed]
    exact (stays s rfl).resolve_left doubled row found unwound

theorem stays_of_inHand {holder : Nat} {pk : String × Int} (holds : inHand holder h.log = some pk)
    (keeps : keepsUnwinding h act) (s : RunStmt) (isRun : act = .run s) :
    duplicate pk h.log ∨ ∀ row, h.state.runs.find? pk.1 = some row →
      isUnwound row.status → isUnwound (s.apply row).status := by
  subst isRun
  obtain ⟨⟨event, member, rfl⟩, -⟩ := mem_of_inHand holds
  have kept := List.all_eq_true.mp keeps event member
  by_cases doubled : duplicate pk h.log
  · exact .inl doubled
  · refine .inr fun row found unwound => ?_
    simpa [holds, doubled, found, unwound] using kept

theorem Sound.push (sound : Sound h) (orderly : Orderly tid h act) (proper : Proper tid h act)
    (answers : tape.Answers act h.state res state) : Sound (h.push tid act res state) where
  moved runId row found unwound := sound.moved_push proper answers found unwound
  eligible holder pk holds := by
    by_cases own : tid = holder
    · subst own
      rw [inHand_push_self] at holds
      cases holdsAfter_cases holds with
      | inl held => exact eligible_push (sound.eligible tid pk held) (stays_of_inHand held orderly.keeps) answers
      | inr won =>
        have may := orderly.claims
        rw [mayClaim, wouldWin_of_wins answers won, Option.all_some, Bool.and_eq_true, Bool.or_eq_true] at may
        -- the claim itself leaves the runs alone
        obtain ⟨claimer, leaseExp, now, rfl⟩ := claim_of_wins won
        exact eligible_push may.1 (fun s isRun => by cases isRun) answers
    · rw [inHand_push_ne own] at holds
      exact eligible_push (sound.eligible holder pk holds) (stays_of_inHand holds orderly.keeps) answers
  invoked pk invoked := by
    rw [Hist.push_log, started, List.any_cons, Bool.or_eq_true] at invoked
    cases invoked with
    | inr earlier => exact claimed_push (sound.invoked pk earlier)
    | inl now =>
      refine claimed_push ?_
      unfold invokes at now
      split at now
      -- an inverse that is invoked was in hand, hence claimed
      next _ ob isInverse =>
        cases isInverse
        simp only [Option.some.injEq, decide_eq_true_eq] at now
        have held : inHand tid h.log = some pk := Eq.trans proper (congrArg some now)
        exact (mem_of_inHand held).2
      next => cases now
  passed runId seq later before after := by
    rw [Hist.push_log, claimed, List.any_cons, Bool.or_eq_true, decide_eq_true_eq] at before
    cases before with
    | inl won => exact passed_of_wins orderly answers won after
    | inr earlier =>
      refine (sound.passed runId seq later earlier after).push proper ?_ answers
      rw [← Bool.not_eq_true]
      intro registered
      obtain ⟨row, rfl, same⟩ := insert_of_registers registered
      -- an obligation of the run was claimed, so none is registered any more
      obtain ⟨event, member, isWin⟩ := List.any_eq_true.mp earlier
      have barred := List.all_eq_true.mp orderly.registers event member
      simp only [decide_eq_true_eq] at isWin
      simp [isWin, (Prod.mk.inj same).1] at barred

end Sound

end Tape.Compensation
