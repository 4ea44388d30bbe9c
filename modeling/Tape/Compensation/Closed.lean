import Tape.Compensation.Obligation

/-! # Closed obligations

`COMPENSATED` and `STUCK` are the two final statuses of an obligation.
`claim_obligation` asks in its `WHERE` clause whether the obligation is still open;
`record_obligation_attempt` and `resolve_obligation` address the row by its key alone, so a
drainer that reports after its lease ran out writes over whatever became of the
obligation in the meantime.
-/

namespace Tape.Compensation

open Interleave

/-! ## The statements -/

/-- `act` records no attempt on a closed obligation, and resolves none of them differently. -/
def respectsClosed (w : World) : Act → Bool
  | .sql (.obligation (.recordAttempt runId seq ..)) =>
    (w.obligations.find? (runId, seq)).all fun row => !isClosed row.status
  | .sql (.obligation (.resolve runId seq status ..)) =>
    (w.obligations.find? (runId, seq)).all fun row => !isClosed row.status || row.status = status
  | _ => true

/-- An obligation that is closed in `w` is there in `w'`, with the same status. -/
def KeepsClosed (pk : String × Int) (w w' : World) : Prop :=
  ∀ row, w.obligations.find? pk = some row → isClosed row.status →
    ∃ row', w'.obligations.find? pk = some row' ∧ row'.status = row.status

theorem KeepsClosed.refl (pk : String × Int) (w : World) : KeepsClosed pk w w :=
  fun row found _ => ⟨row, found, rfl⟩

theorem KeepsClosed.trans {pk : String × Int} {w₁ w₂ w₃ : World} (first : KeepsClosed pk w₁ w₂)
    (second : KeepsClosed pk w₂ w₃) : KeepsClosed pk w₁ w₃ := by
  intro row found closed
  obtain ⟨row', found', status⟩ := first row found closed
  obtain ⟨row'', found'', status'⟩ := second row' found' (by rw [status]; exact closed)
  exact ⟨row'', found'', status'.trans status⟩

theorem keepsClosed_of_answers {act : Act} {w w' : World} {res : act.Res} (pk : String × Int)
    (respects : respectsClosed w act) (answers : tape.Answers act w res w') : KeepsClosed pk w w' := by
  intro row found closed
  have key := Sql.Table.key_of_find? found
  obtain kept | ⟨s, rfl, -, -, found'⟩ := obligation_of_answers answers found
  · exact ⟨row, kept, rfl⟩
  refine ⟨_, found', ?_⟩
  rw [ObligationStmt.apply]
  split
  next selected =>
    cases s with
    | claimObligation runId seq claimer leaseExp now =>
      simp [ObligationStmt.selects, not_claimable_of_closed closed] at selected
    | recordAttempt runId seq =>
      -- the condition found the row open
      have own : pk = (runId, seq) := key.symm.trans (of_decide_eq_true selected)
      rw [own] at found
      simp [respectsClosed, found, closed] at respects
    | resolve runId seq status =>
      have own : pk = (runId, seq) := key.symm.trans (of_decide_eq_true selected)
      rw [own] at found
      simp only [respectsClosed, found, Option.all_some, closed, Bool.not_true, Bool.false_or,
        decide_eq_true_eq] at respects
      exact respects.symm
    | _ => cases selected
  next => rfl

/-! ## Counting attempts -/

/-- The attempts stay within their bound, and an open obligation has one left. -/
def Bounded (row : ObligationRecord) : Prop :=
  row.attempts ≤ row.maxAttempts ∧ (isClosed row.status = false → row.attempts < row.maxAttempts)

instance (row : ObligationRecord) : Decidable (Bounded row) := inferInstanceAs (Decidable (_ ∧ (_ → _)))

/-- The obligation the event read. -/
def readRow : TapeEvent → Option ObligationRecord
  | ⟨_, .sql (.obligation (.getObligation ..)), .ok found⟩ => found
  | _ => none

theorem get_of_readRow {tid : Nat} {act : Act} {res : act.Res} {existing : ObligationRecord}
    (isRead : readRow ⟨tid, act, res⟩ = some existing) :
    ∃ runId seq, ∃ isGet : act = .obligation (.getObligation runId seq), isGet ▸ res = .ok (some existing) := by
  cases act with
  | sql s =>
    cases s with
    | obligation s =>
      cases s with
      | getObligation runId seq =>
        cases res with
        | error e => cases isRead
        | ok found => exact ⟨runId, seq, rfl, congrArg Except.ok isRead⟩
      | _ => cases isRead
    | _ => cases isRead
  | _ => cases isRead

/-- What the four methods ask of themselves before `act`: an attempt is counted from a row the thread
    has read, and leaves the obligation open only while there is another one left. -/
def Counted (_ : Nat) (_ : Call) (h : TapeHist) : Act → Prop
  | .sql (.obligation (.insertObligation row)) => Bounded row
  | .sql (.obligation (.recordAttempt runId seq status attempts ..)) =>
    ∃ event ∈ h.log, ∃ existing, readRow event = some existing ∧ existing.pk = (runId, seq) ∧
      attempts = existing.attempts + 1 ∧ (isClosed status = false → attempts < existing.maxAttempts)
  | .sql (.obligation (.resolve _ _ status ..)) => isClosed status
  | _ => True

/-- Every obligation is within its bound, and so was every one that was read. -/
structure Counts (h : TapeHist) : Prop where
  bounded : ∀ pk row, h.state.obligations.find? pk = some row → Bounded row
  read : ∀ event ∈ h.log, ∀ existing, readRow event = some existing → Bounded existing ∧
    ∃ row, h.state.obligations.find? existing.pk = some row ∧ row.maxAttempts = existing.maxAttempts ∧
      (isClosed existing.status → isClosed row.status)

section Steps

variable {h : TapeHist} {tid : Nat} {call : Call} {act : Act} {res : act.Res} {state : World}

theorem maxAttempts_apply (s : ObligationStmt) (row : ObligationRecord) :
    (s.apply row).maxAttempts = row.maxAttempts := by
  unfold ObligationStmt.apply
  split
  · cases s <;> rfl
  · rfl

/-- A statement that the methods issue leaves a bounded row bounded. -/
theorem bounded_apply {s : ObligationStmt} {row : ObligationRecord} {pk : String × Int} (counts : Counts h)
    (counted : Counted tid call h (.obligation s)) (respects : respectsClosed h.state (.obligation s))
    (found : h.state.obligations.find? pk = some row) : Bounded (s.apply row) := by
  have bounded := counts.bounded pk row found
  have key := Sql.Table.key_of_find? found
  rw [ObligationStmt.apply]
  split
  next selected =>
    cases s with
    | claimObligation runId seq claimer leaseExp now =>
      simp only [ObligationStmt.selects, Bool.and_eq_true] at selected
      have isOpen : isClosed row.status = false := by
        by_contra closed
        rw [not_claimable_of_closed (Bool.not_eq_false _ ▸ closed)] at selected
        cases selected.2
      exact ⟨bounded.1, fun _ => bounded.2 isOpen⟩
    | recordAttempt runId seq status attempts =>
      have own : pk = (runId, seq) := key.symm.trans (of_decide_eq_true selected)
      rw [own] at found
      simp only [respectsClosed, found, Option.all_some, Bool.not_eq_true'] at respects
      obtain ⟨event, member, existing, isRead, same, rfl, left⟩ := counted
      obtain ⟨within, row', found', bound, stays⟩ := counts.read event member existing isRead
      rw [same, found, Option.some.injEq] at found'
      subst found'
      -- open now, so it was open when the thread read it
      have wasOpen : isClosed existing.status = false := by
        by_contra closed
        rw [stays (Bool.not_eq_false _ ▸ closed)] at respects
        cases respects
      have room := within.2 wasOpen
      refine ⟨?_, fun isOpen => ?_⟩
      · simp only [ObligationStmt.assign, bound]
        omega
      · simp only [ObligationStmt.assign, bound]
        exact left isOpen
    | resolve runId seq status =>
      refine ⟨bounded.1, fun isOpen => ?_⟩
      have closed : isClosed status := counted
      rw [show isClosed status = false from isOpen] at closed
      cases closed
    | _ => cases selected
  next => exact bounded

theorem Counts.push (counts : Counts h) (answers : tape.Answers act h.state res state)
    (respects : respectsClosed h.state act) (counted : Counted tid call h act) : Counts (h.push tid act res state) := by
  have bounded : ∀ pk row, state.obligations.find? pk = some row → Bounded row := by
    intro pk row' found'
    cases found : h.state.obligations.find? pk with
    | none =>
      obtain ⟨rfl, -⟩ := obligation_inserted_of_answers answers found found'
      exact counted
    | some row =>
      obtain kept | ⟨s, rfl, -, -, changed⟩ := obligation_of_answers answers found
      · rw [kept, Option.some.injEq] at found'
        exact found' ▸ counts.bounded pk row found
      · rw [changed, Option.some.injEq] at found'
        exact found' ▸ bounded_apply counts counted respects found
  refine ⟨bounded, fun event member existing isRead => ?_⟩
  rcases List.mem_cons.mp member with rfl | member
  · -- what is read now is what is there
    obtain ⟨runId, seq, rfl, rfl⟩ := get_of_readRow isRead
    obtain ⟨read, rfl⟩ := exec_of_ok answers
    have there : h.state.obligations.find? (runId, seq) = some existing := (Except.ok.inj read).symm
    have key := Sql.Table.key_of_find? there
    exact ⟨counts.bounded _ _ there, existing, by rw [key]; exact there, rfl, fun closed => closed⟩
  · obtain ⟨within, row, found, bound, stays⟩ := counts.read event member existing isRead
    refine ⟨within, ?_⟩
    obtain kept | ⟨s, rfl, -, -, changed⟩ := obligation_of_answers answers found
    · exact ⟨row, kept, bound, stays⟩
    · refine ⟨_, changed, (maxAttempts_apply s row).trans bound, fun closed => ?_⟩
      obtain ⟨row', found', status⟩ := keepsClosed_of_answers _ respects answers row found (stays closed)
      rw [changed, Option.some.injEq] at found'
      rw [found', status]
      exact stays closed

end Steps

/-! ## The methods -/

/-- The methods that register, claim, retry and resolve obligations. -/
def isObligationCall : Call → Bool
  | .registerCompensation .. | .claimObligation .. | .recordObligationAttempt .. | .resolveObligation .. => true
  | _ => false

def closedOk (_ : Nat) (_ : Call) (h : TapeHist) (act : Act) : Prop := respectsClosed h.state act

/-- A `claim_obligation` that returned `acquired = true` has won its claim. -/
def claimPost (tid : Nat) (call : Call) (out : call.Out) (h : TapeHist) : Prop :=
  match call, out with
  | .claimObligation runId seq .., .ok (true, _) =>
    ∃ event ∈ h.log, event.tid = tid ∧ wins event = some (runId, seq)
  | _, _ => True

section Safety

variable {tid : Nat} {call : Call}

theorem counted_of_housekeeping (act : Act) (housekeeping : Housekeeping act) (h : TapeHist) :
    Counted tid call h act := by
  cases housekeeping <;> trivial

theorem bounded_freshObligation (runId effectKey kind : String) (payload : Json) (compensatorRef : String)
    (maxAttempts seq ts : Int) :
    Bounded (RunStore.freshObligation runId effectKey kind payload compensatorRef maxAttempts seq ts) := by
  simp only [Bounded, RunStore.freshObligation, RunStore.defaultMaxAttempts]
  split <;> omega

theorem counted_registerCompensation {runId effectKey kind : String} {payload : Json} {compensatorRef : String}
    {maxAttempts ts : Int} :
    Prog.All (fun act => ∀ h, Counted tid call h act)
      (RunStore.registerCompensation runId effectKey kind payload compensatorRef maxAttempts ts).run := by
  refine .exceptBind (all_query fun _ => trivial) fun found => ?_
  cases found with
  | some recorded => trivial
  | none =>
    refine .exceptBind (all_nextSeq counted_of_housekeeping runId) fun seq => ?_
    refine .exceptBind (all_query fun _ => bounded_freshObligation ..) fun _ => ?_
    exact .exceptBind (all_journal counted_of_housekeeping _ _ _ _ _ (by constructor)) fun _ => trivial

theorem counted_resolveObligation {runId : String} {seq status : Int} {resultJson : String} {ts : Int} :
    Prog.All (fun act => ∀ h, Counted tid call h act)
      (RunStore.resolveObligation runId seq status resultJson ts).run := by
  refine .exceptBind (all_query fun _ => trivial) fun found => ?_
  cases found with
  | none => trivial
  | some existing =>
    refine .exceptBind (all_query fun _ => ?_) fun _ => all_journaled counted_of_housekeeping
      (all_query fun _ => trivial) fun _ => by constructor
    -- whatever status was asked for, one of the two final ones is written
    show isClosed _
    split
    next final => exact final
    next => rfl

theorem safe_recordAttempt {runId : String} {seq : Int} {error : String} {nextAttemptAtMs ts : Int} {h : TapeHist} :
    tape.Safe (tape.tracked closedOk Counted tid call) tid (fun _ _ => True)
      (RunStore.recordObligationAttempt runId seq error nextAttemptAtMs ts).run h := by
  refine safe_query (fun _ _ => trivial) fun h₁ res₁ state₁ _ permitted₁ answers₁ => ?_
  refine ⟨⟨_, res₁, state₁, rfl, answers₁, permitted₁, trivial⟩, fun found isOk₁ => ?_⟩
  subst isOk₁
  cases found with
  | none => exact fun _ _ => trivial
  | some existing =>
    have key : existing.pk = (runId, seq) := Sql.Table.key_of_find? (Except.ok.inj (exec_of_ok answers₁).1).symm
    refine safe_query (fun _ _ => trivial) fun h₂ res₂ state₂ foreign₂ permitted₂ answers₂ => ?_
    -- the attempt is counted from the row that was read
    refine ⟨⟨_, res₂, state₂, rfl, answers₂, permitted₂,
      ⟨_, foreign₂.mem List.mem_cons_self, existing, rfl, key, rfl, fun isOpen => ?_⟩⟩, fun _ _ => ?_⟩
    · split at isOpen
      next => cases isOpen
      next retries =>
        simp only [Bool.or_eq_true, decide_eq_true_eq, not_or, not_le] at retries
        exact retries.2
    · exact System.Safe.of_all_proper (fun _ _ => trivial)
        (all_journaled counted_of_housekeeping (all_query fun _ => trivial) fun _ => by constructor) _

end Safety

theorem closed_compose :
    System.Compose tape (fun call => isObligationCall call) (tape.tracked closedOk Counted) claimPost := by
  refine System.tracked_compose fun {tid call h} admitted _ => ?_
  cases call with
  | registerCompensation => exact System.Safe.of_all_proper (fun _ _ => trivial) counted_registerCompensation h
  | claimObligation runId seq =>
    refine (safe_claim_returns (fun _ => trivial) (fun _ => trivial) counted_of_housekeeping).mono ?_
    intro result h returned
    match result with
    | .ok (true, row) =>
      obtain ⟨updated, member, won⟩ := returned true row rfl
      exact ⟨_, member, rfl, by simp [wins, ← won]⟩
    | .ok (false, _) => trivial
    | .error _ => trivial
  | recordObligationAttempt => exact safe_recordAttempt.mono fun _ _ _ => trivial
  | resolveObligation => exact System.Safe.of_all_proper (fun _ _ => trivial) counted_resolveObligation h
  | _ => cases admitted

/-! ## Runs -/

/-- What has become of an obligation since `base`. -/
def ClosedSince (pk : String × Int) (base h : TapeHist) : Prop :=
  ∃ new, h.log = new ++ base.log ∧ KeepsClosed pk base.state h.state ∧
    ∀ row, base.state.obligations.find? pk = some row → isClosed row.status →
      ∀ event ∈ new, wins event ≠ some pk

theorem ClosedSince.push {pk : String × Int} {base h : TapeHist} {tid : Nat} {act : Act} {res : act.Res}
    {state : World} (since : ClosedSince pk base h) (answers : tape.Answers act h.state res state)
    (respects : respectsClosed h.state act) : ClosedSince pk base (h.push tid act res state) := by
  obtain ⟨new, grown, keeps, unclaimed⟩ := since
  refine ⟨⟨tid, act, res⟩ :: new, by simp [grown], keeps.trans (keepsClosed_of_answers pk respects answers), ?_⟩
  intro row found closed event member
  rcases List.mem_cons.mp member with rfl | member
  · -- a claim is won on an open obligation only
    intro won
    obtain ⟨row', found', status⟩ := keeps row found closed
    obtain ⟨-, -, now, current, -, there, claimable⟩ := claimable_of_wins answers won
    rw [found', Option.some.injEq] at there
    subst there
    rw [not_claimable_of_closed (by rw [status]; exact closed)] at claimable
    cases claimable
  · exact unclaimed row found closed event member

/-- **Closed obligations stay closed.**  Along every interleaving of the four methods whose acts
    respect closed obligations, from any database whose obligations are within their bounds: the
    attempts on an obligation never exceed its `max_attempts`; and an obligation that is
    `COMPENSATED` or `STUCK` keeps that status, and no claim on it that is made from then on
    returns `acquired = true`. -/
theorem closed_obligation_stays_closed (w : World) (before after : List (Choice Call))
    (bounded : ∀ row ∈ w.obligations.rows, Bounded row)
    (respects : tape.Along (System.Permits (fun call => isObligationCall call)
      fun _ _ h act => respectsClosed h.state act) (quiet w) (before ++ after)) :
    (∀ row ∈ (tape.run (quiet w) (before ++ after)).state.obligations.rows, row.attempts ≤ row.maxAttempts) ∧
    ∀ runId seq row, (tape.run (quiet w) before).state.obligations.find? (runId, seq) = some row →
      isClosed row.status →
      (∃ row', (tape.run (quiet w) (before ++ after)).state.obligations.find? (runId, seq) = some row' ∧
        row'.status = row.status) ∧
      ∀ tid, (tape.run (quiet w) before).pool.length ≤ tid →
        ∀ claimer leaseTtlMs nowMs clock current,
          (tape.run (quiet w) (before ++ after)).pool[tid]? ≠
            some ⟨.claimObligation runId seq claimer leaseTtlMs nowMs clock, .ret (.ok (true, current))⟩ := by
  have owned := quiet_owned w
  obtain ⟨first, second⟩ := System.Along.append.mp respects
  have safe₁ := System.run_safe closed_compose owned (System.poolSafe_of_empty rfl) first
  have safe := System.run_safe closed_compose owned (System.poolSafe_of_empty rfl) respects
  have counts : Counts (tape.run (quiet w) (before ++ after)).toHist := by
    refine System.run_tracked closed_compose ?_ owned (System.poolSafe_of_empty rfl) ⟨?_, by simp⟩ respects
    · exact fun tid call h act res state _ answers permitted counted counts => counts.push answers permitted counted
    · exact fun pk row found => bounded row (Sql.Table.mem_of_find? found)
  refine ⟨fun row member => (counts.bounded _ row (Sql.Table.find?_key_of_mem member)).1, ?_⟩
  intro runId seq row found closed
  -- from `before` on, the history grows by acts that respect what is closed
  have since : ClosedSince (runId, seq) (tape.run (quiet w) before).toHist
      (tape.run (quiet w) (before ++ after)).toHist := by
    rw [System.run_append]
    refine System.run_tracked closed_compose ?_ (owned.run _) safe₁ ⟨[], rfl, .refl _ _, by simp⟩ second
    exact fun tid call h act res state _ answers permitted _ since => since.push answers permitted
  obtain ⟨new, grown, keeps, unclaimed⟩ := since
  refine ⟨keeps row found closed, ?_⟩
  intro tid later claimer leaseTtlMs nowMs clock current returned
  -- a thread that was not there before has its claim among the new events
  obtain ⟨event, member, own, won⟩ := safe.returned returned
  rw [grown] at member
  rcases List.mem_append.mp member with member | member
  · exact unclaimed row found closed event member won
  · have bound := owned.run before event member
    omega

/-! ## A drainer that reports late -/

/-- Drainer `A` claims the obligation at 1000 for a minute and stalls; `B` claims it at 61000 and
    records that the inverse ran. -/
def compensatedByB : List (Choice Call) :=
  serve 0 (.claimObligation "r" 2 "A" 60000 1000 1000) ++
    serve 1 (.claimObligation "r" 2 "B" 60000 61000 61000) ++
    serve 2 (.resolveObligation "r" 2 ObligationStatus.compensated.code "" 62000)

def reportedLate : List (Choice Call) :=
  serve 3 (.recordObligationAttempt "r" 2 "timed out" 63000 62500)

def claimedByC (tid : Nat) : List (Choice Call) := serve tid (.claimObligation "r" 2 "C" 60000 64000 64000)

def refundStatus (choices : List (Choice Call)) : Option Int :=
  ((tape.run (quiet refundWorld) choices).state.obligations.find? ("r", 2)).map ObligationRecord.status

/-- Thread `tid` is a claim that returned `acquired = true`. -/
def returnedAcquired (c : TapeConfig) (tid : Nat) : Bool :=
  match c.pool[tid]? with
  | some ⟨.claimObligation .., .ret (.ok (true, _))⟩ => true
  | _ => false

/-- `A` reports a failed attempt after `B` has compensated: the obligation is open again, and a third
    drainer gets it. -/
theorem compensated_obligation_reopened :
    refundStatus compensatedByB = some ObligationStatus.compensated.code ∧
      refundStatus (compensatedByB ++ reportedLate) = some ObligationStatus.pending.code ∧
      returnedAcquired (tape.run (quiet refundWorld) (compensatedByB ++ reportedLate ++ claimedByC 4)) 4 := by
  refine ⟨?_, ?_, ?_⟩ <;> decide +kernel

/-- Without the late report the third drainer is turned away. -/
theorem compensated_obligation_closed :
    refundStatus (compensatedByB ++ claimedByC 3) = some ObligationStatus.compensated.code ∧
      ∀ current, (tape.run (quiet refundWorld) (compensatedByB ++ claimedByC 3)).pool[3]? ≠
        some ⟨.claimObligation "r" 2 "C" 60000 64000 64000, .ret (.ok (true, current))⟩ := by
  have closed : refundStatus compensatedByB = some ObligationStatus.compensated.code := by decide +kernel
  obtain ⟨row, found, status⟩ := Option.map_eq_some_iff.mp closed
  obtain ⟨kept, turnedAway⟩ := (closed_obligation_stays_closed refundWorld compensatedByB (claimedByC 3)
    (by decide +kernel) (by decide +kernel)).2 "r" 2 row found (by rw [status]; rfl)
  obtain ⟨row', found', status'⟩ := kept
  refine ⟨?_, fun current => turnedAway 3 (by decide +kernel) "C" 60000 64000 64000 current⟩
  rw [refundStatus, found', Option.map_some, status', status]

end Tape.Compensation
