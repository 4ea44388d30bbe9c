import Tape.Compensation.Obligation
import Tape.Interleave.Spawned

/-! # The verdict of `compensate_run`

`compensate_run` decides how it ends a run by what it went through itself: the obligations it marked
`STUCK`, and the `PENDING` ones of its last listing.  What other drainers hold, have marked or have put
back does not come in.  The verdict is true where they keep out of its way: what it has marked is then
what is `STUCK`, and what its last listing did not have is not `PENDING`.
-/

namespace Tape.Compensation.Verdict

open Interleave Sdk

def isStuck (row : ObligationRecord) : Bool := row.status = ObligationStatus.stuck.code

def isPending (row : ObligationRecord) : Bool := row.status = ObligationStatus.pending.code

def isCompensated (row : ObligationRecord) : Bool := row.status = ObligationStatus.compensated.code

def obligationsOf (runId : String) (w : World) : List ObligationRecord := w.obligations.rows.filter fun row => row.runId = runId

/-- The three cases of the documentation. -/
def Truthful (runId : String) (status : Int) (w : World) : Prop :=
  (status = RunStatus.failed.code → ∀ row ∈ obligationsOf runId w, isCompensated row) ∧
    (status = RunStatus.stuck.code ↔ ∃ row ∈ obligationsOf runId w, isStuck row) ∧
    (status ≠ RunStatus.failed.code → status ≠ RunStatus.stuck.code → status = RunStatus.compensating.code)

instance (runId : String) (status : Int) (w : World) : Decidable (Truthful runId status w) :=
  inferInstanceAs (Decidable ((_ → ∀ _ ∈ _, _) ∧ (_ ↔ ∃ _ ∈ _, _) ∧ _))

/-! ## Keeping out of the way -/

/-- `COMMITTED`: a drainer has claimed the obligation and not closed it. -/
def isHeld (row : ObligationRecord) : Bool := !(isPending row || isCompensated row || isStuck row)

/-- The thread itself has marked the obligation `STUCK`. -/
def marked (tid : Nat) (pk : String × Int) (log : List TapeEvent) : Bool :=
  log.any fun event => event.tid = tid && writes event = some (pk, ObligationStatus.stuck.code)

/-- The event marks an obligation of the run `STUCK`, or changes one that thread `tid` has marked. -/
def disturbs (tid : Nat) (runId : String) (event : TapeEvent) (older : List TapeEvent) : Bool :=
  (writes event).any fun change =>
    change.1.1 = runId && (change.2 = ObligationStatus.stuck.code || marked tid change.1 older)

/-- Since the thread's first event, no other thread has disturbed it. -/
def undisturbed (tid : Nat) (runId : String) (log : List TapeEvent) : Bool := calmFromFirst tid (disturbs tid runId) log

def lists : TapeEvent → Bool
  | ⟨_, .sql (.obligation (.listObligations ..)), .ok _⟩ => true
  | _ => false

/-- The event registers an obligation of the run, or puts one back. -/
def opens (runId : String) (event : TapeEvent) : Bool :=
  (writes event).any fun change => change.1.1 = runId && change.2 = ObligationStatus.pending.code

/-- The thread is about to end its run for good: it has listed what is left. -/
def endsRun (tid : Nat) (call : Call) (h : TapeHist) : Act → Option (String × Int)
  | .sql (.run (.endRun runId status ..)) =>
    match call with
    | .compensateRun _ => if h.log.any (fun event => event.tid = tid && lists event) then some (runId, status) else none
    | _ => none
  | _ => none

/-- A verdict is true when it is executed. -/
def truthful (tid : Nat) (call : Call) (h : TapeHist) (act : Act) : Prop :=
  ∀ ending ∈ endsRun tid call h act, Truthful ending.1 ending.2 h.state

instance (tid : Nat) (call : Call) (h : TapeHist) (act : Act) : Decidable (truthful tid call h act) :=
  inferInstanceAs (Decidable (∀ _ ∈ endsRun tid call h act, _))

/-- A `compensate_run` that is about to begin finds no obligation of its run `STUCK`. -/
def startsClean (tid : Nat) (call : Call) (h : TapeHist) : Bool :=
  match call with
  | .compensateRun job => (lastOwn tid h.log).isSome || (obligationsOf job.runId h.state).all fun row => !isStuck row
  | _ => true

/-- The others have kept out of the way of a `compensate_run` that is about to end its run: since it began none of
    them has marked an obligation of the run `STUCK`, or changed one that it has marked; since its last listing none
    has registered or put back one; and none holds one by now, unless the run has something `PENDING` or `STUCK`. -/
structure EndsAlone (tid : Nat) (runId : String) (h : TapeHist) : Prop where
  undisturbed : undisturbed tid runId h.log
  unopened : (since tid lists h.log).all fun event => !opens runId event
  released : (∀ row ∈ obligationsOf runId h.state, !isHeld row) ∨
    ∃ row ∈ obligationsOf runId h.state, isPending row || isStuck row

instance (tid : Nat) (runId : String) (h : TapeHist) : Decidable (EndsAlone tid runId h) :=
  decidable_of_iff (_ ∧ _ ∧ _) ⟨fun all => ⟨all.1, all.2.1, all.2.2⟩, fun alone => ⟨alone.1, alone.2, alone.3⟩⟩

/-- `act`, about to be executed, does not make a `compensate_run` begin or end its run in the midst of others' work. -/
structure Uninterrupted (tid : Nat) (call : Call) (h : TapeHist) (act : Act) : Prop where
  starts : startsClean tid call h
  ends : ∀ ending ∈ endsRun tid call h act, EndsAlone tid ending.1 h

instance (tid : Nat) (call : Call) (h : TapeHist) (act : Act) : Decidable (Uninterrupted tid call h act) :=
  decidable_of_iff (startsClean tid call h ∧ ∀ ending ∈ endsRun tid call h act, EndsAlone tid ending.1 h)
    ⟨fun both => ⟨both.1, both.2⟩, fun alone => ⟨alone.1, alone.2⟩⟩

/-! ## What a drainer went through -/

/-- What a thread has come to know of the obligations it worked on. -/
structure Findings where
  /-- Its claim was won, and nothing is recorded of it yet. -/
  held : Option (String × Int) := none
  /-- An attempt was recorded, and its row is still to be read back. -/
  attempted : Option (String × Int) := none
  /-- An obligation was marked `STUCK`, or read back as such after a failed attempt. -/
  stuck : Bool := false
  /-- Whether the last listing had a `PENDING` obligation. -/
  leftover : Option Bool := none

namespace Findings

def attempt (f : Findings) (pk : String × Int) : Findings := { f with held := none, attempted := some pk }

def readBack (f : Findings) (pk : String × Int) (row : Option ObligationRecord) : Findings :=
  if f.attempted = some pk then { f with attempted := none, stuck := f.stuck || row.any isStuck } else f

def resolve (f : Findings) (status : Int) : Findings :=
  { f with held := none, stuck := f.stuck || status = ObligationStatus.stuck.code }

def list (f : Findings) (rows : List ObligationRecord) : Findings := { f with leftover := some (rows.any isPending) }

def next (f : Findings) (event : TapeEvent) : Findings :=
  match event with
  | ⟨_, .sql (.obligation (.claimObligation ..)), _⟩ => { f with held := wins event }
  | ⟨_, .sql (.obligation (.recordAttempt runId seq ..)), .ok _⟩ => f.attempt (runId, seq)
  | ⟨_, .sql (.obligation (.getObligation runId seq)), .ok row⟩ => f.readBack (runId, seq) row
  | ⟨_, .sql (.obligation (.resolve _ _ status ..)), .ok _⟩ => f.resolve status
  | ⟨_, .sql (.obligation (.listObligations ..)), .ok rows⟩ => f.list rows
  | _ => f

/-- How `compensate_run` ends the run. -/
def verdict (f : Findings) : RunStatus :=
  if f.stuck then .stuck else if f.leftover = some true then .compensating else .failed

end Findings

def findings (tid : Nat) (log : List TapeEvent) : Findings := ownFold tid Findings.next {} log

/-- What `compensate_run` asks of itself before `act`: it claims obligations of its own run, and records what came of
    the one that it holds. -/
def Drains (tid : Nat) (runId : String) (h : TapeHist) : Act → Prop
  | .sql (.obligation (.insertObligation _)) => False
  | .sql (.obligation (.claimObligation r ..)) => r = runId
  | .sql (.obligation (.recordAttempt r seq ..)) | .sql (.obligation (.resolve r seq ..)) =>
    (findings tid h.log).held = some (r, seq) ∧ (findings tid h.log).attempted = none
  | .sql (.obligation (.listObligations r onlyUnresolved statusFilter)) =>
    r = runId ∧ onlyUnresolved = true ∧ statusFilter = 0
  | .sql (.run (.endRun r ..)) => r = runId
  | _ => True

/-- A `compensate_run` drains its run, and ends it with the verdict of its findings. -/
def Judges (tid : Nat) (call : Call) (h : TapeHist) (act : Act) : Prop :=
  match call with
  | .compensateRun job => Drains tid job.runId h act ∧ ∀ ending ∈ endsRun tid call h act,
    ending.2 = (findings tid h.log).verdict.code ∧ (findings tid h.log).attempted = none
  | _ => True

theorem findings_push_self (h : TapeHist) (tid : Nat) (act : Act) (res : act.Res) (state : World) :
    findings tid (h.push tid act res state).log = (findings tid h.log).next ⟨tid, act, res⟩ := ownFold_cons_self rfl

theorem findings_push_ne (h : TapeHist) {tid other : Nat} (act : Act) (res : act.Res) (state : World) (ne : other ≠ tid) :
    findings tid (h.push other act res state).log = findings tid h.log := ownFold_cons_ne ne

theorem leftover_next (f : Findings) {event : TapeEvent} (other : lists event = false) :
    (f.next event).leftover = f.leftover := by
  unfold Findings.next
  split
  next => rfl
  next => rfl
  next =>
    unfold Findings.readBack
    split <;> rfl
  next => rfl
  next => cases other
  next => rfl

theorem leftover_next_of_lists (f : Findings) {event : TapeEvent} (isListing : lists event) :
    (f.next event).leftover.isSome := by
  unfold lists at isListing
  split at isListing
  next => rfl
  next => cases isListing

/-- A thread has listed exactly if it knows what was left. -/
theorem leftover_iff (tid : Nat) (log : List TapeEvent) :
    (findings tid log).leftover.isSome = log.any fun event => event.tid = tid && lists event := by
  induction log with
  | nil => rfl
  | cons event log inductionHypothesis =>
    rw [List.any_cons, ← inductionHypothesis]
    by_cases own : event.tid = tid
    · have step : findings tid (event :: log) = (findings tid log).next event := ownFold_cons_self own
      rw [step]
      cases isListing : lists event with
      | true => simp [leftover_next_of_lists, isListing, own]
      | false => simp [leftover_next, isListing]
    · have step : findings tid (event :: log) = findings tid log := ownFold_cons_ne own
      simp [step, own]

/-! ## The drain -/

section Safety

variable {tid : Nat} {f : Findings} {h : TapeHist} {job : CompensateRunJob}

theorem findings_of_foreign {h' : TapeHist} (foreign : Foreign tid h h') : findings tid h'.log = findings tid h.log :=
  foreign.ownFold_eq

/-- Whatever it is answered, the act says nothing new to a thread with these findings, and works on no obligation. -/
structure Silent (f : Findings) (act : Act) : Prop where
  same : ∀ tid res, f.next ⟨tid, act, res⟩ = f
  endsNone : ∀ tid call h, endsRun tid call h act = none
  drains : ∀ tid runId h, Drains tid runId h act

theorem silent_of_housekeeping (f : Findings) (act : Act) (housekeeping : Housekeeping act) : Silent f act := by
  cases housekeeping <;> exact ⟨fun _ _ => rfl, fun _ _ _ => rfl, fun _ _ _ => trivial⟩

abbrev verdictContract : Nat → Call → Contract World Act Act.Res := tape.tracked (fun _ _ _ _ => True) Judges

theorem judges_of_drains {act : Act} (drains : Drains tid job.runId h act)
    (endsNone : endsRun tid (.compensateRun job) h act = none) : Judges tid (.compensateRun job) h act := by
  refine ⟨drains, fun ending isEnding => ?_⟩
  rw [endsNone] at isEnding
  cases isEnding

theorem judges_of_silent {act : Act} (silent : Silent f act) (h : TapeHist) : Judges tid (.compensateRun job) h act :=
  judges_of_drains (silent.drains tid job.runId h) (silent.endsNone tid _ h)

theorem safe_silent {α : Type} {program : Prog Act Act.Res α} (all : program.All (Silent f))
    (known : findings tid h.log = f) :
    tape.Safe (verdictContract tid (.compensateRun job)) tid (fun _ h => findings tid h.log = f) program h := by
  refine System.Safe.of_all_knowing (K := verdictContract tid (.compensateRun job)) (fun h => findings tid h.log = f)
    (fun foreign known => (findings_of_foreign foreign).trans known) ?_ (fun _ _ known => known) all known
  intro h act res state silent _ known answers
  refine ⟨⟨act, res, state, rfl, answers, trivial, judges_of_silent silent h⟩, ?_⟩
  rw [findings_push_self, known, silent.same]

section Attempted

variable (attempted : f.attempted = none)

include attempted

theorem silent_getObligation (runId : String) (seq : Int) : Silent f (.obligation (.getObligation runId seq)) := by
  refine ⟨fun tid res => ?_, fun _ _ _ => rfl, fun _ _ _ => trivial⟩
  cases res with
  | error e => rfl
  | ok row =>
    refine if_neg ?_
    rw [attempted]
    exact (Option.some_ne_none _).symm

theorem findings_get {h h₁ : TapeHist} (known : findings tid h.log = f) (foreign : Foreign tid h h₁) (runId : String)
    (seq : Int) (res : Act.Res (.obligation (.getObligation runId seq))) (state : World) :
    findings tid (h₁.push tid (.obligation (.getObligation runId seq)) res state).log = f := by
  rw [findings_push_self, findings_of_foreign foreign, known, (silent_getObligation attempted runId seq).same]

/-- A claim that was won is known to be held. -/
theorem safe_claimObligation (seq : Int) (claimer : String) (leaseTtlMs nowMs clock : Int)
    (known : findings tid h.log = f) :
    tape.Safe (verdictContract tid (.compensateRun job)) tid (fun result h => ∀ acquired row, result = .ok (acquired, row) →
        ∃ held, findings tid h.log = { f with held } ∧ ∀ current, acquired = true → row = some current → held = some current.pk)
      (RunStore.claimObligation job.runId seq claimer leaseTtlMs nowMs clock).run h := by
  refine safe_query (fun _ _ _ _ returned => by cases returned) fun h₁ res₁ state₁ foreign₁ _ answers₁ => ?_
  refine ⟨⟨_, res₁, state₁, rfl, answers₁, trivial, judges_of_drains rfl rfl⟩, fun (updated : Nat) isOk₁ => ?_⟩
  have known₁ := findings_push_self h₁ tid (.obligation (.claimObligation job.runId seq claimer
    (addI64 (RunStore.claimTime nowMs clock) (RunStore.claimTtl leaseTtlMs)) (RunStore.claimTime nowMs clock))) res₁ state₁
  obtain ⟨g, isNext⟩ : ∃ g, f.next ⟨tid, .obligation (.claimObligation job.runId seq claimer
    (addI64 (RunStore.claimTime nowMs clock) (RunStore.claimTtl leaseTtlMs)) (RunStore.claimTime nowMs clock)), res₁⟩ = g :=
    ⟨_, rfl⟩
  rw [findings_of_foreign foreign₁, known, isNext] at known₁
  have attempted₁ : g.attempted = none := isNext ▸ attempted
  have isFound : g = { f with held := g.held } := by rw [← isNext]; rfl
  have holds : 0 < updated → g.held = some (job.runId, seq) := by
    intro positive
    rw [← isNext, isOk₁]
    exact if_pos (decide_eq_true positive)
  refine safe_query (fun _ _ _ _ returned => by cases returned) fun h₂ res₂ state₂ foreign₂ _ answers₂ => ?_
  refine ⟨⟨_, res₂, state₂, rfl, answers₂, trivial, judges_of_silent (silent_getObligation attempted₁ job.runId seq) h₂⟩,
    fun row isOk₂ => ?_⟩
  have known₂ := findings_get attempted₁ known₁ foreign₂ job.runId seq res₂ state₂
  subst isOk₂
  have read : h₂.state.obligations.find? (job.runId, seq) = row := (Except.ok.inj (exec_of_ok answers₂).1).symm
  simp only
  split
  next positive =>
    cases row with
    | none =>
      rintro h₃ foreign₃ acquired row ⟨⟩
      rw [findings_of_foreign foreign₃]
      exact ⟨g.held, known₂.trans isFound, fun _ _ absent => by cases absent⟩
    | some current =>
      have key : current.pk = (job.runId, seq) := Sql.Table.key_of_find? read
      refine System.Safe.exceptBind (fun _ _ _ _ returned => by cases returned)
        ((safe_silent (all_nextSeq (silent_of_housekeeping g) job.runId) known₂).mono fun _ h₃ known₃ _ _ => ?_)
      refine System.Safe.exceptBind (fun _ _ _ _ returned => by cases returned)
        ((safe_silent (all_journal (silent_of_housekeeping g) _ _ _ _ _ (by constructor)) known₃).mono fun _ h₄ known₄ _ _ => ?_)
      rintro h₅ foreign₅ acquired row ⟨⟩
      rw [findings_of_foreign foreign₅]
      refine ⟨g.held, known₄.trans isFound, fun ob _ isRow => ?_⟩
      rw [← Option.some.inj isRow, key]
      exact holds positive
  next =>
    rintro h₃ foreign₃ acquired row ⟨⟩
    rw [findings_of_foreign foreign₃]
    exact ⟨g.held, known₂.trans isFound, fun _ lost => by cases lost⟩

/-- A mark is known as soon as it is made. -/
theorem safe_resolveObligation {runId : String} {seq status : Int} {resultJson : String} {ts : Int}
    (closed : isClosed status) (held : f.held = some (runId, seq)) (known : findings tid h.log = f) :
    tape.Safe (verdictContract tid (.compensateRun job)) tid (fun result h => ∀ row, result = .ok (some row) →
      findings tid h.log = f.resolve status) (RunStore.resolveObligation runId seq status resultJson ts).run h := by
  refine safe_query (fun _ _ _ returned => by cases returned) fun h₁ res₁ state₁ foreign₁ _ answers₁ => ?_
  refine ⟨⟨_, res₁, state₁, rfl, answers₁, trivial, judges_of_silent (silent_getObligation attempted runId seq) h₁⟩,
    fun found _ => ?_⟩
  have known₁ := findings_get attempted known foreign₁ runId seq res₁ state₁
  cases found with
  | none => exact fun _ _ _ returned => by cases returned
  | some existing =>
    have target : (if status = ObligationStatus.compensated.code || status = ObligationStatus.stuck.code then status
        else ObligationStatus.compensated.code) = status := if_pos closed
    refine safe_query (fun _ _ _ returned => by cases returned) fun h₂ res₂ state₂ foreign₂ _ answers₂ => ?_
    have here : (findings tid h₂.log).held = some (runId, seq) ∧ (findings tid h₂.log).attempted = none := by
      rw [findings_of_foreign foreign₂, known₁]
      exact ⟨held, attempted⟩
    refine ⟨⟨_, res₂, state₂, rfl, answers₂, trivial, judges_of_drains here rfl⟩, fun updated isOk => ?_⟩
    have known₂ : findings tid (h₂.push tid _ res₂ state₂).log = f.resolve status := by
      rw [findings_push_self, isOk, findings_of_foreign foreign₂, known₁]
      exact congrArg f.resolve target
    refine System.Safe.mono (fun _ _ known _ _ => known) (safe_silent ?_ known₂)
    exact all_journaled (silent_of_housekeeping _)
      (all_query (silent_getObligation (f := f.resolve status) attempted _ _)) fun _ => by constructor

/-- After a failed attempt the row is read back, and may have been marked by then. -/
theorem safe_recordObligationAttempt {runId : String} {seq : Int} {error : String} {nextAttemptAtMs ts : Int}
    (held : f.held = some (runId, seq)) (known : findings tid h.log = f) :
    tape.Safe (verdictContract tid (.compensateRun job)) tid (fun result h => ∀ row, result = .ok (some row) →
      findings tid h.log = { f with held := none, stuck := f.stuck || isStuck row })
      (RunStore.recordObligationAttempt runId seq error nextAttemptAtMs ts).run h := by
  refine safe_query (fun _ _ _ returned => by cases returned) fun h₁ res₁ state₁ foreign₁ _ answers₁ => ?_
  refine ⟨⟨_, res₁, state₁, rfl, answers₁, trivial, judges_of_silent (silent_getObligation attempted runId seq) h₁⟩,
    fun found _ => ?_⟩
  have known₁ := findings_get attempted known foreign₁ runId seq res₁ state₁
  cases found with
  | none => exact fun _ _ _ returned => by cases returned
  | some existing =>
    refine safe_query (fun _ _ _ returned => by cases returned) fun h₂ res₂ state₂ foreign₂ _ answers₂ => ?_
    have here : (findings tid h₂.log).held = some (runId, seq) ∧ (findings tid h₂.log).attempted = none := by
      rw [findings_of_foreign foreign₂, known₁]
      exact ⟨held, attempted⟩
    refine ⟨⟨_, res₂, state₂, rfl, answers₂, trivial, judges_of_drains here rfl⟩, fun updated isOk => ?_⟩
    have known₂ : findings tid (h₂.push tid _ res₂ state₂).log = f.attempt (runId, seq) := by
      rw [findings_push_self, isOk, findings_of_foreign foreign₂, known₁]
      rfl
    have housekeeping := silent_of_housekeeping (f.attempt (runId, seq))
    refine System.Safe.exceptBind (fun _ _ _ returned => by cases returned)
      ((safe_silent (all_nextSeq housekeeping runId) known₂).mono fun _ h₃ known₃ jseq _ => ?_)
    refine System.Safe.exceptBind (fun _ _ _ returned => by cases returned)
      ((safe_silent (all_journal housekeeping _ _ _ _ _ (by constructor)) known₃).mono fun _ h₄ known₄ _ _ => ?_)
    intro h₅ foreign₅ _ res₅ state₅ answers₅
    refine ⟨⟨_, res₅, state₅, rfl, answers₅, trivial, judges_of_drains trivial rfl⟩, ?_⟩
    have isRead : findings tid (h₅.push tid (.obligation (.getObligation runId seq)) res₅ state₅).log = _ :=
      findings_push_self h₅ tid (.obligation (.getObligation runId seq)) res₅ state₅
    rw [findings_of_foreign foreign₅, known₄] at isRead
    rintro h₆ foreign₆ row rfl
    rw [findings_of_foreign foreign₆, isRead]
    refine (if_pos rfl).trans ?_
    simp [Findings.attempt, attempted]

/-- What is to be known of a part of the drain: its outcomes, as far as they are `stuck`. -/
def Reports (f : Findings) (stuck : Bool) (g : Findings) : Prop := g.attempted = none ∧ g.stuck = (f.stuck || stuck)

theorem safe_runInverse (d : Drainer) (pass : Nat) (current : ObligationRecord) (held : f.held = some current.pk)
    (known : findings tid h.log = f) :
    tape.Safe (verdictContract tid (.compensateRun job)) tid (fun result h => ∀ outcome, result = .ok outcome →
      Reports f outcome.stuck?.isSome (findings tid h.log)) (Sdk.runInverse d pass current).run h := by
  unfold Sdk.runInverse
  split
  · -- no inverse: the obligation is marked
    refine System.Safe.exceptBind (fun _ _ _ returned => by cases returned) (safe_rpcFound ?_)
    refine (safe_resolveObligation attempted (by rfl) held known).mono fun result h₁ marked h₂ foreign₂ => ?_
    split
    next row =>
      rintro _ - h₃ foreign₃ outcome ⟨⟩
      rw [findings_of_foreign foreign₃, findings_of_foreign foreign₂, marked row rfl]
      exact ⟨attempted, rfl⟩
    all_goals exact fun _ returned => by cases returned
  refine safe_external (fun _ _ _ returned => by cases returned) fun h₁ foreign₁ _ => ?_
  refine ⟨⟨.outside (.compensator current), (), h₁.state, rfl, .exec, trivial, judges_of_drains trivial rfl⟩, ?_⟩
  have known₁ : findings tid (h₁.push tid (.outside (.compensator current)) () h₁.state).log = f := by
    refine (findings_push_self h₁ tid (.outside (.compensator current)) () h₁.state).trans ?_
    exact (findings_of_foreign foreign₁).trans known
  split
  next error _ =>
    refine System.Safe.exceptBind (fun _ _ _ returned => by cases returned) (safe_rpcFound ?_)
    refine (safe_recordObligationAttempt attempted held known₁).mono fun result h₂ recorded h₃ foreign₃ => ?_
    split
    next row =>
      rintro _ ⟨⟩ h₄ foreign₄ outcome ⟨⟩
      rw [findings_of_foreign foreign₄, findings_of_foreign foreign₃, recorded row rfl]
      refine ⟨attempted, ?_⟩
      by_cases marked : row.status = ObligationStatus.stuck.code
      · simp [isStuck, marked, CompensateOutcome.stuck?]
      · simp [isStuck, marked, CompensateOutcome.stuck?]
    all_goals exact fun _ returned => by cases returned
  next resultJson _ =>
    refine System.Safe.exceptBind (fun _ _ _ returned => by cases returned) (safe_rpcFound ?_)
    refine (safe_resolveObligation attempted (by rfl) held known₁).mono fun result h₂ resolved h₃ foreign₃ => ?_
    split
    next row =>
      rintro _ - h₄ foreign₄ outcome ⟨⟩
      rw [findings_of_foreign foreign₄, findings_of_foreign foreign₃, resolved row rfl]
      exact ⟨attempted, rfl⟩
    all_goals exact fun _ returned => by cases returned

theorem safe_compensateOne (d : Drainer) (pass : Nat) {ob : ObligationRecord} (own : ob.runId = job.runId)
    (known : findings tid h.log = f) :
    tape.Safe (verdictContract tid (.compensateRun job)) tid (fun result h => ∀ outcome, result = .ok outcome →
      Reports f outcome.stuck?.isSome (findings tid h.log)) (Sdk.compensateOne d pass ob).run h := by
  unfold Sdk.compensateOne
  rw [own]
  refine System.Safe.exceptBind (fun _ _ _ returned => by cases returned) (safe_rpc ?_)
  refine (safe_claimObligation attempted ob.seq d.claimer d.leaseTtlMs _ _ known).mono fun result h₁ claimed h₂ foreign₂ => ?_
  cases result with
  | error e => exact fun _ returned => by cases returned
  | ok answer =>
    rintro _ ⟨⟩
    obtain ⟨acquired, row⟩ := answer
    obtain ⟨held, known₁, holds⟩ := claimed acquired row rfl
    rw [← findings_of_foreign foreign₂] at known₁
    have skips : ∀ h₃, Foreign tid h₂ h₃ → ∀ outcome, Except.ok (ε := Status) CompensateOutcome.skipped = .ok outcome →
        Reports f outcome.stuck?.isSome (findings tid h₃.log) := by
      rintro h₃ foreign₃ outcome ⟨⟩
      rw [findings_of_foreign foreign₃, known₁]
      exact ⟨attempted, (Bool.or_false _).symm⟩
    cases acquired with
    | false => exact skips
    | true =>
      cases row with
      | none => exact skips
      | some current =>
        exact safe_runInverse (f := { f with held }) attempted d pass current (holds current rfl rfl) known₁

end Attempted

/-- A listing has obligations of the run alone. -/
theorem safe_listObligations (known : findings tid h.log = f) :
    tape.Safe (verdictContract tid (.compensateRun job)) tid (fun result h => ∀ rows, result = .ok rows →
        findings tid h.log = f.list rows ∧ ∀ row ∈ rows, row.runId = job.runId)
      (Client.listObligations job.runId true 0).run h := by
  refine safe_rpc ?_
  intro h₁ foreign₁ _ res₁ state₁ answers₁
  refine ⟨⟨_, res₁, state₁, rfl, answers₁, trivial, judges_of_drains ⟨rfl, rfl, rfl⟩ rfl⟩, ?_⟩
  have isListed : findings tid (h₁.push tid (.obligation (.listObligations job.runId true 0)) res₁ state₁).log = _ :=
    findings_push_self h₁ tid (.obligation (.listObligations job.runId true 0)) res₁ state₁
  rw [findings_of_foreign foreign₁, known] at isListed
  intro h₂ foreign₂ h₃ foreign₃
  cases res₁ with
  | error e => exact fun _ returned => by cases returned
  | ok rows =>
    rintro _ ⟨⟩
    rw [findings_of_foreign foreign₃, findings_of_foreign foreign₂]
    refine ⟨isListed, fun row member => ?_⟩
    obtain ⟨isRows, -⟩ := exec_of_ok answers₁
    rw [Except.ok.inj isRows] at member
    have selected := (List.mem_filter.mp (mem_of_mem_orderBy member)).2
    simp only [Bool.and_eq_true, decide_eq_true_eq] at selected
    exact selected.1

theorem safe_compensateAll (d : Drainer) (pass : Nat) {obligations : List ObligationRecord}
    (own : ∀ ob ∈ obligations, ob.runId = job.runId) (start : (findings tid h.log).attempted = none) :
    tape.Safe (verdictContract tid (.compensateRun job)) tid (fun result h' => ∀ outcomes, result = .ok outcomes →
      Reports (findings tid h.log) (!(outcomes.filterMap CompensateOutcome.stuck?).isEmpty) (findings tid h'.log))
      (Sdk.compensateAll d pass obligations).run h := by
  induction obligations generalizing h with
  | nil =>
    rintro h' foreign outcomes ⟨⟩
    rw [findings_of_foreign foreign]
    exact ⟨start, by simp⟩
  | cons ob obligations inductionHypothesis =>
    refine System.Safe.exceptBind (fun _ _ _ returned => by cases returned)
      ((safe_compensateOne start d pass (own ob List.mem_cons_self) rfl).mono fun _ h₁ first outcome isOk => ?_)
    obtain ⟨start₁, stuck₁⟩ := first outcome isOk
    have own' : ∀ ob ∈ obligations, ob.runId = job.runId := fun ob member => own ob (List.mem_cons_of_mem _ member)
    refine System.Safe.exceptBind (fun _ _ _ returned => by cases returned)
      ((inductionHypothesis own' start₁).mono fun _ h₂ rest outcomes isOk => ?_)
    obtain ⟨start₂, stuck₂⟩ := rest outcomes isOk
    rintro h₃ foreign₃ _ ⟨⟩
    rw [findings_of_foreign foreign₃]
    refine ⟨start₂, ?_⟩
    cases marked : outcome.stuck? <;> simp [stuck₂, stuck₁, marked]

theorem safe_compensatePasses (d : Drainer) (pass fuel : Nat) (start : (findings tid h.log).attempted = none) :
    tape.Safe (verdictContract tid (.compensateRun job)) tid (fun result h' => ∀ outcomes, result = .ok outcomes →
      Reports (findings tid h.log) (!(outcomes.filterMap CompensateOutcome.stuck?).isEmpty) (findings tid h'.log))
      (Sdk.compensatePasses d job.runId pass fuel).run h := by
  induction fuel generalizing pass h with
  | zero =>
    rintro h' foreign outcomes ⟨⟩
    rw [findings_of_foreign foreign]
    exact ⟨start, by simp⟩
  | succ fuel inductionHypothesis =>
    refine System.Safe.exceptBind (fun _ _ _ returned => by cases returned)
      ((safe_listObligations rfl).mono fun _ h₁ listed rows isOk => ?_)
    obtain ⟨listed, own⟩ := listed rows isOk
    have start₁ : (findings tid h₁.log).attempted = none := by
      rw [listed]
      exact start
    have stuck₁ : (findings tid h₁.log).stuck = (findings tid h.log).stuck := by rw [listed]; rfl
    simp only
    split
    · rintro h₂ foreign₂ outcomes ⟨⟩
      rw [findings_of_foreign foreign₂]
      exact ⟨start₁, by simp [stuck₁]⟩
    refine System.Safe.exceptBind (fun _ _ _ returned => by cases returned)
      ((safe_compensateAll d pass (fun ob member => own ob (List.mem_filter.mp member).1) start₁).mono
        fun _ h₂ first outcomes isOk => ?_)
    obtain ⟨start₂, stuck₂⟩ := first outcomes isOk
    refine System.Safe.exceptBind (fun _ _ _ returned => by cases returned)
      ((inductionHypothesis (pass + 1) start₂).mono fun _ h₃ rest later isOk => ?_)
    obtain ⟨start₃, stuck₃⟩ := rest later isOk
    rintro h₄ foreign₄ _ ⟨⟩
    rw [findings_of_foreign foreign₄]
    refine ⟨start₃, ?_⟩
    rw [stuck₃, stuck₂, stuck₁, List.filterMap_append]
    cases outcomes.filterMap CompensateOutcome.stuck? <;> simp

theorem endsRun_of_unlisted {call : Call} {act : Act} (unlisted : (findings tid h.log).leftover = none) :
    endsRun tid call h act = none := by
  unfold endsRun
  split
  · split
    · exact if_neg (by rw [← leftover_iff, unlisted]; exact Bool.false_ne_true)
    · rfl
  · rfl

/-- The first call of `end_run` ends nothing for good. -/
theorem safe_beginCompensating {server : Nat} {status ts : Int} {detailJson : String} (known : findings tid h.log = {}) :
    tape.Safe (verdictContract tid (.compensateRun job)) tid (fun _ h => findings tid h.log = {})
      (Client.endRun server job.runId status detailJson ts).run h := by
  have all : Prog.All (fun act => (∀ tid res, Findings.next {} ⟨tid, act, res⟩ = {}) ∧ ∀ tid h, Drains tid job.runId h act)
      (RunStore.endRun server job.runId status detailJson ts).run :=
    all_endRun (fun act housekeeping => ⟨(silent_of_housekeeping {} act housekeeping).same,
        fun tid h => (silent_of_housekeeping {} act housekeeping).drains tid job.runId h⟩)
      ⟨fun _ _ => rfl, fun _ _ => rfl⟩ ⟨fun _ _ => rfl, fun _ _ => trivial⟩ fun _ => ⟨fun _ _ => rfl, fun _ _ => trivial⟩
  refine System.Safe.of_all_knowing (K := verdictContract tid (.compensateRun job)) (fun h => findings tid h.log = {})
    (fun foreign known => (findings_of_foreign foreign).trans known) ?_ (fun _ _ known => known) (all_rpcFound all) known
  intro h act res state quiet _ known answers
  have judges : Judges tid (.compensateRun job) h act := judges_of_drains (quiet.2 tid h) (endsRun_of_unlisted (by rw [known]))
  refine ⟨⟨act, res, state, rfl, answers, trivial, judges⟩, ?_⟩
  rw [findings_push_self, known, quiet.1]

theorem safe_endRun {server : Nat} {status ts : Int} {detailJson : String}
    (isVerdict : status = (findings tid h.log).verdict.code) (attempted : (findings tid h.log).attempted = none) :
    tape.Safe (verdictContract tid (.compensateRun job)) tid (fun _ _ => True)
      (Client.endRun server job.runId status detailJson ts).run h := by
  refine safe_rpcFound_of_safe (safe_query (fun _ _ => trivial) fun h₁ res₁ state₁ foreign₁ _ answers₁ => ?_)
  constructor
  · refine ⟨_, res₁, state₁, rfl, answers₁, trivial, rfl, fun ending isEnding => ?_⟩
    simp only [endsRun] at isEnding
    split at isEnding
    · obtain rfl := Option.some.inj isEnding
      rw [findings_of_foreign foreign₁]
      exact ⟨isVerdict, attempted⟩
    · cases isEnding
  · intro value _
    have housekeeping : ∀ act, Housekeeping act → ∀ h, Judges tid (.compensateRun job) h act :=
      fun act housekeeping => judges_of_silent (silent_of_housekeeping {} act housekeeping)
    refine System.Safe.of_all_proper (fun _ _ => trivial) ?_ _
    refine .exceptBind (all_access fun _ => judges_of_drains trivial rfl) fun _ => ?_
    refine .exceptBind (all_query fun _ => judges_of_drains trivial rfl) fun found => ?_
    cases found with
    | none => trivial
    | some current =>
      refine .exceptBind (all_orElse (all_nextSeq housekeeping job.runId)) fun _ => ?_
      exact .exceptBind (all_orElse (all_journal housekeeping _ _ _ _ _ (by constructor))) fun _ => trivial

theorem verdict_of_reports {outcomes : List CompensateOutcome} (rows : List ObligationRecord)
    (stuck : f.stuck = !(outcomes.filterMap CompensateOutcome.stuck?).isEmpty) :
    finalStatus outcomes (rows.filter fun ob => ob.status = ObligationStatus.pending.code) = (f.list rows).verdict := by
  have left : (rows.filter fun ob => ob.status = ObligationStatus.pending.code).isEmpty = !rows.any isPending := by
    induction rows with
    | nil => rfl
    | cons row rows inductionHypothesis =>
      by_cases pending : row.status = ObligationStatus.pending.code
      · simp [pending, isPending]
      · simpa [List.filter_cons, pending, isPending] using inductionHypothesis
  unfold finalStatus Findings.verdict Findings.list
  rw [left, stuck]
  cases (outcomes.filterMap CompensateOutcome.stuck?).isEmpty <;> cases rows.any isPending <;> rfl

/-- The call ends the run with the verdict of what it has found by then. -/
theorem safe_compensateRun (job : CompensateRunJob) (fresh : findings tid h.log = {}) :
    tape.Safe (verdictContract tid (.compensateRun job)) tid (fun _ _ => True) (Sdk.compensateRun job).run h := by
  refine System.Safe.exceptBind (fun _ _ => trivial) ((safe_beginCompensating fresh).mono fun _ h₁ known₁ _ _ => ?_)
  have start₁ : (findings tid h₁.log).attempted = none := by rw [known₁]
  refine System.Safe.exceptBind (fun _ _ => trivial)
    ((safe_compensatePasses job.drainer 0 _ start₁).mono fun _ h₂ passes outcomes isOk => ?_)
  obtain ⟨start₂, stuck₂⟩ := passes outcomes isOk
  refine System.Safe.exceptBind (fun _ _ => trivial) ((safe_listObligations rfl).mono fun _ h₃ listed rows isOk => ?_)
  obtain ⟨isListed, -⟩ := listed rows isOk
  have isVerdict : finalStatus outcomes (rows.filter fun ob => ob.status = ObligationStatus.pending.code) =
      (findings tid h₃.log).verdict := by
    rw [isListed]
    exact verdict_of_reports rows (by simpa [known₁] using stuck₂)
  have start₃ : (findings tid h₃.log).attempted = none := by
    rw [isListed]
    exact start₂
  refine System.Safe.seq (safe_endRun (congrArg RunStatus.code isVerdict) start₃) fun _ h₄ => ?_
  split
  · exact fun _ _ => trivial
  · exact fun _ _ => trivial

end Safety

theorem verdict_compose : System.Compose tape (fun _ => True) verdictContract fun _ _ _ _ => True := by
  refine System.tracked_compose fun {tid call h} _ fresh => ?_
  cases call with
  | compensateRun job => exact safe_compensateRun job (ownFold_of_fresh fresh)
  | _ => exact System.Safe.of_all_proper (fun _ _ => trivial) (Prog.all_of (fun act h => trivial) _) h

/-! ## What the marks of a drainer say -/

section Known

variable {tid : Nat} {runId : String} {h : TapeHist} {act : Act} {res : act.Res} {state : World} {pk : String × Int}

theorem marked_push_ne {other : Nat} (ne : other ≠ tid) (pk : String × Int) :
    marked tid pk (h.push other act res state).log = marked tid pk h.log := by
  simp [marked, ne]

theorem marked_push_self (pk : String × Int) : marked tid pk (h.push tid act res state).log =
    (decide (writes ⟨tid, act, res⟩ = some (pk, ObligationStatus.stuck.code)) || marked tid pk h.log) := by
  simp [marked]

/-- What a `compensate_run` has marked is what is `STUCK`, and it reports that it has. -/
structure Known (tid : Nat) (runId : String) (h : TapeHist) : Prop where
  stuck_of_marked : ∀ pk, marked tid pk h.log → pk.1 = runId ∧ statusAt pk h.state = some ObligationStatus.stuck.code
  marked_of_stuck : ∀ pk, pk.1 = runId → statusAt pk h.state = some ObligationStatus.stuck.code → marked tid pk h.log
  held_unmarked : ∀ pk, (findings tid h.log).held = some pk →
    pk.1 = runId ∧ marked tid pk h.log = false ∧ (statusAt pk h.state).isSome
  reported : ∀ pk, marked tid pk h.log → (findings tid h.log).stuck ∨ (findings tid h.log).attempted = some pk
  found : (findings tid h.log).stuck → ∃ pk, marked tid pk h.log
  attempted_own : ∀ pk, (findings tid h.log).attempted = some pk → pk.1 = runId

theorem Known.of_fresh (fresh : lastOwn tid h.log = none)
    (clean : ∀ row ∈ obligationsOf runId h.state, isStuck row = false) : Known tid runId h := by
  have unmarked : ∀ pk, marked tid pk h.log = false :=
    fun pk => eq_of_fresh (fun event older other => by simp [marked, other]) fresh
  have unknown : findings tid h.log = {} := ownFold_of_fresh fresh
  constructor
  · intro pk isMarked
    rw [unmarked] at isMarked
    cases isMarked
  · intro pk own stuck
    obtain ⟨row, found, status⟩ := Option.map_eq_some_iff.mp stuck
    have sameRun : row.runId = runId := (congrArg Prod.fst (Sql.Table.key_of_find? found)).trans own
    have member : row ∈ obligationsOf runId h.state :=
      List.mem_filter.mpr ⟨Sql.Table.mem_of_find? found, decide_eq_true sameRun⟩
    have unstuck := clean row member
    rw [isStuck, status, decide_eq_false_iff_not] at unstuck
    exact absurd rfl unstuck
  · intro pk held
    rw [unknown] at held
    cases held
  · intro pk isMarked
    rw [unmarked] at isMarked
    cases isMarked
  · intro stuck
    rw [unknown] at stuck
    cases stuck
  · intro pk attempted
    rw [unknown] at attempted
    cases attempted

/-- A status that is there stays or is overwritten. -/
theorem statusAt_isSome (answers : tape.Answers act h.state res state) (there : (statusAt pk h.state).isSome) :
    (statusAt pk state).isSome := by
  obtain ⟨status, -, isNow⟩ | ⟨-, kept⟩ := statusAt_cases 0 pk answers
  · rw [isNow]
    rfl
  · rw [kept]
    exact there

/-- An event of another thread that does not disturb leaves it so. -/
theorem Known.push_ne {other : Nat} (known : Known tid runId h) (ne : other ≠ tid)
    (answers : tape.Answers act h.state res state) (calm : disturbs tid runId ⟨other, act, res⟩ h.log = false) :
    Known tid runId (h.push other act res state) := by
  have kept : ∀ pk, pk.1 = runId → (marked tid pk h.log ∨ statusAt pk state = some ObligationStatus.stuck.code) →
      statusAt pk state = statusAt pk h.state := by
    intro pk own either
    obtain ⟨status, written, isNow⟩ | ⟨-, kept⟩ := statusAt_cases other pk answers
    · simp only [disturbs, written, Option.any_some, own, decide_true, Bool.true_and, Bool.or_eq_false_iff,
        decide_eq_false_iff_not] at calm
      cases either with
      | inl isMarked => exact absurd isMarked (by rw [calm.2]; exact Bool.false_ne_true)
      | inr stuck => exact absurd (Option.some.inj (isNow.symm.trans stuck)) calm.1
    · exact kept
  constructor
  · intro pk isMarked
    rw [marked_push_ne ne] at isMarked
    obtain ⟨own, stuck⟩ := known.stuck_of_marked pk isMarked
    exact ⟨own, (kept pk own (.inl isMarked)).trans stuck⟩
  · intro pk own stuck
    rw [marked_push_ne ne]
    exact known.marked_of_stuck pk own ((kept pk own (.inr stuck)).symm.trans stuck)
  · intro pk held
    rw [findings_push_ne h act res state ne] at held
    rw [marked_push_ne ne]
    obtain ⟨own, unmarked, there⟩ := known.held_unmarked pk held
    exact ⟨own, unmarked, statusAt_isSome answers there⟩
  · intro pk isMarked
    rw [marked_push_ne ne] at isMarked
    rw [findings_push_ne h act res state ne]
    exact known.reported pk isMarked
  · intro stuck
    rw [findings_push_ne h act res state ne] at stuck
    obtain ⟨pk, isMarked⟩ := known.found stuck
    exact ⟨pk, (marked_push_ne ne pk).trans isMarked⟩
  · intro pk attempted
    rw [findings_push_ne h act res state ne] at attempted
    exact known.attempted_own pk attempted

/-- An act of its own that writes nothing changes at most what the thread knows. -/
theorem Known.push_unwritten (known : Known tid runId h) (answers : tape.Answers act h.state res state)
    (unwritten : writes ⟨tid, act, res⟩ = none)
    (held : ((findings tid h.log).next ⟨tid, act, res⟩).held = (findings tid h.log).held ∨
      ((findings tid h.log).next ⟨tid, act, res⟩).held = none)
    (reported : ∀ pk, marked tid pk h.log → ((findings tid h.log).next ⟨tid, act, res⟩).stuck ∨
      ((findings tid h.log).next ⟨tid, act, res⟩).attempted = some pk)
    (found : ((findings tid h.log).next ⟨tid, act, res⟩).stuck → ∃ pk, marked tid pk h.log)
    (attempted : ((findings tid h.log).next ⟨tid, act, res⟩).attempted = (findings tid h.log).attempted ∨
      ((findings tid h.log).next ⟨tid, act, res⟩).attempted = none) : Known tid runId (h.push tid act res state) := by
  have same : ∀ pk, marked tid pk (h.push tid act res state).log = marked tid pk h.log := by
    intro pk
    rw [marked_push_self, unwritten]
    rfl
  have kept : ∀ pk, statusAt pk state = statusAt pk h.state := fun pk =>
    statusAt_of_unwritten tid answers fun status => by rw [unwritten]; exact (Option.some_ne_none _).symm
  constructor
  · intro pk isMarked
    rw [same] at isMarked
    rw [Hist.push_state, kept]
    exact known.stuck_of_marked pk isMarked
  · intro pk own stuck
    rw [Hist.push_state, kept] at stuck
    rw [same]
    exact known.marked_of_stuck pk own stuck
  · intro pk isHeld
    rw [findings_push_self] at isHeld
    rw [same, Hist.push_state, kept]
    cases held with
    | inl still => exact known.held_unmarked pk (still.symm.trans isHeld)
    | inr free => cases free.symm.trans isHeld
  · intro pk isMarked
    rw [same] at isMarked
    rw [findings_push_self]
    exact reported pk isMarked
  · intro stuck
    rw [findings_push_self] at stuck
    obtain ⟨pk, isMarked⟩ := found stuck
    exact ⟨pk, (same pk).trans isMarked⟩
  · intro pk isAttempted
    rw [findings_push_self] at isAttempted
    cases attempted with
    | inl still => exact known.attempted_own pk (still.symm.trans isAttempted)
    | inr free => cases free.symm.trans isAttempted

/-- What the thread writes over an obligation that it has not marked: a mark is reported, and nothing else is. -/
theorem Known.push_written (known : Known tid runId h) (answers : tape.Answers act h.state res state)
    (own : pk.1 = runId) (unmarked : marked tid pk h.log = false) {status : Int}
    (written : writes ⟨tid, act, res⟩ = some (pk, status))
    (held : ∀ other, ((findings tid h.log).next ⟨tid, act, res⟩).held = some other →
      other = pk ∧ status ≠ ObligationStatus.stuck.code)
    (kept : ∀ other, marked tid other h.log → ((findings tid h.log).next ⟨tid, act, res⟩).stuck ∨
      ((findings tid h.log).next ⟨tid, act, res⟩).attempted = some other)
    (reported : status = ObligationStatus.stuck.code → ((findings tid h.log).next ⟨tid, act, res⟩).stuck ∨
      ((findings tid h.log).next ⟨tid, act, res⟩).attempted = some pk)
    (found : ((findings tid h.log).next ⟨tid, act, res⟩).stuck →
      (findings tid h.log).stuck ∨ status = ObligationStatus.stuck.code)
    (attempted : ∀ other, ((findings tid h.log).next ⟨tid, act, res⟩).attempted = some other → other.1 = runId) :
    Known tid runId (h.push tid act res state) := by
  have isNow : statusAt pk state = some status := statusAt_of_writes answers written
  have others : ∀ other, other ≠ pk → statusAt other state = statusAt other h.state := fun other ne =>
    statusAt_of_unwritten tid answers fun s same => ne (congrArg Prod.fst (Option.some.inj (written.symm.trans same))).symm
  have marks : ∀ other, marked tid other (h.push tid act res state).log ↔
      (other = pk ∧ status = ObligationStatus.stuck.code) ∨ marked tid other h.log := by
    intro other
    rw [marked_push_self, written, Bool.or_eq_true, decide_eq_true_eq, Option.some.injEq, Prod.mk.injEq, eq_comm (a := pk)]
  constructor
  · intro other isMarked
    cases (marks other).mp isMarked with
    | inl here =>
      obtain ⟨rfl, rfl⟩ := here
      exact ⟨own, isNow⟩
    | inr earlier =>
      have ne : other ≠ pk := by
        rintro rfl
        rw [unmarked] at earlier
        cases earlier
      rw [Hist.push_state, others other ne]
      exact known.stuck_of_marked other earlier
  · intro other sameRun stuck
    rw [Hist.push_state] at stuck
    by_cases here : other = pk
    · subst here
      exact (marks other).mpr (.inl ⟨rfl, Option.some.inj (isNow.symm.trans stuck)⟩)
    · rw [others other here] at stuck
      exact (marks other).mpr (.inr (known.marked_of_stuck other sameRun stuck))
  · intro other isHeld
    rw [findings_push_self] at isHeld
    obtain ⟨rfl, unstuck⟩ := held other isHeld
    refine ⟨own, ?_, ?_⟩
    · by_contra isMarked
      cases (marks other).mp (Bool.eq_true_of_not_eq_false isMarked) with
      | inl here => exact unstuck here.2
      | inr earlier => cases unmarked.symm.trans earlier
    · rw [Hist.push_state, isNow]
      rfl
  · intro other isMarked
    rw [findings_push_self]
    cases (marks other).mp isMarked with
    | inl here =>
      obtain ⟨rfl, isStuck⟩ := here
      exact reported isStuck
    | inr earlier => exact kept other earlier
  · intro stuck
    rw [findings_push_self] at stuck
    cases found stuck with
    | inl earlier =>
      obtain ⟨other, isMarked⟩ := known.found earlier
      exact ⟨other, (marks other).mpr (.inr isMarked)⟩
    | inr isStuck => exact ⟨pk, (marks pk).mpr (.inl ⟨rfl, isStuck⟩)⟩
  · intro other isAttempted
    rw [findings_push_self] at isAttempted
    exact attempted other isAttempted

/-- A claim that was won is on an obligation that was open. -/
theorem Known.push_claimed (known : Known tid runId h) {seq : Int} {claimer : String} {leaseExp now : Int}
    {res : Act.Res (.obligation (.claimObligation runId seq claimer leaseExp now))}
    (answers : tape.Answers (.obligation (.claimObligation runId seq claimer leaseExp now)) h.state res state) :
    Known tid runId (h.push tid (.obligation (.claimObligation runId seq claimer leaseExp now)) res state) := by
  cases won : wins ⟨tid, .obligation (.claimObligation runId seq claimer leaseExp now), res⟩ with
  | none =>
    refine known.push_unwritten answers ?_ (.inr won) known.reported known.found (.inl rfl)
    cases res with
    | error e => rfl
    | ok updated =>
      simp only [wins] at won
      split at won
      next => cases won
      next lost => exact if_neg lost
  | some pk =>
    obtain ⟨_, _, _, row, isClaim, found, claimable⟩ := claimable_of_wins answers won
    obtain rfl : pk = (runId, seq) := by
      cases isClaim
      rfl
    have unmarked : marked tid (runId, seq) h.log = false := by
      by_contra isMarked
      have stuck := (known.stuck_of_marked _ (Bool.eq_true_of_not_eq_false isMarked)).2
      have closed : isClosed row.status = true := by
        rw [statusAt, found, Option.map_some, Option.some.injEq] at stuck
        simp [isClosed, stuck]
      rw [not_claimable_of_closed closed] at claimable
      cases claimable
    have written : writes ⟨tid, .obligation (.claimObligation runId seq claimer leaseExp now), res⟩ =
        some ((runId, seq), ObligationStatus.committed.code) := by
      cases res with
      | error e => cases won
      | ok updated =>
        simp only [wins] at won
        split at won
        next positive => exact if_pos positive
        next => cases won
    have committed : ObligationStatus.committed.code ≠ ObligationStatus.stuck.code := by decide
    refine known.push_written answers rfl unmarked written (fun other isHeld => ⟨?_, committed⟩) known.reported
      (fun isStuck => absurd isStuck committed) .inl known.attempted_own
    exact (Option.some.inj (won.symm.trans isHeld)).symm

/-- A row that is read back is `STUCK` exactly if the thread has marked it. -/
theorem Known.push_read (known : Known tid runId h) {r : String} {seq : Int} {res : Act.Res (.obligation (.getObligation r seq))}
    (answers : tape.Answers (.obligation (.getObligation r seq)) h.state res state) :
    Known tid runId (h.push tid (.obligation (.getObligation r seq)) res state) := by
  have unwritten : writes ⟨tid, .obligation (.getObligation r seq), res⟩ = none := rfl
  cases res with
  | error e => exact known.push_unwritten answers unwritten (.inl rfl) known.reported known.found (.inl rfl)
  | ok row =>
    obtain ⟨isRow, -⟩ := exec_of_ok answers
    have read : (row.any isStuck = true) ↔ statusAt (r, seq) h.state = some ObligationStatus.stuck.code := by
      rw [Except.ok.inj isRow, statusAt]
      show (h.state.obligations.find? (r, seq)).any isStuck = true ↔ _
      cases h.state.obligations.find? (r, seq) with
      | none => simp
      | some row => simp [isStuck]
    by_cases attempted : (findings tid h.log).attempted = some (r, seq)
    · have isNext : (findings tid h.log).next ⟨tid, .obligation (.getObligation r seq), .ok row⟩ =
          { findings tid h.log with attempted := none, stuck := (findings tid h.log).stuck || row.any isStuck } :=
          if_pos attempted
      refine known.push_unwritten answers unwritten (.inl ?_) (fun pk isMarked => ?_) (fun stuck => ?_) (.inr ?_)
      · rw [isNext]
      · rw [isNext, Bool.or_eq_true, read]
        refine .inl ((known.reported pk isMarked).imp_right fun reading => ?_)
        obtain rfl := Option.some.inj (attempted.symm.trans reading)
        exact (known.stuck_of_marked _ isMarked).2
      · rw [isNext, Bool.or_eq_true, read] at stuck
        cases stuck with
        | inl earlier => exact known.found earlier
        | inr isStuck => exact ⟨_, known.marked_of_stuck _ (known.attempted_own _ attempted) isStuck⟩
      · rw [isNext]
    · have isNext : (findings tid h.log).next ⟨tid, .obligation (.getObligation r seq), .ok row⟩ = findings tid h.log :=
        if_neg attempted
      refine known.push_unwritten answers unwritten (.inl ?_) ?_ ?_ (.inl ?_)
      · rw [isNext]
      · rw [isNext]
        exact known.reported
      · rw [isNext]
        exact known.found
      · rw [isNext]

theorem Known.written_of_held (known : Known tid runId h) (held : (findings tid h.log).held = some pk) {s : ObligationStmt}
    {value : s.Res} (answers : tape.Answers (.obligation s) h.state (.ok value) state)
    (selects : ∀ row : ObligationRecord, row.pk = pk → s.selects row) {status : Int}
    (assigns : ∀ row, (s.assign row).status = status) :
    writes ⟨tid, .obligation s, .ok value⟩ = some (pk, status) := by
  obtain ⟨-, -, there⟩ := known.held_unmarked pk held
  rw [statusAt, Option.isSome_map] at there
  obtain ⟨row, found⟩ := Option.isSome_iff_exists.mp there
  obtain ⟨executed, -⟩ := exec_of_ok answers
  rw [executed, ← assigns row]
  exact writes_of_selected found (selects row (Sql.Table.key_of_find? found))

/-- An act of its own leaves it so. -/
theorem Known.push_self (known : Known tid runId h) (drains : Drains tid runId h act)
    (answers : tape.Answers act h.state res state) : Known tid runId (h.push tid act res state) := by
  -- an act that the findings do not look at
  have passes : (findings tid h.log).next ⟨tid, act, res⟩ = findings tid h.log → writes ⟨tid, act, res⟩ = none →
      Known tid runId (h.push tid act res state) := by
    intro same unwritten
    refine known.push_unwritten answers unwritten (.inl ?_) ?_ ?_ (.inl ?_)
    · rw [same]
    · rw [same]
      exact known.reported
    · rw [same]
      exact known.found
    · rw [same]
  cases act with
  | sql s =>
    cases s with
    | obligation s =>
      cases s with
      | insertObligation row => cases drains
      | claimObligation r seq claimer leaseExp now =>
        obtain rfl : r = runId := drains
        exact known.push_claimed answers
      | recordAttempt r seq status attempts error nextAt now =>
        cases res with
        | error e => exact passes rfl rfl
        | ok updated =>
          obtain ⟨held, unread⟩ := drains
          obtain ⟨own, unmarked, -⟩ := known.held_unmarked (r, seq) held
          have written := known.written_of_held held answers (fun row key => decide_eq_true key) fun _ => rfl
          refine known.push_written answers own unmarked written (fun _ isHeld => by cases isHeld) (fun other isMarked => ?_)
            (fun _ => .inr rfl) .inl fun other same => ?_
          · -- nothing was to be read back, so what was marked before is reported
            exact .inl ((known.reported other isMarked).resolve_right fun reading => by cases unread.symm.trans reading)
          · obtain rfl := Option.some.inj same
            exact own
      | resolve r seq status resultJson now =>
        cases res with
        | error e => exact passes rfl rfl
        | ok updated =>
          obtain ⟨held, unread⟩ := drains
          obtain ⟨own, unmarked, -⟩ := known.held_unmarked (r, seq) held
          have written := known.written_of_held held answers (fun row key => decide_eq_true key) fun _ => rfl
          refine known.push_written answers own unmarked written (fun _ isHeld => by cases isHeld) (fun other isMarked => ?_)
            (fun isStuck => .inl (Bool.or_eq_true_iff.mpr (.inr (decide_eq_true isStuck))))
            (fun stuck => (Bool.or_eq_true_iff.mp stuck).imp_right of_decide_eq_true) known.attempted_own
          have earlier := (known.reported other isMarked).resolve_right fun reading => by cases unread.symm.trans reading
          exact .inl (Bool.or_eq_true_iff.mpr (.inl earlier))
      | getObligation r seq => exact known.push_read answers
      | listObligations r onlyUnresolved statusFilter =>
        refine known.push_unwritten answers rfl (.inl ?_) ?_ ?_ (.inl ?_) <;> cases res with
        | error e => first | rfl | exact known.reported | exact known.found
        | ok rows => first | rfl | exact known.reported | exact known.found
      | _ => exact passes rfl rfl
    | _ => exact passes rfl rfl
  | _ => exact passes rfl rfl

end Known

/-- What the last listing did not have is not `PENDING`, as long as nothing was registered or put back. -/
def Emptied (tid : Nat) (runId : String) (h : TapeHist) : Prop :=
  (findings tid h.log).leftover = some false → (since tid lists h.log).all (fun event => !opens runId event) →
    ∀ pk, pk.1 = runId → statusAt pk h.state ≠ some ObligationStatus.pending.code

/-- A listing has every obligation of the run that is `PENDING`. -/
theorem pending_of_listed {tid : Nat} {runId : String} {w w' : World} {act : Act} {res : act.Res} {h : TapeHist} {f : Findings}
    (isListing : lists ⟨tid, act, res⟩) (drains : Drains tid runId h act) (answers : tape.Answers act w res w')
    (leftover : (f.next ⟨tid, act, res⟩).leftover = some false) {pk : String × Int} (own : pk.1 = runId) :
    statusAt pk w' ≠ some ObligationStatus.pending.code := by
  unfold lists at isListing
  split at isListing
  next _ r onlyUnresolved statusFilter rows same =>
    cases same
    obtain ⟨rfl, rfl, rfl⟩ := drains
    obtain ⟨isRows, rfl⟩ := exec_of_ok answers
    intro pending
    obtain ⟨row, found, status⟩ := Option.map_eq_some_iff.mp pending
    have inTable : row ∈ w.obligations.rows := Sql.Table.mem_of_find? found
    have sameRun : row.runId = r := (congrArg Prod.fst (Sql.Table.key_of_find? found)).trans own
    have selected : (row.runId = r && ObligationStmt.listed true 0 row) = true := by
      simp [sameRun, ObligationStmt.listed, status, ObligationStatus.code]
    have listed := (List.mem_insertionSort fun a b : ObligationRecord => -a.seq ≤ -b.seq).mpr
      (List.mem_filter (p := fun row => row.runId = r && ObligationStmt.listed true 0 row) |>.mpr ⟨inTable, selected⟩)
    have none_ : List.any (α := ObligationRecord) rows isPending = false := Option.some.inj leftover
    rw [Except.ok.inj isRows] at none_
    exact List.any_eq_false.mp none_ row listed (decide_eq_true status)
  next => cases isListing

theorem Emptied.push {tid mover : Nat} {runId : String} {h : TapeHist} {act : Act} {res : act.Res} {state : World}
    (emptied : Emptied tid runId h) (drains : mover = tid → Drains tid runId h act)
    (answers : tape.Answers act h.state res state) : Emptied tid runId (h.push mover act res state) := by
  intro leftover unopened pk own
  by_cases isListing : mover = tid ∧ lists ⟨mover, act, res⟩
  · obtain ⟨rfl, isListing⟩ := isListing
    rw [findings_push_self] at leftover
    exact pending_of_listed isListing (drains rfl) answers leftover own
  · rw [Hist.push_log, since_cons isListing, List.all_cons, Bool.and_eq_true, Bool.not_eq_true'] at unopened
    have earlier : (findings tid h.log).leftover = some false := by
      by_cases mine : mover = tid
      · subst mine
        rw [findings_push_self, leftover_next _ (Bool.eq_false_of_not_eq_true fun lists => isListing ⟨rfl, lists⟩)] at leftover
        exact leftover
      · rw [findings_push_ne h act res state mine] at leftover
        exact leftover
    have unpending := emptied earlier unopened.2 pk own
    obtain ⟨status, written, isNow⟩ | ⟨-, kept⟩ := statusAt_cases mover pk answers
    · intro pending
      obtain rfl := Option.some.inj (isNow.symm.trans pending)
      simp [opens, written, own] at unopened
    · rw [Hist.push_state, kept]
      exact unpending

/-! ## Whole runs -/

/-- What a `compensate_run` knows, if it has begun and nobody has disturbed it. -/
def Local (tid : Nat) (call : Call) (h : TapeHist) : Prop :=
  match call with
  | .compensateRun job => ((lastOwn tid h.log).isSome → undisturbed tid job.runId h.log → Known tid job.runId h) ∧
    Emptied tid job.runId h
  | _ => True

theorem local_of_fresh {tid : Nat} {h : TapeHist} (call : Call) (fresh : lastOwn tid h.log = none) : Local tid call h := by
  cases call with
  | compensateRun job =>
    refine ⟨fun begun => ?_, fun leftover => ?_⟩
    · rw [fresh] at begun
      cases begun
    · rw [show findings tid h.log = {} from ownFold_of_fresh fresh] at leftover
      cases leftover
  | _ => trivial

theorem Local.push_self {tid : Nat} {call : Call} {h : TapeHist} {act : Act} {res : act.Res} {state : World}
    (known : Local tid call h) (starts : startsClean tid call h) (judges : Judges tid call h act)
    (answers : tape.Answers act h.state res state) : Local tid call (h.push tid act res state) := by
  cases call with
  | compensateRun job =>
    refine ⟨fun _ calm => ?_, known.2.push (fun _ => judges.1) answers⟩
    have before : Known tid job.runId h := by
      cases begun : lastOwn tid h.log with
      | none =>
        -- the call begins here
        have clean : ((obligationsOf job.runId h.state).all fun row => !isStuck row) = true := by
          simpa [startsClean, begun] using starts
        exact .of_fresh begun fun row member => by simpa using List.all_eq_true.mp clean row member
      | some _ => exact known.1 (by rw [begun]; rfl) (calmFromFirst_cons calm)
    exact before.push_self judges.1 answers
  | _ => trivial

theorem Local.push_ne {tid other : Nat} {call : Call} {h : TapeHist} {act : Act} {res : act.Res} {state : World}
    (known : Local tid call h) (ne : other ≠ tid) (answers : tape.Answers act h.state res state) :
    Local tid call (h.push other act res state) := by
  cases call with
  | compensateRun job =>
    refine ⟨fun begun calm => ?_, known.2.push (fun same => absurd same ne) answers⟩
    rw [lastOwn_push_ne h act res state (Ne.symm ne)] at begun
    exact (known.1 begun (calmFromFirst_cons calm)).push_ne ne answers (quiet_of_calmFromFirst calm begun ne)
  | _ => trivial

theorem mem_obligationsOf {runId : String} {w : World} {row : ObligationRecord} :
    row ∈ obligationsOf runId w ↔ row.runId = runId ∧ w.obligations.find? row.pk = some row := by
  rw [obligationsOf, List.mem_filter, decide_eq_true_eq]
  exact ⟨fun both => ⟨both.2, Sql.Table.find?_key_of_mem both.1⟩, fun both => ⟨Sql.Table.mem_of_find? both.2, both.1⟩⟩

/-- A `compensate_run` that knows of every `STUCK` obligation, and was left alone, says the truth. -/
theorem truthful_of_known {tid : Nat} {runId : String} {h : TapeHist} {status : Int} (known : Known tid runId h)
    (emptied : Emptied tid runId h) (alone : EndsAlone tid runId h) (listed : (findings tid h.log).leftover.isSome)
    (unread : (findings tid h.log).attempted = none) (isVerdict : status = (findings tid h.log).verdict.code) :
    Truthful runId status h.state := by
  have stuck_iff : (findings tid h.log).stuck = true ↔ ∃ row ∈ obligationsOf runId h.state, isStuck row := by
    constructor
    · intro stuck
      obtain ⟨pk, isMarked⟩ := known.found stuck
      obtain ⟨own, status⟩ := known.stuck_of_marked pk isMarked
      obtain ⟨row, found, isStatus⟩ := Option.map_eq_some_iff.mp status
      have key : row.pk = pk := Sql.Table.key_of_find? found
      exact ⟨row, mem_obligationsOf.mpr ⟨(congrArg Prod.fst key).trans own, key ▸ found⟩, decide_eq_true isStatus⟩
    · rintro ⟨row, member, isStuck⟩
      obtain ⟨own, found⟩ := mem_obligationsOf.mp member
      have status : statusAt row.pk h.state = some ObligationStatus.stuck.code := by
        rw [statusAt, found, Option.map_some, of_decide_eq_true isStuck]
      refine (known.reported row.pk (known.marked_of_stuck row.pk own status)).resolve_right fun reading => ?_
      cases unread.symm.trans reading
  subst isVerdict
  obtain ⟨pending, isLeftover⟩ := Option.isSome_iff_exists.mp listed
  cases stuck : (findings tid h.log).stuck with
  | true => simpa [Truthful, Findings.verdict, stuck, RunStatus.code] using stuck_iff.mp stuck
  | false =>
    have unstuck : ∀ row ∈ obligationsOf runId h.state, isStuck row = false := by
      intro row member
      by_contra isStuck
      rw [stuck_iff.mpr ⟨row, member, Bool.eq_true_of_not_eq_false isStuck⟩] at stuck
      cases stuck
    cases pending with
    | true => simpa [Truthful, Findings.verdict, stuck, isLeftover, RunStatus.code] using unstuck
    | false =>
      -- here `compensate_run` says that everything is compensated
      have unpending : ∀ row ∈ obligationsOf runId h.state, isPending row = false := by
        intro row member
        obtain ⟨own, found⟩ := mem_obligationsOf.mp member
        by_contra isPending
        refine emptied isLeftover alone.unopened row.pk own ?_
        rw [statusAt, found, Option.map_some, of_decide_eq_true (Bool.eq_true_of_not_eq_false isPending)]
      have unheld : ∀ row ∈ obligationsOf runId h.state, !isHeld row := by
        refine alone.released.resolve_right fun other => ?_
        obtain ⟨row, member, either⟩ := other
        rw [unpending row member, unstuck row member] at either
        cases either
      have compensated : ∀ row ∈ obligationsOf runId h.state, isCompensated row = true := by
        intro row member
        simpa [isHeld, unpending row member, unstuck row member] using unheld row member
      simpa [Truthful, Findings.verdict, stuck, isLeftover, RunStatus.code] using ⟨compensated, unstuck⟩

theorem truthful_of_local {tid : Nat} {call : Call} {h : TapeHist} {act : Act} {ending : String × Int} (known : Local tid call h)
    (judges : Judges tid call h act) (uninterrupted : Uninterrupted tid call h act)
    (isEnding : ending ∈ endsRun tid call h act) : Truthful ending.1 ending.2 h.state := by
  have alone := uninterrupted.ends ending isEnding
  cases call with
  | compensateRun job =>
    obtain ⟨isVerdict, unread⟩ := judges.2 ending isEnding
    have drains := judges.1
    unfold endsRun at isEnding
    split at isEnding
    next r status ts detailJson =>
      simp only at isEnding
      split at isEnding
      next listed =>
        obtain rfl := Option.some.inj isEnding
        obtain rfl : r = job.runId := drains
        obtain ⟨event, member, isListing⟩ := List.any_eq_true.mp listed
        have own : event.tid = tid := of_decide_eq_true (Bool.and_eq_true_iff.mp isListing).1
        have begun : (lastOwn tid h.log).isSome := List.find?_isSome.mpr ⟨event, member, decide_eq_true own⟩
        rw [← leftover_iff] at listed
        exact truthful_of_known (known.1 begun alone.undisturbed) known.2 alone listed unread isVerdict
      next => cases isEnding
    next => cases isEnding
  | _ =>
    unfold endsRun at isEnding
    split at isEnding <;> cases isEnding

/-- **The verdict of `compensate_run`.**  In every run of any calls in which the others keep out of the way of every
    `compensate_run`, from any database, the status by which it ends its run is the truth about the run's obligations. -/
theorem compensate_run_truthful (w : World) (choices : List (Choice Call))
    (uninterrupted : tape.Along (System.Permits (fun _ => True) Uninterrupted) (quiet w) choices) :
    tape.Along (System.Executes truthful) (quiet w) choices := by
  have judges := System.along_proper verdict_compose (quiet_owned w) (System.poolSafe_of_empty rfl)
    (System.along_free tape (quiet w) choices)
  have known : tape.Along (System.Permits (fun _ => True) fun tid call h act => Judges tid call h act ∧
    Uninterrupted tid call h act)
      (quiet w) choices :=
    (judges.and uninterrupted).mono fun c choice both => .and (both.1.mono fun _ _ _ => And.right) both.2
  have truth : tape.Along (System.Permits (fun _ => True) truthful) (quiet w) choices := by
    refine System.Along.of_local Local ?_ ?_ ?_ ?_ (quiet_owned w) ?_ known
    · exact fun tid call h fresh => local_of_fresh call fresh
    · exact fun tid call h act res state both answers known => known.push_self both.2.starts both.1 answers
    · exact fun tid call other _ h act res state ne _ answers known => known.push_ne ne answers
    · intro tid call h act both known ending isEnding
      exact truthful_of_local known both.1 both.2 isEnding
    · intro tid call serves
      simp [quiet, Config.callOf] at serves
  exact truth.mono fun _ _ => System.Executes.of_permits

/-! ## Beside another drainer -/

def heldByB : List (Choice Call) := serve 0 (.claimObligation "r" 2 "B" 60000 1000 1000)

def refundDrainer : Drainer where
  claimer := "A"
  claimAt _ _ := 2000
  recordAt _ _ := 2000
  sdkNow _ := 2000

def refundJob : CompensateRunJob where
  runId := "r"
  drainer := refundDrainer
  startAt := 2000
  finishAt := 2000

def beside : List (Choice Call) := heldByB ++ serve 1 (.compensateRun refundJob) 16

theorem held_obligation_overlooked : ¬ tape.Along (System.Executes truthful) (quiet refundWorld) beside := by
  decide +kernel

/-- `B` reports while `compensate_run` looks for what is due. -/
def reportedByB : List (Choice Call) := heldByB ++ serve 1 (.compensateRun refundJob) 5 ++
  serve 2 (.resolveObligation "r" 2 ObligationStatus.compensated.code "null" 1500) ++ List.replicate 10 (.exec 1)

/-- Where `B` has closed what it held, the verdict is true. -/
theorem closed_obligation_reported : tape.Along (System.Executes truthful) (quiet refundWorld) reportedByB :=
  compensate_run_truthful refundWorld reportedByB (by decide +kernel)

end Tape.Compensation.Verdict
