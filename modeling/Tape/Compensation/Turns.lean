import Tape.Compensation.Order
import Tape.Sdk.Due

/-! # Taking turns

What the two ways to drain do, as their own events show it.  `compensate_run` moves its run before it lists the
obligations of it; both list, and then claim what is listed in the order of the listing, one after the other: whatever
comes earlier in the listing and is due was tried before, and what was won was invoked or resolved before the next
claim.
-/

namespace Tape.Compensation

open Interleave

/-- What a drainer has come to in its last listing. -/
structure Turn where
  /-- An `end_run` was executed. -/
  asked : Bool := false
  /-- The run was read, and is there. -/
  found : Bool := false
  rows : List ObligationRecord := []
  /-- What of it was tried. -/
  tried : List (String × Int) := []
  /-- The claim that was won, until its inverse is invoked or the obligation resolved. -/
  hand : Option (String × Int) := none

namespace Turn

def list (t : Turn) (rows : List ObligationRecord) : Turn := { t with rows, tried := [] }

def read (t : Turn) (pk : String × Int) : Option ObligationRecord → Turn
  | none => { t with hand := t.hand.filter fun held => held ≠ pk }
  | some _ => t

def claim (t : Turn) (pk : String × Int) (won : Option (String × Int)) : Turn :=
  { t with tried := pk :: t.tried, hand := won }

def next (t : Turn) (event : TapeEvent) : Turn :=
  match event with
  | ⟨_, .sql (.run (.endRun ..)), .ok _⟩ => { t with asked := true }
  | ⟨_, .sql (.run (.getRun _)), .ok row⟩ => { t with found := t.found || isThere row }
  | ⟨_, .sql (.obligation (.listObligations ..)), .ok rows⟩ => t.list rows
  | ⟨_, .sql (.obligation (.listUnresolved ..)), .ok rows⟩ => t.list rows
  | ⟨_, .sql (.obligation (.claimObligation runId seq ..)), .ok _⟩ => t.claim (runId, seq) (wins event)
  | ⟨_, .sql (.obligation (.getObligation runId seq)), .ok row⟩ => t.read (runId, seq) row
  | ⟨_, .sql (.obligation (.resolve ..)), .ok _⟩ | ⟨_, .outside (.compensator _), _⟩ => { t with hand := none }
  | _ => t
where
  isThere (row : Option RunRow) : Bool := row.isSome

theorem asked_read (t : Turn) (pk : String × Int) (row : Option ObligationRecord) : (t.read pk row).asked = t.asked := by
  cases row with
  | none => rfl
  | some row => rfl

theorem found_read (t : Turn) (pk : String × Int) (row : Option ObligationRecord) : (t.read pk row).found = t.found := by
  cases row with
  | none => rfl
  | some row => rfl

theorem read_of_free {t : Turn} (free : t.hand = none) (pk : String × Int) (row : Option ObligationRecord) :
    t.read pk row = t := by
  cases row with
  | none =>
    obtain ⟨_, _, _, _, hand⟩ := t
    obtain rfl := free
    rfl
  | some row => rfl

/-- A claim whose row is gone leaves nothing in hand. -/
theorem read_claim (t : Turn) {pk : String × Int} {won : Option (String × Int)} (own : ∀ other, won = some other → other = pk) :
    (t.claim pk won).read pk none = t.claim pk none := by
  cases won with
  | none => rfl
  | some other =>
    obtain rfl := own other rfl
    simp [claim, read, Option.filter]

end Turn

def turn (tid : Nat) (log : List TapeEvent) : Turn := ownFold tid Turn.next {} log

theorem turn_push_self (h : TapeHist) (tid : Nat) (act : Act) (res : act.Res) (state : World) :
    turn tid (h.push tid act res state).log = (turn tid h.log).next ⟨tid, act, res⟩ := ownFold_cons_self rfl

theorem turn_push_ne (h : TapeHist) {tid other : Nat} (act : Act) (res : act.Res) (state : World) (ne : other ≠ tid) :
    turn tid (h.push other act res state).log = turn tid h.log := ownFold_cons_ne ne

/-! ## What the drainers ask of themselves -/

/-- The call will find the obligation due, and claimable, by its clocks. -/
def ready (call : Call) (row : ObligationRecord) : Bool :=
  match call with
  | .compensateOnce drainer .. => ObligationStmt.claimable (drainer.claimAt 0 row) row
  | .compensateRun job => row.status = ObligationStatus.pending.code && (List.range (max 1 job.maxPasses)).all fun pass =>
    row.nextAttemptAtMs ≤ job.drainer.sdkNow pass && row.nextAttemptAtMs ≤ job.drainer.claimAt pass row
  | _ => false

/-- What is claimed is the next one of the listing: everything before it that is ready was tried, and nothing is in
    hand. -/
structure InTurn (call : Call) (t : Turn) (pk : String × Int) (now : Int) : Prop where
  free : t.hand = none
  next : ∃ before row after, t.rows = before ++ row :: after ∧ row.pk = pk ∧
    (ready call row → ObligationStmt.claimable now row) ∧ ∀ earlier ∈ before, ready call earlier → earlier.pk ∈ t.tried

/-- What a drainer asks of itself before `act`. -/
def TakesTurn (call : Call) (t : Turn) : Act → Prop
  | .sql (.obligation (.insertObligation _)) => False
  | .sql (.obligation (.claimObligation runId seq _ _ now)) => InTurn call t (runId, seq) now
  | .sql (.obligation (.resolve runId seq ..)) => ∀ pk, t.hand = some pk → pk = (runId, seq)
  | .outside (.compensator ob) => ∀ pk, t.hand = some pk → pk = ob.pk
  | .sql (.run s) => (∀ row, isUnwound row.status → isUnwound (s.apply row).status) ∧ ∀ row, s ≠ .insertRun row
  | _ => True

/-- `compensate_run` moves and lists its own run, and has moved it before it lists. -/
def MovesFirst (runId : String) (t : Turn) : Act → Prop
  | .sql (.run (.endRun r status ..)) => r = runId ∧ isUnwound status
  | .sql (.run (.getRun r)) => r = runId
  | .sql (.obligation (.listObligations r onlyUnresolved statusFilter)) =>
    (r = runId ∧ onlyUnresolved = true ∧ statusFilter = 0) ∧ t.asked = true ∧ t.found = true
  | .sql (.obligation (.listUnresolved ..)) => False
  | _ => True

def isClaim : Act → Bool
  | .sql (.obligation (.claimObligation ..)) => true
  | _ => false

def isRunListing : Act → Bool
  | .sql (.obligation (.listObligations ..)) => true
  | _ => false

/-- Drainers take turns, and nobody else claims anything. -/
def Drains (tid : Nat) (call : Call) (h : TapeHist) (act : Act) : Prop :=
  match call with
  | .compensateRun job => TakesTurn call (turn tid h.log) act ∧ MovesFirst job.runId (turn tid h.log) act
  | .compensateOnce .. => TakesTurn call (turn tid h.log) act ∧ isRunListing act = false
  | _ => isClaim act = false

/-! ## The contract -/

abbrev unwindContract : Nat → Call → Contract World Act Act.Res :=
  tape.tracked (fun _ _ _ _ => True) fun tid call h act => Proper tid h act ∧ Drains tid call h act

/-- An act that asks nothing of the history, and claims nothing. -/
def Harmless (act : Act) : Prop := (∀ tid h, Proper tid h act) ∧ isClaim act = false

theorem harmless_of_neutral (act : Act) (neutral : isNeutral act) : Harmless act := by
  constructor
  · intro tid h
    unfold Proper
    split
    · cases neutral
    · cases neutral
    · cases neutral
    · cases neutral
    · trivial
  · unfold isClaim
    split
    · cases neutral
    · rfl

theorem harmless_of_housekeeping (act : Act) (housekeeping : Housekeeping act) : Harmless act :=
  harmless_of_neutral act (isNeutral_of_housekeeping housekeeping)

/-- A filtered listing is gone through in its order. -/
theorem exists_split_of_filter {p : ObligationRecord → Bool} {rows done rest : List ObligationRecord} {ob : ObligationRecord}
    (split : rows.filter p = done ++ ob :: rest) :
    ∃ before after, rows = before ++ ob :: after ∧ before.filter p = done := by
  obtain ⟨before, tail, rfl, isDone, isRest⟩ := List.filter_eq_append_iff.mp split
  obtain ⟨skipped, after, rfl, unselected, -, -⟩ := List.filter_eq_cons_iff.mp isRest
  refine ⟨before ++ skipped, after, by rw [List.append_assoc], ?_⟩
  have none_ : skipped.filter p = [] := List.filter_eq_nil_iff.mpr unselected
  rw [List.filter_append, isDone, none_, List.append_nil]

section Safety

variable {tid : Nat} {call : Call} {t : Turn} {held : Option (String × Int)} {h : TapeHist}

def isDrainer : Call → Bool
  | .compensateRun _ | .compensateOnce .. => true
  | _ => false

theorem drains_of {act : Act} (drainer : isDrainer call) (takes : TakesTurn call (turn tid h.log) act)
    (moves : ∀ runId, MovesFirst runId (turn tid h.log) act) (unlisted : isRunListing act = false) :
    Drains tid call h act := by
  cases call with
  | compensateRun job => exact ⟨takes, moves job.runId⟩
  | compensateOnce => exact ⟨takes, unlisted⟩
  | _ => cases drainer

/-- What the thread knows of its turn, and of what it has in hand. -/
def At (tid : Nat) (t : Turn) (held : Option (String × Int)) (h : TapeHist) : Prop :=
  turn tid h.log = t ∧ inHand tid h.log = held

theorem inHand_of_foreign {h h' : TapeHist} (foreign : Foreign tid h h') : inHand tid h'.log = inHand tid h.log :=
  foreign.eq_of_ignores fun _ _ other => if_neg other

theorem turn_of_foreign {h h' : TapeHist} (foreign : Foreign tid h h') : turn tid h'.log = turn tid h.log :=
  foreign.ownFold_eq

theorem At.foreign {h h' : TapeHist} (known : At tid t held h) (foreign : Foreign tid h h') : At tid t held h' :=
  ⟨(turn_of_foreign foreign).trans known.1, (inHand_of_foreign foreign).trans known.2⟩

theorem started_of_foreign {h h' : TapeHist} {pk : String × Int} (foreign : Foreign tid h h')
    (earlier : started pk h.log) : started pk h'.log := by
  obtain ⟨event, member, isInverse⟩ := List.any_eq_true.mp earlier
  exact List.any_eq_true.mpr ⟨event, foreign.mem member, isInverse⟩

/-- Whatever it is answered, the act does not move a thread that has come to this turn. -/
structure Silent (t : Turn) (act : Act) : Prop where
  same : ∀ tid res, t.next ⟨tid, act, res⟩ = t
  holds : ∀ tid res held, holdsAfter ⟨tid, act, res⟩ held = held
  proper : ∀ tid h, Proper tid h act
  drains : ∀ {tid call h}, isDrainer call → Drains tid call h act

theorem silent_of_housekeeping (t : Turn) (act : Act) (housekeeping : Housekeeping act) : Silent t act := by
  have proper := (harmless_of_housekeeping act housekeeping).1
  cases housekeeping with
  | bumpSeq runId =>
    refine ⟨fun _ _ => rfl, fun _ _ _ => rfl, proper, fun drainer => drains_of drainer ⟨fun row unwound => ?_, ?_⟩ ?_ rfl⟩
    · rw [RunStmt.apply]
      split
      · exact unwound
      · exact unwound
    · exact fun _ same => by cases same
    · exact fun _ => trivial
  | readSeq runId =>
    refine ⟨fun _ _ => rfl, fun _ _ _ => rfl, proper, fun drainer => drains_of drainer ⟨fun row unwound => unwound, ?_⟩ ?_ rfl⟩
    · exact fun _ same => by cases same
    · exact fun _ => trivial
  | nextGlobalSeq =>
    exact ⟨fun _ _ => rfl, fun _ _ _ => rfl, proper, fun drainer => drains_of drainer trivial (fun _ => trivial) rfl⟩
  | insertEntry row filed =>
    exact ⟨fun _ _ => rfl, fun _ _ _ => rfl, proper, fun drainer => drains_of drainer trivial (fun _ => trivial) rfl⟩

theorem silent_getObligation (free : t.hand = none) (runId : String) (seq : Int) :
    Silent t (.obligation (.getObligation runId seq)) := by
  refine ⟨fun tid res => ?_, fun _ _ _ => rfl, fun _ _ => trivial, fun drainer =>
    drains_of drainer trivial (fun _ => trivial) rfl⟩
  cases res with
  | error e => rfl
  | ok row => exact Turn.read_of_free free _ _

variable (drainer : isDrainer call)

include drainer

theorem safe_silent {α : Type} {program : Prog Act Act.Res α} (all : program.All (Silent t)) (known : At tid t held h) :
    tape.Safe (unwindContract tid call) tid (fun _ h => At tid t held h) program h := by
  refine System.Safe.of_all_knowing (K := unwindContract tid call) (At tid t held)
    (fun foreign known => known.foreign foreign) ?_ (fun _ _ known => known) all known
  intro h act res state silent _ known answers
  refine ⟨⟨act, res, state, rfl, answers, trivial, silent.proper tid h, silent.drains drainer⟩, ?_⟩
  exact ⟨by rw [turn_push_self, known.1, silent.same], by rw [inHand_push_self, known.2, silent.holds]⟩

omit drainer in
/-- A row that is read and is there says nothing new. -/
theorem at_read {runId : String} {seq : Int} {res : Act.Res (.obligation (.getObligation runId seq))} (state : World)
    {existing : ObligationRecord} (isOk : res = .ok (some existing)) (known : At tid t held h) :
    At tid t held (h.push tid (.obligation (.getObligation runId seq)) res state) := by
  constructor
  · rw [turn_push_self, known.1, isOk]
    rfl
  · rw [inHand_push_self, known.2]
    rfl

theorem guar_read {runId : String} {seq : Int} {res : Act.Res (.obligation (.getObligation runId seq))} {state : World}
    (answers : tape.Answers (.obligation (.getObligation runId seq)) h.state res state) :
    (unwindContract tid call).guar h (h.push tid (.obligation (.getObligation runId seq)) res state) :=
  ⟨_, res, state, rfl, answers, trivial, trivial, drains_of drainer trivial (fun _ => trivial) rfl⟩

/-- A claim that was won leaves the obligation in the winner's hand. -/
theorem safe_claimObligation {runId : String} {seq : Int} {claimer : String} {leaseTtlMs nowMs clock : Int}
    (inTurn : InTurn call t (runId, seq) (RunStore.claimTime nowMs clock)) (known : turn tid h.log = t) :
    tape.Safe (unwindContract tid call) tid (fun result h => ∀ acquired row, result = .ok (acquired, row) →
        match acquired, row with
        | true, some current => At tid (t.claim (runId, seq) (some current.pk)) (some current.pk) h ∧ current.pk = (runId, seq)
        | _, _ => turn tid h.log = t.claim (runId, seq) none)
      (RunStore.claimObligation runId seq claimer leaseTtlMs nowMs clock).run h := by
  -- the `UPDATE`, whose count says who won
  refine safe_query (fun _ _ _ _ returned => by cases returned) fun h₁ res₁ state₁ foreign₁ _ answers₁ => ?_
  have here₁ := (turn_of_foreign foreign₁).trans known
  refine ⟨⟨_, res₁, state₁, rfl, answers₁, trivial, trivial,
    drains_of drainer (here₁ ▸ inTurn) (fun _ => trivial) rfl⟩, fun (updated : Nat) isOk₁ => ?_⟩
  obtain ⟨won, isWon⟩ : ∃ won, wins ⟨tid, .obligation (.claimObligation runId seq claimer
    (addI64 (RunStore.claimTime nowMs clock) (RunStore.claimTtl leaseTtlMs)) (RunStore.claimTime nowMs clock)), res₁⟩ = won :=
    ⟨_, rfl⟩
  have known₁ : At tid (t.claim (runId, seq) won) won (h₁.push tid (.obligation (.claimObligation runId seq claimer
      (addI64 (RunStore.claimTime nowMs clock) (RunStore.claimTtl leaseTtlMs)) (RunStore.claimTime nowMs clock))) res₁
        state₁) := by
    constructor
    · rw [turn_push_self, here₁, ← isWon, isOk₁]
      rfl
    · rw [inHand_push_self, ← isWon]
      rfl
  have positive_iff : won = if 0 < updated then some (runId, seq) else none := by
    rw [← isWon, isOk₁]
    simp [wins, wins.isPositive]
  -- the read of the row, with whatever the others did in between
  refine safe_query (fun _ _ _ _ returned => by cases returned) fun h₂ res₂ state₂ foreign₂ _ answers₂ => ?_
  refine ⟨guar_read drainer answers₂, fun row isOk₂ => ?_⟩
  have here₂ := known₁.foreign foreign₂
  cases row with
  | none =>
    -- nothing was found, so nothing is in hand
    have missing : turn tid (h₂.push tid (.obligation (.getObligation runId seq)) res₂ state₂).log =
        t.claim (runId, seq) none := by
      rw [turn_push_self, here₂.1, isOk₂]
      refine Turn.read_claim t fun other isOther => ?_
      rw [positive_iff] at isOther
      split at isOther
      · exact (Option.some.inj isOther).symm
      · cases isOther
    simp only
    split
    · rintro h₃ foreign₃ acquired row ⟨⟩
      exact (turn_of_foreign foreign₃).trans missing
    · rintro h₃ foreign₃ acquired row ⟨⟩
      exact (turn_of_foreign foreign₃).trans missing
  | some current =>
    have known₂ := at_read state₂ isOk₂ here₂
    have key : current.pk = (runId, seq) := by
      rw [isOk₂] at answers₂
      exact Sql.Table.key_of_find? (Except.ok.inj (exec_of_ok answers₂).1).symm
    simp only
    split
    next positive =>
      have isWinner : won = some current.pk := by rw [positive_iff, if_pos positive, key]
      subst isWinner
      -- the winner journals the claim before it returns
      refine System.Safe.exceptBind (fun _ _ _ _ returned => by cases returned)
        ((safe_silent drainer (all_nextSeq (silent_of_housekeeping _) runId) known₂).mono fun _ h₃ known₃ _ _ => ?_)
      refine System.Safe.exceptBind (fun _ _ _ _ returned => by cases returned)
        ((safe_silent drainer (all_journal (silent_of_housekeeping _) _ _ _ _ _ (by constructor)) known₃).mono
          fun _ h₄ known₄ _ _ => ?_)
      rintro h₅ foreign₅ acquired row ⟨⟩
      exact ⟨known₄.foreign foreign₅, key⟩
    next lost =>
      rintro h₃ foreign₃ acquired row ⟨⟩
      have isLost : won = none := by rw [positive_iff, if_neg lost]
      rw [turn_of_foreign foreign₃, known₂.1, isLost]

/-- What is resolved leaves the hand. -/
theorem safe_resolveObligation {runId : String} {seq status : Int} {resultJson : String} {ts : Int}
    (target : ∀ pk, t.hand = some pk → pk = (runId, seq)) (known : At tid t held h) :
    tape.Safe (unwindContract tid call) tid (fun result h => ∀ row, result = .ok (some row) →
      At tid { t with hand := none } none h) (RunStore.resolveObligation runId seq status resultJson ts).run h := by
  refine safe_query (fun _ _ _ returned => by cases returned) fun h₁ res₁ state₁ foreign₁ _ answers₁ => ?_
  refine ⟨guar_read drainer answers₁, fun found isOk₁ => ?_⟩
  have here₁ := known.foreign foreign₁
  cases found with
  | none => exact fun _ _ _ returned => by cases returned
  | some existing =>
    have known₁ := at_read state₁ isOk₁ here₁
    refine safe_query (fun _ _ _ returned => by cases returned) fun h₂ res₂ state₂ foreign₂ _ answers₂ => ?_
    have here₂ := known₁.foreign foreign₂
    refine ⟨⟨_, res₂, state₂, rfl, answers₂, trivial, ?_, drains_of drainer (here₂.1 ▸ target) (fun _ => trivial) rfl⟩,
      fun updated isOk₂ => ?_⟩
    · -- whatever status is asked for, `COMPENSATED` or `STUCK` is written
      simp only [Proper, isClosed]
      split
      next asked => exact asked
      next => rfl
    have known₂ : At tid { t with hand := none } none (h₂.push tid _ res₂ state₂) := by
      constructor
      · rw [turn_push_self, here₂.1, isOk₂]
        rfl
      · rw [inHand_push_self]
        rfl
    refine System.Safe.mono (fun _ _ known _ _ => known) (safe_silent drainer ?_ known₂)
    exact all_journaled (silent_of_housekeeping _) (all_query (silent_getObligation rfl _ _)) fun _ => by constructor

/-- A failed attempt is recorded for an inverse that was invoked. -/
theorem safe_recordObligationAttempt {runId : String} {seq : Int} {error : String} {nextAttemptAtMs ts : Int}
    (free : t.hand = none) (known : At tid t held h) (invoked : started (runId, seq) h.log) :
    tape.Safe (unwindContract tid call) tid (fun _ h => turn tid h.log = t)
      (RunStore.recordObligationAttempt runId seq error nextAttemptAtMs ts).run h := by
  -- every act of the method, once the inverse was invoked
  have all : Prog.All (fun act => (∀ tid res, t.next ⟨tid, act, res⟩ = t) ∧
    (∀ tid h, started (runId, seq) h.log → Proper tid h act) ∧
      ∀ tid h, Drains tid call h act) (RunStore.recordObligationAttempt runId seq error nextAttemptAtMs ts).run := by
    have housekeeping : ∀ act, Housekeeping act → (∀ tid res, t.next ⟨tid, act, res⟩ = t) ∧
        (∀ tid h, started (runId, seq) h.log → Proper tid h act) ∧ ∀ tid h, Drains tid call h act := by
      intro act isHousekeeping
      have silent := silent_of_housekeeping t act isHousekeeping
      exact ⟨silent.same, fun tid h _ => silent.proper tid h, fun _ _ => silent.drains drainer⟩
    have get := silent_getObligation free runId seq
    have reads : (∀ tid res, t.next ⟨tid, .obligation (.getObligation runId seq), res⟩ = t) ∧
      (∀ tid h, started (runId, seq) h.log →
        Proper tid h (.obligation (.getObligation runId seq))) ∧
          ∀ tid h, Drains tid call h (.obligation (.getObligation runId seq)) :=
      ⟨get.same, fun tid h _ => get.proper tid h, fun _ _ => get.drains drainer⟩
    refine .exceptBind (all_query reads) fun found => ?_
    cases found with
    | none => trivial
    | some existing =>
      refine .exceptBind (all_query ⟨fun _ _ => rfl, fun _ _ invoked => invoked, fun _ _ => ?_⟩) fun _ => ?_
      · exact drains_of drainer trivial (fun _ => trivial) rfl
      exact all_journaled housekeeping (all_query reads) fun _ => by constructor
  refine System.Safe.of_all_knowing (K := unwindContract tid call) (fun h => turn tid h.log = t ∧ started (runId, seq) h.log)
    (fun foreign known => ⟨(turn_of_foreign foreign).trans known.1, started_of_foreign foreign known.2⟩) ?_
    (fun _ _ known => known.1) all ⟨known.1, invoked⟩
  intro h act res state ⟨same, proper, drains⟩ _ known answers
  refine ⟨⟨act, res, state, rfl, answers, trivial, proper tid h known.2, drains tid h⟩, ?_, started_push known.2⟩
  rw [turn_push_self, known.1, same]

/-- The inverse is invoked while it is in hand, and whatever comes of it is recorded after that. -/
theorem safe_runInverse (d : Sdk.Drainer) (pass : Nat) {current : ObligationRecord} (hand : t.hand = some current.pk)
    (known : At tid t (some current.pk) h) :
    tape.Safe (unwindContract tid call) tid (fun result h => ∀ outcome, result = .ok outcome →
      turn tid h.log = { t with hand := none }) (Sdk.runInverse d pass current).run h := by
  have target : ∀ pk, t.hand = some pk → pk = current.pk := fun pk same => Option.some.inj (same.symm.trans hand)
  unfold Sdk.runInverse
  split
  · -- no inverse: the obligation is resolved
    refine System.Safe.exceptBind (fun _ _ _ returned => by cases returned) (safe_rpcFound ?_)
    refine (safe_resolveObligation drainer target known).mono fun result h₁ resolved h₂ foreign₂ => ?_
    split
    next row =>
      rintro _ - h₃ foreign₃ outcome -
      exact (((resolved row rfl).foreign foreign₂).foreign foreign₃).1
    all_goals exact fun _ returned => by cases returned
  refine safe_external (fun _ _ _ returned => by cases returned) fun h₁ foreign₁ _ => ?_
  have here₁ := known.foreign foreign₁
  refine ⟨⟨.outside (.compensator current), (), h₁.state, rfl, .exec, trivial, here₁.2,
    drains_of drainer (here₁.1 ▸ target) (fun _ => trivial) rfl⟩, ?_⟩
  have known₁ : At tid { t with hand := none } none (h₁.push tid (.outside (.compensator current)) () h₁.state) := by
    constructor
    · refine (turn_push_self h₁ tid (.outside (.compensator current)) () h₁.state).trans ?_
      rw [here₁.1]
      rfl
    · exact inHand_push_self
  have invoked : started current.pk (h₁.push tid (.outside (.compensator current)) () h₁.state).log :=
    List.any_eq_true.mpr ⟨_, List.mem_cons_self, decide_eq_true rfl⟩
  split
  next error _ =>
    refine System.Safe.exceptBind (fun _ _ _ returned => by cases returned) (safe_rpcFound ?_)
    refine (safe_recordObligationAttempt drainer rfl known₁ invoked).mono fun result h₂ recorded h₃ foreign₃ => ?_
    split
    next row =>
      rintro _ ⟨⟩ h₄ foreign₄ outcome -
      exact (turn_of_foreign foreign₄).trans ((turn_of_foreign foreign₃).trans recorded)
    all_goals exact fun _ returned => by cases returned
  next resultJson _ =>
    refine System.Safe.exceptBind (fun _ _ _ returned => by cases returned) (safe_rpcFound ?_)
    refine (safe_resolveObligation drainer (fun _ none_ => by cases none_) known₁).mono fun result h₂ resolved h₃ foreign₃ => ?_
    split
    next row =>
      rintro _ - h₄ foreign₄ outcome -
      exact (((resolved row rfl).foreign foreign₃).foreign foreign₄).1
    all_goals exact fun _ returned => by cases returned

theorem safe_compensateOne (d : Sdk.Drainer) (pass : Nat) {ob : ObligationRecord}
    (inTurn : InTurn call t ob.pk (d.claimAt pass ob)) (known : turn tid h.log = t) :
    tape.Safe (unwindContract tid call) tid (fun result h => ∀ outcome, result = .ok outcome →
      turn tid h.log = t.claim ob.pk none) (Sdk.compensateOne d pass ob).run h := by
  have isTime : RunStore.claimTime (d.claimAt pass ob) (d.claimAt pass ob) = d.claimAt pass ob := by
    unfold RunStore.claimTime
    split <;> rfl
  refine System.Safe.exceptBind (fun _ _ _ returned => by cases returned) (safe_rpc ?_)
  refine (safe_claimObligation drainer (by rw [isTime]; exact inTurn) known).mono fun result h₁ claimed h₂ foreign₂ => ?_
  cases result with
  | error e => exact fun _ returned => by cases returned
  | ok answer =>
    rintro _ ⟨⟩
    obtain ⟨acquired, row⟩ := answer
    have claimed := claimed acquired row rfl
    have skips : turn tid h₁.log = t.claim ob.pk none → ∀ h₃, Foreign tid h₂ h₃ → ∀ outcome,
        Except.ok (ε := Sdk.Status) Sdk.CompensateOutcome.skipped = .ok outcome → turn tid h₃.log = t.claim ob.pk none :=
      fun skipped h₃ foreign₃ _ _ => (turn_of_foreign foreign₃).trans ((turn_of_foreign foreign₂).trans skipped)
    cases acquired with
    | false => exact skips claimed
    | true =>
      cases row with
      | none => exact skips claimed
      | some current => exact safe_runInverse drainer d pass rfl (claimed.1.foreign foreign₂)

/-- What is due is tried one after the other. -/
theorem safe_compensateAll (d : Sdk.Drainer) (pass : Nat) {p : ObligationRecord → Bool} (isDue : ∀ row, ready call row → p row)
    (claims : ∀ row, ready call row → ObligationStmt.claimable (d.claimAt pass row) row)
    (done : List ObligationRecord) {obligations : List ObligationRecord} (split : t.rows.filter p = done ++ obligations)
    (tried : ∀ ob ∈ done, ob.pk ∈ t.tried) (free : t.hand = none) (known : turn tid h.log = t) :
    tape.Safe (unwindContract tid call) tid (fun result h => ∀ outcomes, result = .ok outcomes →
      ∃ t', turn tid h.log = t' ∧ t'.hand = none ∧ t'.asked = t.asked ∧ t'.found = t.found)
      (Sdk.compensateAll d pass obligations).run h := by
  induction obligations generalizing done t h with
  | nil => exact fun h' foreign _ _ => ⟨t, (turn_of_foreign foreign).trans known, free, rfl, rfl⟩
  | cons ob obligations inductionHypothesis =>
    obtain ⟨before, after, isRows, isDone⟩ := exists_split_of_filter split
    -- what the filter passes over before this row is not ready, and the others were tried
    have inTurn : InTurn call t ob.pk (d.claimAt pass ob) := by
      refine ⟨free, before, ob, after, isRows, rfl, claims ob, fun earlier member isReady => tried earlier ?_⟩
      rw [← isDone]
      exact List.mem_filter.mpr ⟨member, isDue earlier isReady⟩
    refine System.Safe.exceptBind (fun _ _ _ returned => by cases returned)
      ((safe_compensateOne drainer d pass inTurn known).mono fun _ h₁ first outcome isOk => ?_)
    have known₁ : turn tid h₁.log = t.claim ob.pk none := first outcome isOk
    have split₁ : (t.claim ob.pk none).rows.filter p = (done ++ [ob]) ++ obligations := by
      rw [List.append_assoc]
      exact split
    -- this row was tried now
    have tried₁ : ∀ earlier ∈ done ++ [ob], earlier.pk ∈ (t.claim ob.pk none).tried := by
      intro earlier member
      rcases List.mem_append.mp member with before | last
      · exact List.mem_cons_of_mem _ (tried earlier before)
      · rw [List.mem_singleton.mp last]
        exact List.mem_cons_self
    refine System.Safe.exceptBind (fun _ _ _ returned => by cases returned)
      ((inductionHypothesis (done ++ [ob]) split₁ tried₁ rfl known₁).mono fun _ h₂ rest outcomes isOk => ?_)
    obtain ⟨t', known₂, free₂, asked, found⟩ := rest outcomes isOk
    rintro h₃ foreign₃ outcomes -
    exact ⟨t', (turn_of_foreign foreign₃).trans known₂, free₂, asked, found⟩

end Safety

section Drainers

variable {tid : Nat} {t : Turn} {h : TapeHist}

variable {job : Sdk.CompensateRunJob}

/-- The run is moved, and there. -/
structure Begun (t : Turn) : Prop where
  free : t.hand = none
  asked : t.asked = true
  found : t.found = true

theorem safe_endRun {server : Nat} {status ts : Int} {detailJson : String} (unwinds : isUnwound status) (free : t.hand = none)
    (known : turn tid h.log = t) :
    tape.Safe (unwindContract tid (.compensateRun job)) tid (fun result h => ∀ row, result = .ok row → Begun (turn tid h.log))
      (Sdk.Client.endRun server job.runId status detailJson ts).run h := by
  have drainer : isDrainer (.compensateRun job) := rfl
  refine safe_rpcFound (safe_query (fun _ _ _ _ => fun _ returned => by cases returned)
    fun h₁ res₁ state₁ foreign₁ _ answers₁ => ?_)
  have here₁ := (turn_of_foreign foreign₁).trans known
  have keeps : ∀ row, isUnwound row.status → isUnwound ((RunStmt.endRun job.runId status ts detailJson).apply row).status := by
    intro row unwound
    rw [RunStmt.apply]
    split
    · exact unwinds
    · exact unwound
  refine ⟨⟨_, res₁, state₁, rfl, answers₁, trivial, trivial, ⟨keeps, fun _ same => by cases same⟩, rfl, unwinds⟩,
    fun updated isOk₁ => ?_⟩
  have known₁ : At tid { t with asked := true } (inHand tid h₁.log)
      (h₁.push tid (.run (.endRun job.runId status ts detailJson)) res₁ state₁) := by
    refine ⟨?_, inHand_push_self⟩
    rw [turn_push_self, here₁, isOk₁]
    rfl
  have evict : Silent { t with asked := true } (.cache (.evictScopes server job.runId)) :=
    ⟨fun _ _ => rfl, fun _ _ _ => rfl, fun _ _ => trivial, fun drainer => drains_of drainer trivial (fun _ => trivial) rfl⟩
  refine System.Safe.exceptBind (fun _ _ _ _ => fun _ returned => by cases returned)
    ((safe_silent drainer (all_access evict) known₁).mono fun _ h₂ known₂ _ _ => ?_)
  -- the run is read back
  refine safe_query (fun _ _ _ _ => fun _ returned => by cases returned) fun h₃ res₃ state₃ foreign₃ _ answers₃ => ?_
  have here₃ := known₂.foreign foreign₃
  refine ⟨⟨_, res₃, state₃, rfl, answers₃, trivial, trivial, ⟨fun _ unwound => unwound, fun _ same => by cases same⟩, rfl⟩,
    fun found isOk₃ => ?_⟩
  cases found with
  | none => exact fun _ _ _ _ _ returned => by cases returned
  | some current =>
    have known₃ : At tid { t with asked := true, found := true } (inHand tid h₃.log)
        (h₃.push tid (.run (.getRun job.runId)) res₃ state₃) := by
      refine ⟨?_, inHand_push_self⟩
      rw [turn_push_self, here₃.1, isOk₃]
      simp [Turn.next, Turn.next.isThere]
    refine System.Safe.exceptBind (fun _ _ _ _ => fun _ returned => by cases returned)
      ((safe_silent drainer (all_orElse (all_nextSeq (silent_of_housekeeping _) job.runId)) known₃).mono
        fun _ h₄ known₄ _ _ => ?_)
    refine System.Safe.exceptBind (fun _ _ _ _ => fun _ returned => by cases returned)
      ((safe_silent drainer (all_orElse (all_journal (silent_of_housekeeping _) _ _ _ _ _ (by constructor))) known₄).mono
        fun _ h₅ known₅ _ _ => ?_)
    intro h₆ foreign₆ h₇ foreign₇ row _
    rw [turn_of_foreign foreign₇, turn_of_foreign foreign₆, known₅.1]
    exact ⟨free, rfl, rfl⟩

/-- The listing of a run that was moved. -/
theorem safe_listObligations (begun : Begun (turn tid h.log)) :
    tape.Safe (unwindContract tid (.compensateRun job)) tid (fun result h => ∀ rows, result = .ok rows →
      Begun (turn tid h.log) ∧ (turn tid h.log).rows = rows) (Sdk.Client.listObligations job.runId true 0).run h := by
  refine safe_rpc ?_
  intro h₁ foreign₁ _ res₁ state₁ answers₁
  have here₁ := turn_of_foreign foreign₁
  refine ⟨⟨_, res₁, state₁, rfl, answers₁, trivial, trivial, trivial, ⟨rfl, rfl, rfl⟩, ?_⟩, fun h₂ foreign₂ h₃ foreign₃ => ?_⟩
  · rw [here₁]
    exact ⟨begun.asked, begun.found⟩
  cases res₁ with
  | error e => exact fun _ returned => by cases returned
  | ok rows =>
    rintro _ ⟨⟩
    have listed : turn tid (h₁.push tid (.obligation (.listObligations job.runId true 0)) (.ok rows) state₁).log =
        (turn tid h.log).list rows := by
      refine (turn_push_self h₁ tid _ _ state₁).trans ?_
      rw [here₁]
      rfl
    rw [turn_of_foreign foreign₃, turn_of_foreign foreign₂]
    exact listed ▸ ⟨⟨begun.free, begun.asked, begun.found⟩, rfl⟩

theorem safe_compensatePasses {pass fuel : Nat} (within : pass + fuel ≤ max 1 job.maxPasses) (begun : Begun (turn tid h.log)) :
    tape.Safe (unwindContract tid (.compensateRun job)) tid (fun result h => ∀ outcomes, result = .ok outcomes →
      Begun (turn tid h.log)) (Sdk.compensatePasses job.drainer job.runId pass fuel).run h := by
  induction fuel generalizing pass h with
  | zero =>
    intro h' foreign _ _
    rw [turn_of_foreign foreign]
    exact begun
  | succ fuel inductionHypothesis =>
    refine System.Safe.exceptBind (fun _ _ _ returned => by cases returned)
      ((safe_listObligations begun).mono fun _ h₁ listed rows isOk => ?_)
    obtain ⟨begun₁, isRows⟩ := listed rows isOk
    simp only
    split
    · intro h₂ foreign₂ _ _
      rw [turn_of_foreign foreign₂]
      exact begun₁
    -- a row that is ready is due in every pass, by either clock
    have isDue : ∀ row, ready (.compensateRun job) row → row.status = ObligationStatus.pending.code ∧
        row.nextAttemptAtMs ≤ job.drainer.sdkNow pass ∧ row.nextAttemptAtMs ≤ job.drainer.claimAt pass row := by
      intro row isReady
      simp only [ready, Bool.and_eq_true, decide_eq_true_eq, List.all_eq_true, List.mem_range] at isReady
      exact ⟨isReady.1, isReady.2 pass (by omega)⟩
    have claims : ∀ row, ready (.compensateRun job) row → ObligationStmt.claimable (job.drainer.claimAt pass row) row := by
      intro row isReady
      obtain ⟨pending, -, due⟩ := isDue row isReady
      simp [ObligationStmt.claimable, pending, due]
    have selects : ∀ row, ready (.compensateRun job) row → (row.status = ObligationStatus.pending.code &&
        row.nextAttemptAtMs ≤ job.drainer.sdkNow pass) := fun row isReady => by simpa using (isDue row isReady).imp_right And.left
    refine System.Safe.exceptBind (fun _ _ _ returned => by cases returned)
      ((safe_compensateAll rfl job.drainer pass selects claims [] (congrArg (List.filter _) isRows)
        (fun _ member => by cases member)
        begun₁.free rfl).mono fun _ h₂ drained outcomes isOk => ?_)
    obtain ⟨t', known₂, free₂, asked, found⟩ := drained outcomes isOk
    have begun₂ : Begun (turn tid h₂.log) := by
      rw [known₂]
      exact ⟨free₂, asked.trans begun₁.asked, found.trans begun₁.found⟩
    have later : pass + 1 + fuel ≤ max 1 job.maxPasses := by omega
    refine System.Safe.exceptBind (fun _ _ _ returned => by cases returned)
      ((inductionHypothesis later begun₂).mono fun _ h₃ rest _ isOk => ?_)
    intro h₄ foreign₄ _ _
    rw [turn_of_foreign foreign₄]
    exact rest _ isOk

theorem isUnwound_finalStatus (outcomes : List Sdk.CompensateOutcome) (leftover : List ObligationRecord) :
    isUnwound (Sdk.finalStatus outcomes leftover).code := by
  unfold Sdk.finalStatus
  split
  · split
    · rfl
    · rfl
  · rfl

theorem safe_compensateRun (fresh : turn tid h.log = {}) :
    tape.Safe (unwindContract tid (.compensateRun job)) tid (fun _ _ => True) (Sdk.compensateRun job).run h := by
  refine System.Safe.exceptBind (fun _ _ => trivial) ((safe_endRun rfl rfl fresh).mono fun _ h₁ moved row isOk => ?_)
  refine System.Safe.exceptBind (fun _ _ => trivial)
    ((safe_compensatePasses (by omega) (moved row isOk)).mono fun _ h₂ drained outcomes isOk => ?_)
  refine System.Safe.exceptBind (fun _ _ => trivial)
    ((safe_listObligations (drained outcomes isOk)).mono fun _ h₃ listed rows isOk => ?_)
  have free := (listed rows isOk).1.free
  refine System.Safe.exceptBind (fun _ _ => trivial)
    ((safe_endRun (isUnwound_finalStatus ..) free rfl).mono fun _ h₄ _ _ _ => ?_)
  split
  · exact fun _ _ => trivial
  · exact fun _ _ => trivial

end Drainers

/-! ## The deployment -/

end Tape.Compensation
