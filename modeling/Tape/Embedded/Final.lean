import Tape.Embedded.GoService
import Tape.Interleave.Rely

/-! # Outcomes in the embedded stores

An effect that is `CONFIRMED` or `FAILED` has its outcome: the status, the response and the error
that a replay is answered.  `complete_effect` looks at the status before it writes;
`record_dispatch_attempt` and `record_external_observation` write whatever the status is, and a Go
method writes some statements after it has looked.

In the Python service the outcomes of a run are final exactly if each such write repeats what is recorded.
In the Go service they are if each such method says of an outcome that it reads nothing else than
that, and no outcome comes in between its `SELECT` and its `UPDATE`.
-/

namespace Tape.Embedded

open Sql Interleave

/-- What a replay is answered. -/
structure Outcome where
  status : EffectStatus
  responseJson : Json
  errorJson : Json

def StorageEffect.outcome (row : StorageEffect) : Outcome := ⟨row.status, row.responseJson, row.errorJson⟩

/-- The outcomes of `s` are those of `s'`. -/
def KeepsOutcomes (s s' : Store) : Prop :=
  ∀ session key row, s.effect session key = some row → row.status.isTerminal →
    ∃ row', s'.effect session key = some row' ∧ row'.outcome = row.outcome

theorem KeepsOutcomes.refl (s : Store) : KeepsOutcomes s s := fun _ _ row found _ => ⟨row, found, rfl⟩

theorem status_of_outcome {row row' : StorageEffect} (same : row'.outcome = row.outcome) : row'.status = row.status :=
  congrArg Outcome.status same

theorem KeepsOutcomes.trans {a b c : Store} (first : KeepsOutcomes a b) (second : KeepsOutcomes b c) : KeepsOutcomes a c := by
  intro session key row found terminal
  obtain ⟨row', found', same⟩ := first session key row found terminal
  obtain ⟨row'', found'', same'⟩ := second session key row' found' (by rw [status_of_outcome same]; exact terminal)
  exact ⟨row'', found'', same'.trans same⟩

/-- Where a call leaves all effects but one, only that one can lose its outcome. -/
theorem keepsOutcomes_iff {s s' : Store} {session : SessionKey} {key : String}
    (others : ∀ session' key', (session', key') ≠ (session, key) → s'.effect session' key' = s.effect session' key')
    {change : StorageEffect → StorageEffect}
    (own : ∀ row, s.effect session key = some row → s'.effect session key = some (change row)) :
    KeepsOutcomes s s' ↔
      ∀ row, s.effect session key = some row → row.status.isTerminal → (change row).outcome = row.outcome := by
  constructor
  · intro keeps row found terminal
    obtain ⟨row', found', same⟩ := keeps session key row found terminal
    rw [own row found, Option.some.injEq] at found'
    rw [found']
    exact same
  · intro keeps session' key' row found terminal
    by_cases same : (session', key') = (session, key)
    · obtain ⟨rfl, rfl⟩ := Prod.mk.inj same
      exact ⟨change row, own row found, keeps row found terminal⟩
    · exact ⟨row, by rw [others session' key' same, found], rfl⟩

/-! ## The Python service -/

/-- The observation says of a recorded outcome what is recorded. -/
def Observation.Repeats (o : Observation) (row : StorageEffect) : Prop :=
  match o.resolution with
  | .confirmed | .duplicate => row.status = .confirmed ∧ o.responseJson = row.responseJson
  | .failed => row.status = .failed ∧ o.errorJson = row.errorJson
  | .absent => row.semantics ≠ .nonIdempotent ∧ (o.errorJson = .null ∨ o.errorJson = row.errorJson)
  | .stuck => row.status = .failed ∧ (if truthy o.errorJson then o.errorJson else stuckError) = row.errorJson
  | .other _ => True

/-- A report on an effect that has its outcome asks for no reconciliation, and an observation repeats
    the outcome or is refused with the obligation it would register. -/
def LedgerCall.Repeats (s : Store) : LedgerCall → Prop
  | .attempt session key _ nextDispatchAtMs _ =>
    ∀ row, s.effect session key = some row → row.status.isTerminal → 0 < nextDispatchAtMs
  | .observe session key o _ =>
    ∀ row, s.effect session key = some row → row.status.isTerminal → o.Repeats row ∨ refusedWith s o row
  | _ => True

section Python

variable {s : Store} {session session' : SessionKey} {key key' : String} {row : StorageEffect}

theorem outcome_observation_iff (o : Observation) (now : Int) (row : StorageEffect) (terminal : row.status.isTerminal) :
    ((if (o.apply row).isNone then row else (o.update now).apply row).outcome = row.outcome) ↔ o.Repeats row := by
  cases resolution : o.resolution with
  | confirmed | duplicate | failed | stuck =>
    simp only [Observation.apply, Observation.update, Observation.Repeats, resolution, StorageEffect.outcome]
    simp only [Option.isNone_some, Bool.false_eq_true, if_false, Option.getD_some, Outcome.mk.injEq, and_true, true_and]
    constructor
    · intro repeated
      exact ⟨repeated.1.symm, repeated.2⟩
    · intro repeated
      exact ⟨repeated.1.symm, repeated.2⟩
  | other text => simp [Observation.apply, Observation.Repeats, resolution]
  | absent =>
    -- an outcome is no `UNKNOWN`, so a `NON_IDEMPOTENT` effect would lose it
    have known : row.status ≠ .unknown := by
      intro unknown
      rw [unknown] at terminal
      cases terminal
    by_cases semantics : row.semantics = .nonIdempotent
    · simp [Observation.apply, Observation.update, Observation.Repeats, resolution, StorageEffect.outcome, semantics,
        known.symm]
    · cases error : o.errorJson <;>
        simp [Observation.apply, Observation.update, Observation.Repeats, resolution, StorageEffect.outcome, semantics,
          error]

/-- What one call does to the outcomes. -/
theorem keepsOutcomes_serve_iff (s : Store) (call : LedgerCall) : KeepsOutcomes s (call.serve s) ↔ call.Repeats s := by
  cases call with
  | begin_ r now =>
    exact ⟨fun _ => trivial, fun _ _ _ row found _ => ⟨row, effect_beginEffect found r now, rfl⟩⟩
  | complete session key status responseJson errorJson now =>
    refine ⟨fun _ => trivial, fun _ => ?_⟩
    by_cases valid : status = .pending
    · simp [LedgerCall.serve, completeEffect, valid, KeepsOutcomes.refl]
    · refine (keepsOutcomes_iff (fun _ _ => (writesOnly_completeEffect ..).effect_ne)
        fun row found => effect_completeEffect found valid responseJson errorJson now).mpr fun row _ terminal => ?_
      have settled : row.status ≠ .pending := by
        intro pending
        rw [pending] at terminal
        cases terminal
      rw [if_neg settled]
  | claim session key claimer leaseTtlMs nowMs clock =>
    refine ⟨fun _ => trivial, fun _ => ?_⟩
    refine (keepsOutcomes_iff (fun _ _ => (writesOnly_claimEffectDispatch ..).effect_ne)
      fun row found => effect_claimEffectDispatch found claimer leaseTtlMs nowMs clock).mpr fun row _ _ => ?_
    split <;> rfl
  | attempt session key error nextDispatchAtMs now =>
    refine (keepsOutcomes_iff (fun _ _ => (writesOnly_recordDispatchAttempt ..).effect_ne)
      fun row found => effect_recordDispatchAttempt found error nextDispatchAtMs now).trans ?_
    refine forall_congr' fun row => forall_congr' fun _ => forall_congr' fun terminal => ?_
    by_cases scheduled : 0 < nextDispatchAtMs
    · have kept : ¬ nextDispatchAtMs ≤ 0 := by omega
      simp [dispatchAttempt, StorageEffect.outcome, kept, scheduled]
    · -- the status would be `UNKNOWN`
      have known : EffectStatus.unknown ≠ row.status := by
        intro unknown
        rw [← unknown] at terminal
        cases terminal
      simp [dispatchAttempt, StorageEffect.outcome, known, scheduled, show nextDispatchAtMs ≤ 0 by omega]
  | observe session key o now =>
    refine (keepsOutcomes_iff (fun _ _ => (writesOnly_recordExternalObservation ..).effect_ne)
      fun row found => effect_recordExternalObservation found o now).trans ?_
    refine forall_congr' fun row => forall_congr' fun _ => forall_congr' fun terminal => ?_
    by_cases refused : refusedWith s o row
    · simp [refused]
    · simp only [refused, or_false, Bool.false_eq_true]
      exact outcome_observation_iff o now row terminal

end Python

/-! ## The Go service -/

namespace Go

abbrev ServiceHist : Type := Hist Store Stmt Stmt.Res

abbrev ServiceEvent : Type := Event Stmt Stmt.Res

/-- How far a method has come: it has executed nothing yet, it has read the effect, or it has gone on. -/
inductive Progress where
  | begun
  | read (row : StorageEffect)
  | past

namespace Progress

def ofFound : Option StorageEffect → Progress
  | some row => read row
  | none => past

def next : Progress → ServiceEvent → Progress
  | begun, ⟨_, .getEffect _ _, .ok found⟩ => ofFound found
  | _, _ => past

end Progress

def progress (tid : Nat) (log : List ServiceEvent) : Progress := ownFold tid Progress.next .begun log

/-- The statement writes a status. -/
def isWrite : Stmt → Bool
  | .setCompletion .. | .setAttempt .. | .commitObservation .. => true
  | .getEffect .. | .claimDispatch .. => false

/-! ### The conditions -/

/-- What a JSON column is when it was read and is written back. -/
def rewritten (unmarshal : Json → Json) (value : Json) : Json := Stmt.jsonOrNil (decodeJSON unmarshal value)

/-- The observation says of a recorded outcome what is recorded, and what it leaves is written back as it was. -/
def observationRepeats (unmarshal : Json → Json) (o : Observation) (row : StorageEffect) : Prop :=
  match o.resolution with
  | .confirmed | .duplicate => row.status = .confirmed ∧ Stmt.jsonOrNil o.responseJson = row.responseJson ∧
    rewritten unmarshal row.errorJson = row.errorJson
  | .failed => row.status = .failed ∧ rewritten unmarshal row.responseJson = row.responseJson ∧
    Stmt.jsonOrNil o.errorJson = row.errorJson
  | .absent => row.semantics ≠ .nonIdempotent ∧ rewritten unmarshal row.responseJson = row.responseJson ∧
    (if o.errorJson matches .null then rewritten unmarshal row.errorJson else Stmt.jsonOrNil o.errorJson) = row.errorJson
  | .stuck => row.status = .failed ∧ rewritten unmarshal row.responseJson = row.responseJson ∧
    Stmt.jsonOrNil (if o.errorJson matches .null then stuckError else o.errorJson) = row.errorJson
  | .other _ => True

/-- What a call may say of an effect that has its outcome. -/
def Call.Repeats (unmarshal : Json → Json) (s : Store) (row : StorageEffect) : Call → Prop
  | recordDispatchAttempt _ _ _ nextDispatchAtMs _ => 0 < nextDispatchAtMs
  | recordExternalObservation _ _ o _ => observationRepeats unmarshal o row ∨ refusedWith s o row
  | completeEffect .. | claimEffectDispatch .. => True

/-- A method writes of an outcome that it has read nothing else than that, and no outcome has come in since it read
    that there is none. -/
structure Informed (unmarshal : Json → Json) (tid : Nat) (call : Call) (h : ServiceHist) (stmt : Stmt) : Prop where
  repeats : isWrite stmt → ∀ row, progress tid h.log = .read row → row.status.isTerminal →
    call.Repeats unmarshal h.state row
  unovertaken : isWrite stmt → ∀ row, progress tid h.log = .read row → ¬ row.status.isTerminal →
    ∀ row', h.state.effect row.session row.idempotencyKey = some row' → ¬ row'.status.isTerminal

/-! ### What the methods write -/

def Call.target : Call → SessionKey × String
  | completeEffect session key .. | claimEffectDispatch session key .. | recordDispatchAttempt session key ..
  | recordExternalObservation session key .. => (session, key)

/-- What the method writes when it has read `row`. -/
def Call.write (unmarshal : Json → Json) (row : StorageEffect) : Call → Option Stmt
  | completeEffect session key status responseJson errorJson now =>
    if row.status = .pending then some (.setCompletion session key status responseJson errorJson now) else none
  | claimEffectDispatch .. => none
  | recordDispatchAttempt session key errMsg nextDispatchAtMs now =>
    some (.setAttempt session key (row.dispatchAttempts + 1) (orNone (some errMsg))
      (if nextDispatchAtMs ≤ 0 then .unknown else row.status) (if nextDispatchAtMs ≤ 0 then 0 else nextDispatchAtMs) now)
  | recordExternalObservation session key o now => (observedColumns o (scanEffect unmarshal row)).map fun columns =>
    .commitObservation session key columns
      (if o.compensates then some (duplicateObligation o (scanEffect unmarshal row) now .empty) else none) now

/-- A method writes once, what it makes of the row it has read. -/
def Writes (unmarshal : Json → Json) (tid : Nat) (call : Call) (h : ServiceHist) (stmt : Stmt) : Prop :=
  isWrite stmt → ∃ row, progress tid h.log = .read row ∧ row.pk = call.target ∧ call.write unmarshal row = some stmt

section Methods

variable {unmarshal : Json → Json} {tid : Nat} {call : Call} {h : ServiceHist} {β : Type} {session : SessionKey} {key : String}

abbrev writeContract (unmarshal : Json → Json) : Nat → Call → Contract Store Stmt Stmt.Res :=
  (service unmarshal).tracked (fun _ _ _ _ => True) (Writes unmarshal)

theorem progress_of_foreign {h h' : ServiceHist} (foreign : Foreign tid h h') : progress tid h'.log = progress tid h.log :=
  foreign.ownFold_eq

theorem progress_push_self (h : ServiceHist) (tid : Nat) (stmt : Stmt) (res : stmt.Res) (state : Store) :
    progress tid (h.push tid stmt res state).log = (progress tid h.log).next ⟨tid, stmt, res⟩ := ownFold_cons_self rfl

theorem progress_push_ne (h : ServiceHist) {tid other : Nat} (stmt : Stmt) (res : stmt.Res) (state : Store) (ne : other ≠ tid) :
    progress tid (h.push other stmt res state).log = progress tid h.log := ownFold_cons_ne ne

theorem safe_of_unwriting {α : Type} {program : Prog Stmt Stmt.Res α} (all : program.All fun stmt => isWrite stmt = false)
    (h : ServiceHist) : (service unmarshal).Safe (writeContract unmarshal tid call) tid (fun _ _ => True) program h := by
  refine System.Safe.of_all_proper (fun _ _ => trivial) (all.mono fun stmt unwriting h writes => ?_) h
  rw [unwriting] at writes
  cases writes

theorem all_getEffect : (getEffect unmarshal session key).run.All fun stmt => isWrite stmt = false :=
  .exceptBind ⟨rfl, fun _ => trivial⟩ fun _ => trivial

theorem answers_cases {stmt : Stmt} {res : stmt.Res} {s s' : Store} (answers : (service unmarshal).Answers stmt s res s') :
    res = (stmt.exec s).1 ∧ s' = (stmt.exec s).2 ∨ stmt.fault = some res ∧ s' = s := by
  cases answers with
  | exec => exact .inl ⟨rfl, rfl⟩
  | fault failed => exact .inr ⟨failed, rfl⟩

theorem found_of_answers {s s' : Store} {found : Option StorageEffect}
    (answers : (service unmarshal).Answers (.getEffect session key) s (.ok found) s') : found = s.effect session key := by
  cases answers_cases answers with
  | inl executed => exact Except.ok.inj executed.1
  | inr failed => cases failed.1

/-- A method begins with the effect as it is. -/
theorem safe_getEffect {f : Option StorageEffect → GoM β} (target : call.target = (session, key))
    (begun : progress tid h.log = .begun) (absent : (f none).run.All fun stmt => isWrite stmt = false)
    (found : ∀ row h, progress tid h.log = .read row → row.pk = call.target →
      (service unmarshal).Safe (writeContract unmarshal tid call) tid (fun _ _ => True)
      (f (some (scanEffect unmarshal row))).run h) :
    (service unmarshal).Safe (writeContract unmarshal tid call) tid (fun _ _ => True)
      (getEffect unmarshal session key >>= f).run h := by
  have read : (service unmarshal).Safe (writeContract unmarshal tid call) tid (fun result h => ∀ row, result = .ok row →
      row = none ∨ ∃ stored, row = some (scanEffect unmarshal stored) ∧ progress tid h.log = .read stored ∧
        stored.pk = call.target) (getEffect unmarshal session key).run h := by
    refine System.Safe.exceptBind (fun _ _ _ returned => by cases returned) ?_
    intro h₁ foreign₁ _ res state answers
    refine ⟨⟨.getEffect session key, res, state, rfl, answers, trivial, fun writes => by cases writes⟩,
      fun h₂ foreign₂ value isOk => ?_⟩
    subst isOk
    have here : progress tid h₂.log = Progress.ofFound value := by
      refine (progress_of_foreign foreign₂).trans ((progress_push_self h₁ tid _ _ state).trans ?_)
      rw [progress_of_foreign foreign₁, begun]
      rfl
    have isFound := found_of_answers answers
    rintro h₃ foreign₃ row ⟨⟩
    cases value with
    | none => exact .inl rfl
    | some stored =>
      refine .inr ⟨stored, rfl, (progress_of_foreign foreign₃).trans here, ?_⟩
      rw [target]
      exact Table.key_of_find? isFound.symm
  refine System.Safe.exceptBind (fun _ _ => trivial) (read.mono fun result h₁ known row isOk => ?_)
  obtain rfl | ⟨stored, rfl, isRead, isTarget⟩ := known row isOk
  · exact safe_of_unwriting absent h₁
  · exact found stored h₁ isRead isTarget

/-- What is written follows the read. -/
theorem safe_write {stmt : Stmt} {row : StorageEffect} {f : stmt.Value → GoM β} (isRead : progress tid h.log = .read row)
    (isTarget : row.pk = call.target) (writes : call.write unmarshal row = some stmt)
    (rest : ∀ value, (f value).run.All fun stmt => isWrite stmt = false) :
    (service unmarshal).Safe (writeContract unmarshal tid call) tid (fun _ _ => True) (query stmt >>= f).run h := by
  refine System.Safe.exceptBind (fun _ _ => trivial) ?_
  intro h₁ foreign₁ _ res state answers
  refine ⟨⟨stmt, res, state, rfl, answers, trivial, fun _ =>
    ⟨row, (progress_of_foreign foreign₁).trans isRead, isTarget, writes⟩⟩, ?_⟩
  exact fun h₂ _ value _ => safe_of_unwriting (rest value) h₂

theorem safe_body (begun : progress tid h.log = .begun) :
    (service unmarshal).Safe (writeContract unmarshal tid call) tid (fun _ _ => True) (call.body unmarshal) h := by
  cases call with
  | completeEffect session key status responseJson errorJson now =>
    change (service unmarshal).Safe _ tid _ (Go.completeEffect unmarshal session key status responseJson errorJson now).run h
    unfold Go.completeEffect
    split
    · exact fun _ _ => trivial
    refine safe_getEffect rfl begun trivial fun row h isRead isTarget => ?_
    simp only
    split
    · exact fun _ _ => trivial
    next pending =>
      have isPending : row.status = .pending := not_not.mp pending
      exact safe_write isRead isTarget (if_pos isPending) fun _ => all_getEffect
  | claimEffectDispatch session key claimer leaseTtlMs nowOverrideMs clock =>
    refine safe_of_unwriting ?_ h
    exact .exceptBind ⟨rfl, fun _ => trivial⟩ fun _ => .exceptBind all_getEffect fun _ => trivial
  | recordDispatchAttempt session key errMsg nextDispatchAtMs now =>
    refine safe_getEffect rfl begun trivial fun row h isRead isTarget => ?_
    exact safe_write isRead isTarget rfl fun _ => all_getEffect
  | recordExternalObservation session key o now =>
    refine safe_getEffect rfl begun trivial fun row h isRead isTarget => ?_
    simp only
    split
    · exact fun _ _ => trivial
    next columns isColumns =>
      exact safe_write isRead isTarget (congrArg (Option.map _) isColumns) fun _ => all_getEffect

end Methods

theorem write_compose (unmarshal : Json → Json) :
    System.Compose (service unmarshal) (fun _ => True) (writeContract unmarshal) fun _ _ _ _ => True :=
  System.tracked_compose fun _ fresh => safe_body (ownFold_of_fresh fresh)

/-- The status, response and error that a statement writes are those of the row. -/
def writesBack (status : EffectStatus) (responseJson errorJson : Json) (row : StorageEffect) : Prop :=
  status = row.status ∧ Stmt.jsonOrNil responseJson = row.responseJson ∧ Stmt.jsonOrNil errorJson = row.errorJson

/-- A statement that writes an effect with an outcome writes the outcome back, or is refused with the
    obligation it would register. -/
def Stmt.Repeats (s : Store) : Stmt → Prop
  | .setCompletion session key status responseJson errorJson _ =>
    ∀ row, s.effect session key = some row → row.status.isTerminal → writesBack status responseJson errorJson row
  | .setAttempt session key _ _ status _ _ =>
    ∀ row, s.effect session key = some row → row.status.isTerminal → status = row.status
  | .commitObservation session key columns obligation _ =>
    ∀ row, s.effect session key = some row → row.status.isTerminal →
      writesBack columns.status columns.responseJson columns.errorJson row ∨
        obligation.any fun o => s.obligations.rows.any (sameObligation o)
  | .getEffect .. | .claimDispatch .. => True

/-- A statement's `UPDATE` keeps the outcomes exactly if it keeps that of its row. -/
theorem keepsOutcomes_writeEffect_iff (s : Store) (session : SessionKey) (key : String) (u : Update StorageEffect.pk) :
    KeepsOutcomes s (s.writeEffect session key u) ↔
      ∀ row, s.effect session key = some row → row.status.isTerminal → (u.apply row).outcome = row.outcome :=
  keepsOutcomes_iff (fun _ _ => s.effect_writeEffect_ne u) fun _ found => s.effect_writeEffect_self found u

/-- What one statement does to the outcomes. -/
theorem keepsOutcomes_exec_iff (stmt : Stmt) (s : Store) : KeepsOutcomes s (stmt.exec s).2 ↔ stmt.Repeats s := by
  cases stmt with
  | getEffect session key => exact ⟨fun _ => trivial, fun _ => .refl s⟩
  | setCompletion session key status responseJson errorJson now =>
    refine (keepsOutcomes_writeEffect_iff ..).trans ?_
    simp [Stmt.Repeats, Stmt.set, completion, StorageEffect.outcome, writesBack]
  | setAttempt session key attempts error status next now =>
    refine (keepsOutcomes_writeEffect_iff ..).trans ?_
    simp [Stmt.Repeats, Stmt.set, StorageEffect.outcome]
  | claimDispatch session key claimer expires now =>
    -- a claim writes none of the three columns
    refine ⟨fun _ => trivial, fun _ => ?_⟩
    simp only [Stmt.exec]
    split
    · refine (keepsOutcomes_writeEffect_iff ..).mpr fun row _ _ => rfl
    · exact .refl s
  | commitObservation session key columns obligation now =>
    have written : (∀ row, s.effect session key = some row → row.status.isTerminal →
        ((Stmt.commitObservation session key columns obligation now).set.apply row).outcome = row.outcome) ↔
          ∀ row, s.effect session key = some row → row.status.isTerminal →
            writesBack columns.status columns.responseJson columns.errorJson row := by
      simp [Stmt.set, StorageEffect.outcome, writesBack]
    cases obligation with
    | none =>
      simp only [Stmt.Repeats, Option.any_none, Bool.false_eq_true, or_false]
      exact (keepsOutcomes_writeEffect_iff ..).trans written
    | some o =>
      have inserted := numbered_inserted_iff o s
      simp only [Stmt.Repeats, Stmt.exec, Option.any_some]
      split
      next registered isInsert =>
        rw [isInsert] at inserted
        -- the transaction goes through, so the columns decide
        have allowed : s.obligations.rows.any (sameObligation o) = false := inserted.mp rfl
        simp only [allowed, Bool.false_eq_true, or_false]
        exact (keepsOutcomes_writeEffect_iff ..).trans written
      next isRefused =>
        rw [isRefused] at inserted
        -- the transaction is undone
        have refused : s.obligations.rows.any (sameObligation o) = true := by simpa using inserted
        exact ⟨fun _ _ _ _ => .inr refused, fun _ => .refl s⟩

/-- What one choice does to the outcomes: a statement that failed has done nothing. -/
theorem keepsOutcomes_step_iff (unmarshal : Json → Json) (c : ServiceConfig) (choice : Choice Call) :
    KeepsOutcomes c.state ((service unmarshal).step c choice).state ↔
      System.Executes (fun _ _ h stmt => Stmt.Repeats h.state stmt) c choice := by
  cases choice with
  | spawn call => exact ⟨fun _ => trivial, fun _ => .refl _⟩
  | fault tid =>
    rw [(service unmarshal).step_fault_state]
    exact ⟨fun _ => trivial, fun _ => .refl _⟩
  | exec tid =>
    cases pending : c.pending tid with
    | none =>
      rw [(service unmarshal).step_exec_of_idle pending]
      simp [System.Executes, pending, KeepsOutcomes.refl]
    | some next =>
      obtain ⟨call, stmt⟩ := next
      have left : ((service unmarshal).step c (.exec tid)).state = (stmt.exec c.state).2 :=
        congrArg Hist.state ((service unmarshal).step_exec_of_pending pending)
      rw [left]
      simp only [System.Executes, pending]
      exact keepsOutcomes_exec_iff stmt c.state

/-! ### What was read stays -/

theorem sequential_along {S : System Store Stmt Stmt.Res Call Call.Out} {ok : ServiceConfig → Choice Call → Prop}
    {c : ServiceConfig} {choices : List (Choice Call)} (along : S.Along ok c choices) :
    Sequential.Along S.step ok c choices := by
  induction choices generalizing c with
  | nil => trivial
  | cons choice choices inductionHypothesis => exact ⟨along.1, inductionHypothesis along.2⟩

/-- An outcome that a method has read, and not yet written, is what is recorded. -/
def ReadStays (h : ServiceHist) : Prop :=
  ∀ tid row, progress tid h.log = .read row → row.status.isTerminal →
    ∃ row', h.state.effect row.session row.idempotencyKey = some row' ∧ row'.outcome = row.outcome

section Stays

variable {unmarshal : Json → Json} {tid : Nat} {call : Call} {h : ServiceHist} {stmt : Stmt} {row : StorageEffect}

theorem writesBack_of_repeats {o : Observation} {columns : ObservedColumns}
    (isColumns : observedColumns o (scanEffect unmarshal row) = some columns) (repeats : observationRepeats unmarshal o row) :
    writesBack columns.status columns.responseJson columns.errorJson row := by
  unfold observationRepeats at repeats
  unfold observedColumns at isColumns
  cases resolution : o.resolution with
  | confirmed | duplicate =>
    simp only [resolution, Option.some.injEq] at repeats isColumns
    subst isColumns
    exact ⟨repeats.1.symm, repeats.2.1, repeats.2.2⟩
  | failed =>
    simp only [resolution, Option.some.injEq] at repeats isColumns
    subst isColumns
    exact ⟨repeats.1.symm, repeats.2.1, repeats.2.2⟩
  | stuck =>
    simp only [resolution, Option.some.injEq] at repeats isColumns
    subst isColumns
    exact ⟨repeats.1.symm, repeats.2.1, repeats.2.2⟩
  | absent =>
    simp only [resolution, Option.some.injEq] at repeats isColumns
    subst isColumns
    refine ⟨if_neg repeats.1, repeats.2.1, Eq.trans ?_ repeats.2.2⟩
    exact apply_ite Stmt.jsonOrNil _ _ _
  | other text => simp [resolution] at isColumns

/-- A method that is informed writes back what is recorded. -/
theorem repeats_of_informed (informed : Informed unmarshal tid call h stmt) (writes : Writes unmarshal tid call h stmt)
    (stays : ReadStays h) : Stmt.Repeats h.state stmt := by
  by_cases isWriting : isWrite stmt
  · obtain ⟨row, isRead, isTarget, isWrite⟩ := writes isWriting
    -- an outcome that is there now was there when the method read the row
    have recorded : ∀ row', h.state.effect row.session row.idempotencyKey = some row' → row'.status.isTerminal →
        row.status.isTerminal ∧ row'.outcome = row.outcome := by
      intro row' found terminal'
      have terminal : row.status.isTerminal := by
        by_contra isOpen
        exact informed.unovertaken isWriting row isRead isOpen row' found terminal'
      obtain ⟨row'', found'', same⟩ := stays tid row isRead terminal
      obtain rfl := Option.some.inj (found.symm.trans found'')
      exact ⟨terminal, same⟩
    have repeats := informed.repeats isWriting row isRead
    cases call with
    | completeEffect session key status responseJson errorJson now =>
      obtain ⟨rfl, rfl⟩ := Prod.mk.inj isTarget
      simp only [Call.write] at isWrite
      split at isWrite
      next isPending =>
        obtain rfl := Option.some.inj isWrite
        intro row' found terminal'
        have terminal := (recorded row' found terminal').1
        -- a completion writes only over a row it read as PENDING
        rw [isPending] at terminal
        cases terminal
      next => cases isWrite
    | claimEffectDispatch => cases isWrite
    | recordDispatchAttempt session key errMsg nextDispatchAtMs now =>
      obtain ⟨rfl, rfl⟩ := Prod.mk.inj isTarget
      obtain rfl := Option.some.inj isWrite
      intro row' found terminal'
      obtain ⟨terminal, same⟩ := recorded row' found terminal'
      -- a scheduled retry leaves the status of the row
      have scheduled : ¬ nextDispatchAtMs ≤ 0 := not_le.mpr (repeats terminal)
      rw [if_neg scheduled]
      exact (status_of_outcome same).symm
    | recordExternalObservation session key o now =>
      obtain ⟨rfl, rfl⟩ := Prod.mk.inj isTarget
      obtain ⟨columns, isColumns, rfl⟩ := Option.map_eq_some_iff.mp isWrite
      intro row' found terminal'
      obtain ⟨terminal, same⟩ := recorded row' found terminal'
      cases repeats terminal with
      | inl repeated =>
        obtain ⟨isStatus, isResponse, isError⟩ := writesBack_of_repeats isColumns repeated
        have outcome := Outcome.mk.inj same
        exact .inl ⟨isStatus.trans outcome.1.symm, isResponse.trans outcome.2.1.symm, isError.trans outcome.2.2.symm⟩
      | inr refused =>
        right
        -- the obligation exists, and the transaction rolls back
        obtain ⟨compensates, clash⟩ := Bool.and_eq_true_iff.mp refused
        rw [if_pos compensates, Option.any_some]
        exact clash
  · cases stmt with
    | getEffect | claimDispatch => trivial
    | _ => exact absurd rfl isWriting

theorem read_of_next {progress : Progress} {res : stmt.Res} (isRead : progress.next ⟨tid, stmt, res⟩ = .read row) :
    ∃ session key, (⟨tid, stmt, res⟩ : ServiceEvent) = ⟨tid, .getEffect session key, .ok (some row)⟩ := by
  unfold Progress.next at isRead
  split at isRead
  next _ session key found same =>
    cases same
    cases found with
    | none => cases isRead
    | some stored =>
      cases isRead
      exact ⟨session, key, rfl⟩
  next => cases isRead

/-- What a `SELECT` has just read is what is recorded. -/
theorem found_of_next {progress : Progress} (isRead : progress.next ⟨tid, stmt, (stmt.exec h.state).1⟩ = .read row) :
    (stmt.exec h.state).2.effect row.session row.idempotencyKey = some row := by
  cases stmt with
  | getEffect session key =>
    have here : h.state.effect session key = some row := by
      change progress.next ⟨tid, .getEffect session key, .ok (h.state.effect session key)⟩ = .read row at isRead
      generalize h.state.effect session key = found at isRead ⊢
      obtain ⟨_, _, same⟩ := read_of_next isRead
      cases same
      rfl
    have isKey : row.pk = (session, key) := Table.key_of_find? here
    obtain ⟨rfl, rfl⟩ := Prod.mk.inj isKey
    exact here
  | _ =>
    obtain ⟨session', key', same⟩ := read_of_next isRead
    cases same

theorem ReadStays.push_exec (stays : ReadStays h) (repeats : Stmt.Repeats h.state stmt) :
    ReadStays (h.push tid stmt (stmt.exec h.state).1 (stmt.exec h.state).2) := by
  intro other row isRead terminal
  by_cases own : other = tid
  · subst own
    rw [progress_push_self] at isRead
    exact ⟨row, found_of_next isRead, rfl⟩
  · rw [progress_push_ne h stmt _ _ (Ne.symm own)] at isRead
    obtain ⟨row', found, same⟩ := stays other row isRead terminal
    have terminal' : row'.status.isTerminal := by
      rw [status_of_outcome same]
      exact terminal
    obtain ⟨row'', found'', same'⟩ := (keepsOutcomes_exec_iff stmt h.state).mpr repeats _ _ row' found terminal'
    exact ⟨row'', found'', same'.trans same⟩

theorem ReadStays.push_fault {res : stmt.Res} (stays : ReadStays h) (failed : stmt.fault = some res) :
    ReadStays (h.push tid stmt res h.state) := by
  intro other row isRead terminal
  by_cases own : other = tid
  · subst own
    rw [progress_push_self] at isRead
    obtain ⟨session, key, same⟩ := read_of_next isRead
    cases same
    cases failed
  · rw [progress_push_ne h stmt _ _ (Ne.symm own)] at isRead
    exact stays other row isRead terminal

end Stays

/-- Where every method that writes is informed, the outcomes of a run are final. -/
theorem steady_of_informed (unmarshal : Json → Json) (s : Store) (choices : List (Choice Call))
    (informed : (service unmarshal).Along (System.Executes (Informed unmarshal)) (quiet s) choices) :
    Sequential.Steady (service unmarshal).step (fun c c' => KeepsOutcomes c.state c'.state) (quiet s) choices := by
  have owned : (quiet s).Owned := fun _ member => by cases member
  have writes := System.along_proper (write_compose unmarshal) owned (System.poolSafe_of_empty rfl)
    (System.along_free (service unmarshal) (quiet s) choices)
  have executes : (service unmarshal).Along (System.Executes fun tid call h stmt =>
      Writes unmarshal tid call h stmt ∧ Informed unmarshal tid call h stmt) (quiet s) choices :=
    (writes.and informed).mono fun c choice both =>
      (System.Executes.of_permits (both.1.mono fun _ _ _ => And.right)).and both.2
  have start : ReadStays (quiet s).toHist := fun _ _ isRead => by cases isRead
  have known := System.Along.executes_hist (fun tid call h stmt both stays =>
      stays.push_exec (repeats_of_informed both.2 both.1 stays)) (fun tid h stmt res failed stays => stays.push_fault failed)
    start executes
  refine (Sequential.steady_iff_along (fun c => .refl c.state) .trans).mpr (sequential_along (known.mono fun c choice both => ?_))
  refine (keepsOutcomes_step_iff unmarshal c choice).mpr (both.mono fun tid call h stmt all => ?_)
  exact repeats_of_informed all.1.2 all.1.1 all.2

end Go

/-! ## Runs -/

/-- In the Python service, the outcomes of a run are final exactly if everything that is written to an effect with an
    outcome repeats the outcome.  In the Go service they are if every method that writes is informed of the outcome and
    repeats it. -/
theorem outcomes_final (s : Store) (calls : List LedgerCall) (unmarshal : Json → Json) (choices : List (Choice Go.Call)) :
    (Sequential.Steady LedgerCall.serve KeepsOutcomes s calls ↔
      Sequential.Along LedgerCall.serve (fun s call => call.Repeats s) s calls) ∧
    ((Go.service unmarshal).Along (System.Executes (Go.Informed unmarshal)) (Go.quiet s) choices →
      Sequential.Steady (Go.service unmarshal).step (fun c c' => KeepsOutcomes c.state c'.state) (Go.quiet s) choices) := by
  constructor
  · refine (Sequential.steady_iff_along .refl .trans).trans ?_
    simp only [keepsOutcomes_serve_iff]
  · exact Go.steady_of_informed unmarshal s choices

/-- A payment that a dispatcher sends. -/
def payment : BeginEffect where
  session := ⟨"app", "user", "s"⟩
  invocationId := "i"
  customKey := "k"
  semantics := .nonIdempotent
  dispatchMode := .outbox
  connector := some "bank"

def paid : List LedgerCall :=
  [.begin_ payment 1, .claim payment.session "k" "a" 10 1 1, .complete payment.session "k" .confirmed (.str "sent") .null 5]

/-- A late report with a retry time keeps the outcome. -/
theorem timely_report_keeps : Sequential.Steady (Go.service id).step (fun c c' => KeepsOutcomes c.state c'.state)
    (Go.quiet (Sequential.run LedgerCall.serve .empty paid))
    [.spawn (.recordDispatchAttempt payment.session "k" "timed out" 100 20), .exec 0, .exec 0, .exec 0] := by
  refine (outcomes_final _ [] id _).2 ⟨trivial, ?_, ?_, ?_, trivial⟩
  · refine ⟨fun writes => ?_, fun writes => ?_⟩ <;> cases writes
  · refine ⟨fun _ _ _ _ => show (0 : Int) < 100 by decide, fun _ row isRead isOpen => ?_⟩
    have settled : ((Sequential.run LedgerCall.serve .empty paid).effect payment.session "k").all
        (fun row => row.status.isTerminal) = true := by
      decide
    change Go.Progress.ofFound ((Sequential.run LedgerCall.serve .empty paid).effect payment.session "k") = .read row at isRead
    cases found : (Sequential.run LedgerCall.serve .empty paid).effect payment.session "k" with
    | none =>
      rw [found] at isRead
      cases isRead
    | some stored =>
      rw [found] at isRead settled
      cases isRead
      exact absurd settled isOpen
  · refine ⟨fun writes => ?_, fun writes => ?_⟩ <;> cases writes
/-- A dispatcher whose lease has run out reports, after the outcome, that it does not know it. -/
theorem attempt_discards_outcome :
    ((Sequential.run LedgerCall.serve .empty paid).effect payment.session "k").map StorageEffect.status = some .confirmed ∧
    ((Sequential.run LedgerCall.serve .empty (paid ++ [.attempt payment.session "k" "timed out" 0 20])).effect
      payment.session "k").map StorageEffect.status = some .unknown ∧
    (((Go.service id).run (Go.quiet (Sequential.run LedgerCall.serve .empty paid))
      [.spawn (.recordDispatchAttempt payment.session "k" "timed out" 0 20), .exec 0, .exec 0]).state.effect
        payment.session "k").map StorageEffect.status = some .unknown := by
  decide

end Tape.Embedded
