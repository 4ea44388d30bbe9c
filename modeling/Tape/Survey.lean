import Tape.Interleave.Protocol
import Tape.Processes

/-! # What `compact_run` has read

`compact_run` blanks the payloads of a run in statements of their own, after others by which it has found the run
ended and settled.  Here: no call blanks anything but what its own thread has found so.
-/

namespace Tape.Compaction

open Interleave

/-- The runs that a thread has last found ended, and free of `UNKNOWN` effects. -/
structure Survey where
  ended : Option String
  resolved : Option String

namespace Survey

/-- What an answer lets the thread know. -/
def after (s : Survey) : (act : Act) → act.Res → Survey
  | .sql (.run (.readCompaction runId)), .ok (some (status, _, _)) =>
    { s with ended := if RunStmt.isTerminal status then some runId else none }
  | .sql (.run (.readCompaction _)), _ => { s with ended := none }
  | .sql (.effect (.countUnknown runId)), .ok unknown => { s with resolved := if isNone unknown then some runId else none }
  | .sql (.effect (.countUnknown _)), .error _ => { s with resolved := none }
  | _, _ => s
where
  isNone (unknown : Int) : Bool := unknown ≤ 0

end Survey

/-- What is blanked was found ended and settled before. -/
def survey : Protocol Act Act.Res Survey where
  start := ⟨none, none⟩
  proper s act := ∀ runId, act = .decision (.zeroDecisions runId) ∨ act = .effect (.zeroEffects runId) →
    s.ended = some runId ∧ s.resolved = some runId
  after := Survey.after
  expects _ _ := True

/-! ## The calls -/

section Follows

variable {α β : Type} {s : Survey}

theorem proper_of_not_blanking {act : Act} (isBlanking : isBlanking act = false) (s : Survey) : survey.proper s act := by
  rintro runId (rfl | rfl)
  · cases isBlanking
  · cases isBlanking

theorem follows_perform {act : Act} (isBlanking : isBlanking act = false) :
    survey.Follows (fun _ _ => True) s (Prog.perform act) := ⟨proper_of_not_blanking isBlanking s, fun _ _ => trivial⟩

theorem follows_query {stmt : Stmt} {f : stmt.Res → StoreM β} (proper : survey.proper s (.sql stmt))
    (rest : ∀ value, survey.Follows (fun _ _ => True) (s.after (.sql stmt) (.ok value)) (f value).run) :
    survey.Follows (fun _ _ => True) s (stmt.query >>= f).run := by
  refine Protocol.Follows.exceptBind ⟨proper, fun res _ => ?_⟩
  cases res with
  | ok value => exact rest value
  | error e => trivial

theorem follows_composable :
    Prog.Composable fun {_} (program : Prog Act Act.Res _) => ∀ s, survey.Follows (fun _ _ => True) s program where
  ret _ _ := trivial
  bind first rest s := Protocol.Follows.bind ((first s).mono fun value s' _ => rest value s')

theorem follows_housekeeping {act : Act} (isHousekeeping : Housekeeping act) (s : Survey) :
    survey.Follows (fun _ _ => True) s (Prog.perform act) := by
  refine follows_perform ?_
  cases isHousekeeping <;> rfl

theorem numbered_follows :
    Numbered (fun {_} (program : Prog Act Act.Res _) => ∀ s, survey.Follows (fun _ _ => True) s program)
      fun _ _ {_} program => ∀ s, survey.Follows (fun _ _ => True) s program := by
  refine .of_housekeeping follows_composable (fun act isPlain s => follows_perform ?_) fun act => follows_housekeeping
  unfold isBlanking
  split
  next => cases isPlain
  next => cases isPlain
  next => rfl

theorem isNone_of_not_pos {unknown : Int} (settled : ¬ 0 < unknown) : Survey.after.isNone unknown = true :=
  decide_eq_true (Int.not_lt.mp settled)

/-- `compact_run` blanks a run after it has found it ended and settled. -/
theorem follows_compactRun (runId : String) (tsMs : Int) (s : Survey) :
    survey.Follows (fun _ _ => True) s (RunStore.compactRun runId tsMs).run := by
  refine follows_query (proper_of_not_blanking rfl s) fun found => ?_
  match found with
  | none => trivial
  | some (status, endedAtMs, compactedAtMs) =>
    simp only
    split
    · trivial
    split
    · trivial
    next refusal =>
      have ended : RunStmt.isTerminal status = true := by
        simp only [Bool.or_eq_true, Bool.not_eq_true', not_or, Bool.not_eq_false] at refusal
        exact refusal.1
      refine follows_query (proper_of_not_blanking rfl _) fun openObligations => ?_
      split
      · trivial
      refine follows_query (proper_of_not_blanking rfl _) fun unknownEffects => ?_
      split
      · trivial
      next settled =>
        have resolved : Survey.after.isNone unknownEffects = true := isNone_of_not_pos settled
        have blanks : ∀ act, act = .decision (.zeroDecisions runId) ∨ act = .effect (.zeroEffects runId) →
            survey.proper ⟨some runId, some runId⟩ act := by
          rintro act (rfl | rfl) r (same | same) <;> cases same <;> exact ⟨rfl, rfl⟩
        simp only [Survey.after, ended, resolved, if_true]
        refine follows_query (proper_of_not_blanking rfl _) fun _ => follows_query (proper_of_not_blanking rfl _) fun _ => ?_
        refine follows_query (blanks _ (.inl rfl)) fun _ => follows_query (blanks _ (.inr rfl)) fun _ => ?_
        refine follows_query (proper_of_not_blanking rfl _) fun _ => ?_
        exact numbered_follows.nextSeqOr runId (fun _ => numbered_follows.entryOr (by constructor) (by decide) fun _ =>
          numbered_follows.pure _) _

theorem follows_body (call : Call) : survey.Follows (fun _ _ => True) survey.start call.body := by
  refine numbered_follows.call (fun _ _ _ => follows_perform rfl) follows_compactRun call ?_ survey.start
  rintro runId decisionIndex model requestJson responseJson rationale policyVersion ts rfl
  refine numbered_follows.recordDecision (fun runId seq payload ts isWritten => ?_) runId decisionIndex model requestJson
    responseJson rationale policyVersion ts
  exact journal_of follows_composable (fun _ => follows_housekeeping) runId seq "decision" payload ts isWritten

end Follows

/-- Along every run, a thread that is about to blank a run has found it ended and settled. -/
theorem along_surveyed {ok : Nat → Call → TapeHist → Act → Prop} {w : World} {choices : List (Choice Call)}
    (along : tape.Along (System.Permits (fun _ => True) ok) (quiet w) choices) :
    tape.Along (System.Permits (fun _ => True) fun tid call h act =>
      ok tid call h act ∧ survey.proper (survey.stage tid h.log) act) (quiet w) choices :=
  Protocol.along_in_stage (fun _ => trivial) (fun call _ => follows_body call) rfl rfl along

/-! ## What the answers said -/

section Answers

variable {tid : Nat} {h : TapeHist} {act : Act} {res : act.Res} {state : World} {runId : String}

/-- The event is a read of the run's status by `compact_run`. -/
def readsEnded (runId : String) : TapeEvent → Bool
  | ⟨_, .sql (.run (.readCompaction r)), _⟩ => r = runId
  | _ => false

/-- The event is a count of the run's `UNKNOWN` effects by `compact_run`. -/
def countsUnknown (runId : String) : TapeEvent → Bool
  | ⟨_, .sql (.effect (.countUnknown r)), _⟩ => r = runId
  | _ => false

/-- A thread knows that a run has ended from what it knew, or from the answer that it gets. -/
theorem ended_after (tid : Nat) {s : Survey} (ended : (s.after act res).ended = some runId) :
    (readsEnded runId ⟨tid, act, res⟩ = false ∧ s.ended = some runId) ∨
      act = .run (.readCompaction runId) ∧ ∀ w w', tape.Answers act w res w' →
        ∃ row, w.runs.find? runId = some row ∧ RunStmt.isTerminal row.status := by
  unfold Survey.after at ended
  split at ended
  next r status _ _ =>
    split at ended
    next isTerminal =>
      cases ended
      refine .inr ⟨rfl, fun w w' answers => ?_⟩
      obtain ⟨read, -⟩ := exec_of_ok answers
      obtain ⟨row, found, isStatus⟩ := Option.map_eq_some_iff.mp (Except.ok.inj read).symm
      refine ⟨row, found, ?_⟩
      rw [(Prod.mk.inj isStatus).1]
      exact isTerminal
    next => cases ended
  next => cases ended
  next => exact .inl ⟨rfl, ended⟩
  next => exact .inl ⟨rfl, ended⟩
  next notRead _ _ =>
    refine .inl ⟨?_, ended⟩
    unfold readsEnded
    split
    next same =>
      cases same
      exact (notRead _ _ rfl HEq.rfl).elim
    next => rfl

/-- The same for the run's `UNKNOWN` effects. -/
theorem resolved_after (tid : Nat) {s : Survey} (resolved : (s.after act res).resolved = some runId) :
    (countsUnknown runId ⟨tid, act, res⟩ = false ∧ s.resolved = some runId) ∨
      act = .effect (.countUnknown runId) ∧ ∀ w w', tape.Answers act w res w' →
        ∀ pk row, w.effects.find? pk = some row → row.runId = runId → row.status ≠ EffectStatus.unknown.code := by
  unfold Survey.after at resolved
  split at resolved
  next => exact .inl ⟨rfl, resolved⟩
  next => exact .inl ⟨rfl, resolved⟩
  next r unknown =>
    split at resolved
    next none_ =>
      cases resolved
      refine .inr ⟨rfl, fun w w' answers pk row found sameRun status => ?_⟩
      obtain ⟨counted, -⟩ := exec_of_ok answers
      obtain rfl := Except.ok.inj counted
      have positive : 0 < w.effects.count fun row => row.runId = runId && row.status = EffectStatus.unknown.code :=
        Sql.Table.count_pos_of_find? found (by simp [sameRun, status])
      have isNone : ((w.effects.count fun row => row.runId = runId && row.status = EffectStatus.unknown.code : Nat) : Int) ≤ 0 :=
        of_decide_eq_true none_
      omega
    next => cases resolved
  next => cases resolved
  next notCounted notFailed =>
    refine .inl ⟨?_, resolved⟩
    unfold countsUnknown
    split
    next _ _ res same =>
      cases same
      cases res with
      | ok unknown => exact (notCounted _ _ rfl HEq.rfl).elim
      | error e => exact (notFailed _ _ rfl HEq.rfl).elim
    next => rfl

/-- What a thread has read of the database is so as long as nothing has disturbed it since. -/
theorem known_push (knows : Survey → Prop) {mark disturbs : TapeEvent → Bool} {fact : World → Prop}
    (learns : ∀ s : Survey, knows (s.after act res) → (mark ⟨tid, act, res⟩ = false ∧ knows s) ∨ fact state)
    (kept : disturbs ⟨tid, act, res⟩ = false → fact h.state → fact state)
    (known : ∀ tid, knows (survey.stage tid h.log) → (since tid mark h.log).all (fun event => !disturbs event) → fact h.state)
    (other : Nat) (knows_ : knows (survey.stage other (h.push tid act res state).log))
    (calm : (since other mark (h.push tid act res state).log).all fun event => !disturbs event) : fact state := by
  have earlier : ¬ (tid = other ∧ mark ⟨tid, act, res⟩) → knows (survey.stage other h.log) → fact state := by
    intro unmarked before
    rw [Hist.push_log, since_cons unmarked, List.all_cons, Bool.and_eq_true, Bool.not_eq_true'] at calm
    exact kept calm.1 (known other before calm.2)
  by_cases own : other = tid
  · subst own
    rw [Protocol.stage_push_self] at knows_
    cases learns _ knows_ with
    | inl old => exact earlier (fun both => by rw [old.1] at both; exact Bool.false_ne_true both.2) old.2
    | inr new => exact new
  · rw [survey.stage_push_ne h act res state own] at knows_
    exact earlier (fun both => own both.1.symm) knows_

end Answers

end Tape.Compaction
