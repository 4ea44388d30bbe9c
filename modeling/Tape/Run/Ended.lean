import Tape.Rules

/-! # Ended runs

`end_run` writes one of the four terminal statuses.  Four other statements write
`tape_runs.status`: the `UPDATE` of `begin_run`, which passes over `TERMINAL` and
`STUCK` runs but not over `FAILED` and `CANCELLED` ones; those of `resume_run` and
`await_signal`, which pass over nothing; and that of `send_signal`, which follows a
`SELECT` that found the run `WAITING`.  An ended run stays ended as long as the first
three are not executed on it and it is not ended between the two statements of a
`send_signal`.
-/

namespace Tape.Run

open Interleave

def ended (runId : String) (w : World) : Bool :=
  (w.runs.find? runId).any fun row => RunStmt.isTerminal row.status

/-- A terminal status of the run in `w` is still its status in `w'`. -/
def KeepsEnded (runId : String) (w w' : World) : Prop :=
  ∀ row, w.runs.find? runId = some row → RunStmt.isTerminal row.status →
    ∃ row', w'.runs.find? runId = some row' ∧ row'.status = row.status

theorem KeepsEnded.refl (runId : String) (w : World) : KeepsEnded runId w w :=
  fun row found _ => ⟨row, found, rfl⟩

theorem KeepsEnded.trans {runId : String} {w₁ w₂ w₃ : World} (first : KeepsEnded runId w₁ w₂)
    (second : KeepsEnded runId w₂ w₃) : KeepsEnded runId w₁ w₃ := by
  intro row found isEnded
  obtain ⟨row', found', status⟩ := first row found isEnded
  obtain ⟨row'', found'', status'⟩ := second row' found' (by rw [status]; exact isEnded)
  exact ⟨row'', found'', status'.trans status⟩

/-! ## The statements that write a run's status -/

def begins (runId : String) : Act → Bool
  | .sql (.run (.claimRun r ..)) => r = runId
  | _ => false

/-- The `UPDATE` of `resume_run` or of `await_signal`. -/
def resumesOrParks (runId : String) : Act → Bool
  | .sql (.run (.resumeRun r ..)) => r = runId
  | .sql (.run (.parkRun r _)) => r = runId
  | _ => false

/-- The `UPDATE` of `send_signal`. -/
def releases (runId : String) : Act → Bool
  | .sql (.run (.releaseRun r)) => r = runId
  | _ => false

def ends (runId : String) : Act → Bool
  | .sql (.run (.endRun r ..)) => r = runId
  | _ => false

/-- The gate that the thread's last act found the run to be `WAITING` on. -/
def gateRead (runId : String) : TapeEvent → Option String
  | ⟨_, .sql (.run (.waitingGate r)), .ok gate⟩ => if r = runId then gate else none
  | _ => none

/-- `act`, about to be executed by thread `tid`, does not run into an end it would not have seen. -/
structure RespectsEnd (runId : String) (h : TapeHist) (tid : Nat) (act : Act) : Prop where
  begins_open : begins runId act → (h.state.runs.find? runId).all fun row =>
    row.status ≠ RunStatus.failed.code && row.status ≠ RunStatus.cancelled.code
  resumes_open : resumesOrParks runId act → ¬ ended runId h.state
  /-- An ended run was not `WAITING` any more when the `send_signal` that now releases it looked. -/
  no_race : releases runId act → ended runId h.state → (lastOwn tid h.log).bind (gateRead runId) = none

instance (runId : String) (h : TapeHist) (tid : Nat) (act : Act) : Decidable (RespectsEnd runId h tid act) :=
  decidable_of_iff (_ ∧ _ ∧ _) ⟨fun all => ⟨all.1, all.2.1, all.2.2⟩,
    fun all => ⟨all.begins_open, all.resumes_open, all.no_race⟩⟩

theorem keepsEnded_of_answers {runId : String} {h : TapeHist} {tid : Nat} {act : Act} {res : act.Res}
    {state : World} (respects : RespectsEnd runId h tid act) (other : ends runId act = false)
    (calm : releases runId act → ¬ ended runId h.state) (answers : tape.Answers act h.state res state) :
    KeepsEnded runId h.state state := by
  intro row found isEnded
  have same : row.runId = runId := Sql.Table.key_of_find? found
  have endedNow : ended runId h.state := by
    rw [ended, found]
    exact isEnded
  obtain kept | ⟨s, rfl, -, -, found'⟩ := run_of_answers answers found
  · exact ⟨row, kept, rfl⟩
  refine ⟨_, found', ?_⟩
  by_cases selected : s.selects row = true
  · rw [RunStmt.apply, if_pos selected]
    cases s with
    | claimRun r owner leaseExp =>
      -- the guard of the `UPDATE` and the condition together leave no terminal status
      simp only [RunStmt.selects, Bool.and_eq_true, decide_eq_true_eq, Bool.not_eq_true', Bool.or_eq_false_iff,
        decide_eq_false_iff_not] at selected
      have isOpen := respects.begins_open (decide_eq_true (selected.1.symm.trans same))
      rw [found, Option.all_some] at isOpen
      simp only [Bool.and_eq_true, decide_eq_true_eq] at isOpen
      simp [RunStmt.isTerminal, selected.2, isOpen] at isEnded
    | resumeRun r owner leaseExp =>
      exact absurd endedNow (respects.resumes_open (decide_eq_true ((of_decide_eq_true selected).symm.trans same)))
    | parkRun r gate =>
      exact absurd endedNow (respects.resumes_open (decide_eq_true ((of_decide_eq_true selected).symm.trans same)))
    | releaseRun r =>
      exact absurd endedNow (calm (decide_eq_true ((of_decide_eq_true selected).symm.trans same)))
    | endRun r =>
      have own : r = runId := (of_decide_eq_true selected).symm.trans same
      simp [ends, own] at other
    | bumpSeq => rfl
    | stampCompacted => rfl
    | _ => cases selected
  · rw [RunStmt.apply, if_neg selected]

/-! ## The programs -/

def endContract (runId : String) (tid : Nat) (_ : Call) : Contract World Act Act.Res where
  rely h h' := lastOwn tid h'.log = lastOwn tid h.log
  allowed h act := RespectsEnd runId h tid act
  guar h h' := ∃ act res state, h' = h.push tid act res state ∧
    (ends runId act = false → KeepsEnded runId h.state state)
  rely_refl := SameOwn.refl tid
  rely_trans := SameOwn.trans

section Safety

variable {runId : String} {tid : Nat} {call : Call}

/-- An act that does not release the run. -/
def Unreleasing (runId : String) (act : Act) : Prop := releases runId act = false

theorem unreleasing_of_housekeeping (act : Act) (housekeeping : Housekeeping act) : Unreleasing runId act := by
  cases housekeeping <;> rfl

theorem guar_of_unreleasing {h : TapeHist} {act : Act} {res : act.Res} {state : World}
    (unreleasing : Unreleasing runId act) (respects : RespectsEnd runId h tid act)
    (answers : tape.Answers act h.state res state) :
    (endContract runId tid call).guar h (h.push tid act res state) := by
  refine ⟨act, res, state, rfl, fun other => keepsEnded_of_answers respects other ?_ answers⟩
  intro isRelease
  rw [unreleasing] at isRelease
  cases isRelease

theorem safe_of_unreleasing {α : Type} {program : Prog Act Act.Res α} (all : program.All (Unreleasing runId))
    (h : TapeHist) : tape.Safe (endContract runId tid call) tid (fun _ _ => True) program h :=
  System.Safe.of_all (fun _ _ _ _ unreleasing respects answers => guar_of_unreleasing unreleasing respects answers)
    (fun _ _ => trivial) all h

/-- `send_signal` releases a run only after it has found it `WAITING`. -/
theorem safe_signalRun (r gateName resolutionJson : String) (ts : Int) (h : TapeHist) :
    tape.Safe (endContract runId tid call) tid (fun _ _ => True)
      (RunStore.signalRun r gateName resolutionJson ts).run h := by
  refine System.Safe.seq (safe_of_unreleasing (all_query (by rfl)) h) fun _ h₁ => ?_
  refine safe_query (fun _ _ => trivial) fun h₂ res state _ respects answers => ?_
  refine ⟨guar_of_unreleasing rfl respects answers, fun found isOk => ?_⟩
  subst isOk
  cases found with
  | none => exact fun _ _ => trivial
  | some gate =>
    simp only
    split
    next sameGate =>
      refine safe_query (fun _ _ => trivial) fun h₃ res state rely respects answers => ?_
      refine ⟨⟨_, _, _, rfl, fun other => keepsEnded_of_answers respects other ?_ answers⟩, fun _ _ => ?_⟩
      · -- the run was `WAITING` at the read, so it cannot have ended before that
        intro isRelease endedNow
        have unread := respects.no_race isRelease endedNow
        have own : r = runId := of_decide_eq_true isRelease
        rw [show lastOwn tid h₃.log = _ from rely.trans (lastOwn_push_self ..)] at unread
        simp [gateRead, own] at unread
      · refine safe_of_unreleasing ?_ _
        refine .exceptBind (all_orElse ?_) fun _ => trivial
        exact .exceptBind (all_nextSeq unreleasing_of_housekeeping r) fun _ =>
          all_journal unreleasing_of_housekeeping _ _ _ _ _ (by constructor)
    next => exact fun _ _ => trivial

theorem safe_sendSignal (r app user session gateName resolutionJson : String) (ts : Int) (h : TapeHist) :
    tape.Safe (endContract runId tid call) tid (fun _ _ => True)
      (RunStore.sendSignal r app user session gateName resolutionJson ts).run h := by
  unfold RunStore.sendSignal
  split
  · exact safe_signalRun r gateName resolutionJson ts h
  · refine System.Safe.seq (safe_of_unreleasing (all_query (by rfl)) h) fun latest h₁ => ?_
    cases latest with
    | none => exact fun _ _ => trivial
    | some latest => exact safe_signalRun latest gateName resolutionJson ts h₁

end Safety

/-- The methods that write a run's status. -/
def isLifecycleCall : Call → Bool
  | .beginRun .. | .resumeRun .. | .awaitSignal .. | .sendSignal .. | .endRun .. => true
  | _ => false

theorem end_compose (runId : String) :
    System.Compose tape (fun call => isLifecycleCall call) (endContract runId) (fun _ _ _ _ => True) where
  compatible {tid call other call' h h'} ne guar := by
    obtain ⟨act, res, state, rfl, -⟩ := guar
    exact lastOwn_push_ne h act res state ne
  fresh {tid call h} admitted _ := by
    have housekeeping : ∀ act, Housekeeping act → Unreleasing runId act := unreleasing_of_housekeeping
    cases call with
    | beginRun =>
      exact safe_of_unreleasing (all_beginRun housekeeping rfl (fun _ _ => rfl) (fun _ => rfl) (fun _ _ => rfl)
        fun _ => rfl) h
    | resumeRun => exact safe_of_unreleasing (all_resumeRun (fun _ => rfl) rfl) h
    | endRun => exact safe_of_unreleasing (all_endRun housekeeping rfl rfl fun _ => rfl) h
    | awaitSignal => exact safe_of_unreleasing (all_awaitSignal housekeeping (fun _ => rfl) rfl) h
    | sendSignal => exact safe_sendSignal _ _ _ _ _ _ _ h
    | _ => cases admitted

/-! ## Runs -/

/-- What the history has become since `base`, as far as the run was not ended again. -/
def EndedSince (runId : String) (base h : TapeHist) : Prop :=
  ∃ new, h.log = new ++ base.log ∧
    ((∀ event ∈ new, ends runId event.op = false) → KeepsEnded runId base.state h.state)

theorem EndedSince.push {runId : String} {base h : TapeHist} {tid : Nat} {act : Act} {res : act.Res}
    {state : World} (since : EndedSince runId base h)
    (keeps : ends runId act = false → KeepsEnded runId h.state state) :
    EndedSince runId base (h.push tid act res state) := by
  obtain ⟨new, grown, kept⟩ := since
  refine ⟨⟨tid, act, res⟩ :: new, by simp [grown], fun untouched => ?_⟩
  have before := kept fun event member => untouched event (List.mem_cons_of_mem _ member)
  exact before.trans (keeps (untouched _ List.mem_cons_self))

/-- A run with a terminal status is not returned by `list_runs_to_recover`. -/
theorem not_recovered {runId : String} {w : World} {row : RunRow} (found : w.runs.find? runId = some row)
    (isEnded : RunStmt.isTerminal row.status) (nowMs limit : Int) (rows : List RunRow)
    (listed : ((RunStmt.toRecover nowMs limit).exec w).1 = .ok rows) : ∀ r ∈ rows, r.runId ≠ runId := by
  intro r member same
  rw [← Except.ok.inj listed] at member
  obtain ⟨inTable, due⟩ := List.mem_filter.mp (mem_of_mem_limitRows member)
  have found' := Sql.Table.find?_key_of_mem inTable
  rw [show RunRow.pk r = runId from same] at found'
  obtain rfl : row = r := Option.some.inj (found.symm.trans found')
  simp only [RunStmt.isTerminal, Bool.or_eq_true, decide_eq_true_eq] at isEnded
  obtain ((status | status) | status) | status := isEnded
  all_goals simp [RunStmt.recoverable, status, RunStatus.code] at due

/-- **Ended runs stay ended.**  Along every interleaving of the five methods whose acts respect the
    ends of the run, from any database: once the run has a terminal status, it keeps it until
    another `end_run` on it, and `list_runs_to_recover` does not return it. -/
theorem ended_run_stays_ended (runId : String) (w : World) (before after : List (Choice Call))
    (respects : tape.Along (System.Permits (fun call => isLifecycleCall call)
      fun tid _ h act => RespectsEnd runId h tid act) (quiet w) (before ++ after))
    (row : RunRow) (found : (tape.run (quiet w) before).state.runs.find? runId = some row)
    (isEnded : RunStmt.isTerminal row.status)
    (untouched : ∀ event ∈ eventsSince (tape.run (quiet w) before) (tape.run (quiet w) (before ++ after)),
      ends runId event.op = false) :
    (∃ row', (tape.run (quiet w) (before ++ after)).state.runs.find? runId = some row' ∧
      row'.status = row.status) ∧
    ∀ nowMs limit (rows : List RunRow), ((RunStmt.toRecover nowMs limit).exec (tape.run (quiet w) (before ++ after)).state).1 =
      .ok rows → ∀ r ∈ rows, r.runId ≠ runId := by
  obtain ⟨first, second⟩ := System.Along.append.mp respects
  have owned := quiet_owned w
  have safe := System.run_safe (end_compose runId) owned (System.poolSafe_of_empty rfl) first
  -- from `before` on, the history grows by events that keep the end
  have kept : EndedSince runId (tape.run (quiet w) before).toHist (tape.run (quiet w) (before ++ after)).toHist := by
    rw [System.run_append]
    refine System.run_hist (end_compose runId) ?_ (owned.run _) safe ⟨[], rfl, fun _ => .refl _ _⟩ second
    rintro tid call h h' ⟨act, res, state, rfl, keeps⟩ holds
    exact holds.push keeps
  obtain ⟨new, since, keeps⟩ := kept
  rw [eventsSince_of_append since] at untouched
  obtain ⟨row', found', status⟩ := keeps untouched row found isEnded
  refine ⟨⟨row', found', status⟩, fun nowMs limit rows listed => ?_⟩
  exact not_recovered found' (by rw [status]; exact isEnded) nowMs limit rows listed

/-! ## A cancelled run that is begun again -/

/-- The run `"r"` is begun at 1 and ended at 10. -/
def endedAt10 (status : RunStatus) : List (Choice Call) :=
  serve 0 (.beginRun 0 "app" "user" "session" "invocation" {} "A" 60000 1 "r") ++
    serve 1 (.endRun 0 "r" status.code "" 10)

/-- A driver begins the same invocation again at 20. -/
def begunAgain : List (Choice Call) :=
  serve 2 (.beginRun 0 "app" "user" "session" "invocation" {} "B" 60000 20 "r2")

def statusAfter (choices : List (Choice Call)) : Option Int :=
  ((tape.run (quiet (World.empty .sqlite)) choices).state.runs.find? "r").map RunRow.status

/-- The run ids `list_runs_to_recover` returns. -/
def toRecoverAfter (choices : List (Choice Call)) (nowMs : Int) : List String :=
  let w := (tape.run (quiet (World.empty .sqlite)) choices).state
  (w.runs.rows.filter (RunStmt.recoverable w.signals nowMs)).map RunRow.runId

/-- The cancelled run is `RUNNING` again, and recovered once the new lease has run out. -/
theorem cancelled_run_revived :
    statusAfter (endedAt10 .cancelled) = some RunStatus.cancelled.code ∧
      statusAfter (endedAt10 .cancelled ++ begunAgain) = some RunStatus.running.code ∧
      toRecoverAfter (endedAt10 .cancelled ++ begunAgain) 100000 = ["r"] := by
  refine ⟨?_, ?_, ?_⟩ <;> decide +kernel

/-- A terminal run is passed over. -/
theorem terminal_run_passed_over :
    ∃ row, (tape.run (quiet (World.empty .sqlite)) (endedAt10 .terminal)).state.runs.find? "r" = some row ∧
      RunStmt.isTerminal row.status ∧
      ∃ row', (tape.run (quiet (World.empty .sqlite)) (endedAt10 .terminal ++ begunAgain)).state.runs.find? "r" =
        some row' ∧ row'.status = row.status := by
  have isEnded : ((tape.run (quiet (World.empty .sqlite)) (endedAt10 .terminal)).state.runs.find? "r").any
      (fun row => RunStmt.isTerminal row.status) = true := by decide +kernel
  obtain ⟨row, found, terminal⟩ := (Option.any_eq_true _ _).mp isEnded
  refine ⟨row, found, terminal, ?_⟩
  exact (ended_run_stays_ended "r" (World.empty .sqlite) (endedAt10 .terminal) begunAgain (by decide +kernel)
    row found terminal (by decide +kernel)).1

end Tape.Run
