import Tape.Survey

/-! # Replaying decisions

A driver that is restarted asks for the decisions it has recorded before it calls the
model again.  The first `record_decision` for an index wins, by the table's key.  The
only statement that changes a recorded decision is the one by which `compact_run`
blanks the payloads of an ended run.  `compact_run` looks at the run's status in an
earlier statement, though, and nothing keeps a compacted run from being begun or
resumed again.  Where neither happens, no decision is blanked that a driver can replay.
-/

namespace Tape.Run

open Interleave Compaction

def running (runId : String) (w : World) : Bool :=
  (w.runs.find? runId).any fun row => row.status = RunStatus.running.code

/-- The event blanked recorded decisions of the run. -/
def blanks (runId : String) : TapeEvent → Bool
  | ⟨_, .sql (.decision (.zeroDecisions r)), .ok updated⟩ => isPositive updated && r = runId
  | _ => false
where
  isPositive (updated : Nat) : Bool := 0 < updated

def blanked (runId : String) (log : List TapeEvent) : Bool := log.any (blanks runId)

/-- The statement makes a run `RUNNING` that was not. -/
def revives (runId : String) (w : World) : Act → Bool
  | .sql (.run s) => (w.runs.find? runId).any fun row =>
    row.status ≠ RunStatus.running.code && (s.apply row).status = RunStatus.running.code
  | _ => false

/-- The statement gave the run the status `RUNNING`. -/
def revived (runId : String) : TapeEvent → Bool
  | ⟨_, .sql (.run (.claimRun r _ _)), .ok updated⟩ | ⟨_, .sql (.run (.resumeRun r _ _)), .ok updated⟩ =>
    blanks.isPositive updated && r = runId
  | ⟨_, .sql (.run (.endRun r status _ _)), .ok updated⟩ =>
    blanks.isPositive updated && r = runId && status = RunStatus.running.code
  | _ => false

/-- `act`, about to be executed, leaves `compact_run` and the drivers of the run apart: nothing has given the run the
    status `RUNNING` between the `SELECT` of a `compact_run` and its blanking of the decisions, and nothing makes a run
    `RUNNING` whose decisions were blanked. -/
structure CompactsApart (runId : String) (tid : Nat) (h : TapeHist) (act : Act) : Prop where
  unrevived : act = .decision (.zeroDecisions runId) →
    (since tid (readsEnded runId) h.log).all fun event => !revived runId event
  no_revival : revives runId h.state act → blanked runId h.log = false

def zeroesDecisions (runId : String) : Act → Bool
  | .sql (.decision (.zeroDecisions r)) => r = runId
  | _ => false

theorem zeroesDecisions_iff {runId : String} {act : Act} :
    zeroesDecisions runId act ↔ act = .decision (.zeroDecisions runId) := by
  unfold zeroesDecisions
  split
  next r => simp [Act.decision]
  next other =>
    refine iff_of_false Bool.false_ne_true fun same => ?_
    exact other _ same

instance (runId : String) (tid : Nat) (h : TapeHist) (act : Act) : Decidable (CompactsApart runId tid h act) :=
  decidable_of_iff ((zeroesDecisions runId act → (since tid (readsEnded runId) h.log).all fun event => !revived runId event) ∧
      (revives runId h.state act → blanked runId h.log = false))
    ⟨fun both => ⟨fun zeroes => both.1 (zeroesDecisions_iff.mpr zeroes), both.2⟩,
      fun apart => ⟨fun zeroes => apart.unrevived (zeroesDecisions_iff.mp zeroes), apart.no_revival⟩⟩

/-! ## Ended runs are not running -/

/-- The run is there, and is not `RUNNING`. -/
def Idle (runId : String) (w : World) : Prop := ∃ row, w.runs.find? runId = some row ∧ row.status ≠ RunStatus.running.code

/-- A run that is not `RUNNING` becomes so by a statement that says so alone. -/
theorem idle_of_not_revived {runId : String} {tid : Nat} {act : Act} {res : act.Res} {w w' : World} (idle : Idle runId w)
    (answers : tape.Answers act w res w') (unrevived : revived runId ⟨tid, act, res⟩ = false) : Idle runId w' := by
  obtain ⟨row, found, status⟩ := idle
  obtain kept | ⟨s, rfl, rfl, -, found'⟩ := run_of_answers answers found
  · exact ⟨row, kept, status⟩
  refine ⟨_, found', fun isRunning => ?_⟩
  -- a row that was changed was selected, so the statement has counted it
  have selected : s.selects row = true := by
    by_contra unselected
    rw [RunStmt.apply, if_neg unselected] at isRunning
    exact status isRunning
  have counted : 0 < w.runs.count s.selects := Sql.Table.count_pos_of_find? found selected
  have isRun : row.runId = runId := Sql.Table.key_of_find? found
  rw [RunStmt.apply, if_pos selected] at isRunning
  cases s with
  | claimRun r leaseOwner leaseExp =>
    have same : row.runId = r := by
      simp only [RunStmt.selects, Bool.and_eq_true, decide_eq_true_eq] at selected
      exact selected.1
    obtain rfl : r = runId := same.symm.trans isRun
    simp [revived, blanks.isPositive, Act.exec, Stmt.exec, RunStmt.exec, RunStmt.exec.update] at unrevived
    omega
  | resumeRun r leaseOwner leaseExp =>
    have same : row.runId = r := of_decide_eq_true selected
    obtain rfl : r = runId := same.symm.trans isRun
    simp [revived, blanks.isPositive, Act.exec, Stmt.exec, RunStmt.exec, RunStmt.exec.update] at unrevived
    omega
  | endRun r status' ts detailJson =>
    have same : row.runId = r := of_decide_eq_true selected
    obtain rfl : r = runId := same.symm.trans isRun
    obtain rfl : status' = RunStatus.running.code := isRunning
    simp [revived, blanks.isPositive, Act.exec, Stmt.exec, RunStmt.exec, RunStmt.exec.update] at unrevived
    omega
  -- these leave the run in another status
  | parkRun => cases isRunning
  | releaseRun => cases isRunning
  | bumpSeq | stampCompacted => exact status isRunning
  | _ => cases selected

/-- What the threads have read of the run still holds where nothing has given it the status `RUNNING` since. -/
def EndedIdle (runId : String) (h : TapeHist) : Prop :=
  ∀ tid, (survey.stage tid h.log).ended = some runId →
    (since tid (readsEnded runId) h.log).all (fun event => !revived runId event) → Idle runId h.state

theorem EndedIdle.push {runId : String} {h : TapeHist} {tid : Nat} {act : Act} {res : act.Res} {state : World}
    (endedIdle : EndedIdle runId h) (answers : tape.Answers act h.state res state) :
    EndedIdle runId (h.push tid act res state) := by
  refine known_push (fun s => s.ended = some runId) (fun s ended => ?_)
    (fun unrevived idle => idle_of_not_revived idle answers unrevived) endedIdle
  cases ended_after tid ended with
  | inl old => exact .inl old
  | inr read =>
    obtain ⟨rfl, answered⟩ := read
    obtain ⟨row, found, isTerminal⟩ := answered _ _ answers
    have status : row.status ≠ RunStatus.running.code := by
      intro isRunning
      rw [isRunning] at isTerminal
      exact absurd isTerminal (by decide)
    have unread : revived runId ⟨tid, .run (.readCompaction runId), res⟩ = false := rfl
    exact .inr (idle_of_not_revived ⟨row, found, status⟩ answers unread)

/-- `act`, about to be executed, blanks no decision that a driver can still replay, and starts no
    driver on a run whose decisions are blank. -/
structure KeepsReplay (runId : String) (h : TapeHist) (act : Act) : Prop where
  blanks_idle : zeroesDecisions runId act → Idle runId h.state
  no_revival : revives runId h.state act → blanked runId h.log = false

/-! ## Blanked runs are not running -/

/-- A run whose decisions were blanked is there, and is not `RUNNING`. -/
def BlankedIdle (runId : String) (h : TapeHist) : Prop := blanked runId h.log → Idle runId h.state

theorem BlankedIdle.push {runId : String} {h : TapeHist} {tid : Nat} {act : Act} {res : act.Res} {state : World}
    (blankedIdle : BlankedIdle runId h) (keeps : KeepsReplay runId h act)
    (answers : tape.Answers act h.state res state) : BlankedIdle runId (h.push tid act res state) := by
  intro now
  -- the run was idle before the act, or it is this act that blanked it
  have before : Idle runId h.state := by
    simp only [Hist.push_log, blanked, List.any_cons, Bool.or_eq_true] at now
    cases now with
    | inr earlier => exact blankedIdle earlier
    | inl blanking =>
      unfold blanks at blanking
      split at blanking
      next _ r updated isZero =>
        cases isZero
        simp only [Bool.and_eq_true, decide_eq_true_eq] at blanking
        exact keeps.blanks_idle (decide_eq_true blanking.2)
      next => cases blanking
  obtain ⟨row, found, status⟩ := before
  obtain kept | ⟨s, rfl, -, -, found'⟩ := run_of_answers answers found
  · exact ⟨row, kept, status⟩
  refine ⟨_, found', fun revived => ?_⟩
  have revival : revives runId h.state (.run s) := by simp [revives, found, status, revived]
  have unblanked := keeps.no_revival revival
  -- a statement on `tape_runs` blanks nothing
  simp only [Hist.push_log, blanked, List.any_cons, Bool.or_eq_true] at now
  cases now with
  | inl blanking => cases blanking
  | inr earlier =>
    rw [blanked, earlier] at unblanked
    cases unblanked

/-- What a `compact_run` blanks has ended, and is not run again: that it has found before. -/
theorem keepsReplay_of_apart {runId : String} {w : World} {choices : List (Choice Call)}
    (apart : tape.Along (System.Permits (fun _ => True) fun tid _ h act => CompactsApart runId tid h act) (quiet w) choices) :
    tape.Along (System.Permits (fun _ => True) fun _ _ h act => KeepsReplay runId h act) (quiet w) choices := by
  refine System.Along.of_invariant (I := EndedIdle runId) ?_ ?_ ?_ (along_surveyed apart)
  · exact fun tid call h act res state _ answers endedIdle => endedIdle.push answers
  · rintro tid call h act ⟨isApart, surveyed⟩ endedIdle
    refine ⟨fun zeroes => ?_, isApart.no_revival⟩
    have isZero := zeroesDecisions_iff.mp zeroes
    exact endedIdle tid (surveyed runId (.inl isZero)).1 (isApart.unrevived isZero)
  · intro tid ended
    cases ended

/-! ## Recorded decisions -/

/-- The decision is recorded with this response, unless the run's decisions were blanked. -/
def Decided (runId : String) (index : Int) (responseJson : String) (h : TapeHist) : Prop :=
  blanked runId h.log ∨ ∃ row, h.state.decisions.find? (runId, index) = some row ∧ row.responseJson = responseJson

theorem blanked_push {runId : String} {h : TapeHist} {tid : Nat} {act : Act} {res : act.Res} {state : World}
    (earlier : blanked runId h.log) : blanked runId (h.push tid act res state).log := by
  rw [Hist.push_log, blanked, List.any_cons, Bool.or_eq_true]
  exact .inr earlier

theorem Decided.push {runId : String} {index : Int} {responseJson : String} {h : TapeHist} {tid : Nat} {act : Act}
    {res : act.Res} {state : World} (decided : Decided runId index responseJson h)
    (answers : tape.Answers act h.state res state) : Decided runId index responseJson (h.push tid act res state) := by
  cases decided with
  | inl earlier => exact .inl (blanked_push earlier)
  | inr present =>
    obtain ⟨row, found, rfl⟩ := present
    obtain kept | ⟨rfl, zeroed⟩ := decision_of_answers answers found
    · exact .inr ⟨row, kept, rfl⟩
    have same : row.runId = runId := congrArg Prod.fst (Sql.Table.key_of_find? found)
    cases payload : DecisionStmt.hasPayload row with
    | false =>
      -- there was nothing to blank in this row
      have blank : row.responseJson = "" := by
        simp only [DecisionStmt.hasPayload, Bool.or_eq_false_iff, decide_eq_false_iff_not, not_not] at payload
        exact payload.1.2
      exact .inr ⟨_, zeroed, blank.symm⟩
    | true =>
      obtain ⟨rfl, rfl⟩ | ⟨failed, rfl⟩ := answers_cases answers
      · have counted : 0 < h.state.decisions.count fun row => row.runId = runId && DecisionStmt.hasPayload row :=
          Sql.Table.count_pos_of_find? found (by simp [same, payload])
        left
        simp only [Hist.push_log, blanked, List.any_cons, Bool.or_eq_true]
        left
        simp [blanks, blanks.isPositive, Act.exec, Stmt.exec, DecisionStmt.exec, counted]
      · exact .inr ⟨row, found, rfl⟩

/-- A decision that was found or inserted is decided. -/
theorem Decided.of_find? {runId : String} {index : Int} {h : TapeHist} {row : DecisionRecord}
    (found : h.state.decisions.find? (runId, index) = some row) : Decided runId index row.responseJson h :=
  .inr ⟨row, found, rfl⟩

def replayContract (runId : String) (tid : Nat) (_ : Call) : Contract World Act Act.Res where
  rely h h' := ∀ index responseJson, Decided runId index responseJson h → Decided runId index responseJson h'
  allowed h act := KeepsReplay runId h act
  guar h h' := ∃ act res state, h' = h.push tid act res state ∧ tape.Answers act h.state res state ∧
    KeepsReplay runId h act
  rely_refl _ := fun _ _ decided => decided
  rely_trans first second := fun index responseJson decided => second _ _ (first index responseJson decided)

/-- What `record_decision` returned is decided. -/
def replayPost (runId : String) (_ : Nat) (call : Call) (out : call.Out) (h : TapeHist) : Prop :=
  match call, out with
  | .recordDecision r index .., .ok recorded => r = runId → Decided runId index recorded.responseJson h
  | _, _ => True

section Safety

variable {runId : String} {tid : Nat} {call : Call}

theorem guar_of_allowed {h : TapeHist} {act : Act} {res : act.Res} {state : World}
    (keeps : KeepsReplay runId h act) (answers : tape.Answers act h.state res state) :
    (replayContract runId tid call).guar h (h.push tid act res state) :=
  ⟨act, res, state, rfl, answers, keeps⟩

/-- Nothing is asked of a program that records no decision of the run. -/
theorem safe_of_any {α : Type} {post : α → TapeHist → Prop} (returns : ∀ value h, post value h)
    (program : Prog Act Act.Res α) (h : TapeHist) :
    tape.Safe (replayContract runId tid call) tid post program h :=
  System.Safe.of_all (fun _ _ _ _ _ keeps answers => guar_of_allowed keeps answers) returns (Prog.all_true program) h

theorem safe_recordDecision {r : String} {index : Int}
    (model requestJson responseJson rationale policyVersion : String) (ts : Int) (h : TapeHist) :
    tape.Safe (replayContract runId tid call) tid
      (fun result h => ∀ recorded, result = .ok recorded → r = runId →
        Decided runId index recorded.responseJson h)
      (RunStore.recordDecision r index model requestJson responseJson rationale policyVersion ts).run h := by
  -- the first write wins: a row that is there is returned as it is
  refine safe_query (fun _ _ _ returned => by cases returned) fun h₁ res state _ keeps answers => ?_
  refine ⟨guar_of_allowed keeps answers, fun found isOk => ?_⟩
  subst isOk
  cases found with
  | some existing =>
    rintro h₂ rely _ ⟨⟩ rfl
    have read : h₁.state.decisions.find? (r, index) = some existing := Except.ok.inj (exec_of_ok answers).1.symm
    exact rely _ _ ((Decided.of_find? read).push answers)
  | none =>
    refine System.Safe.exceptBind (fun _ _ _ returned => by cases returned)
      (safe_of_any (fun _ _ seq _ => ?_) _ _)
    refine safe_query (fun _ _ _ returned => by cases returned) fun h₃ res state _ keeps answers => ?_
    refine ⟨guar_of_allowed keeps answers, fun value isOk => ?_⟩
    subst isOk
    -- an accepted insert is the recorded decision from here on
    have inserted : r = runId → ∃ row, state.decisions.find? (runId, index) = some row ∧
        row.responseJson = responseJson := by
      rintro rfl
      obtain ⟨accepted, rfl⟩ := exec_of_ok answers
      exact ⟨_, (find?_insertRow_of_ok accepted.symm).2, rfl⟩
    refine System.Safe.exceptBind (fun _ _ _ returned => by cases returned)
      (System.Safe.of_all_knowing (K := replayContract runId tid call) (p := fun _ => True)
        (fun h => r = runId → Decided runId index responseJson h) ?_ ?_ ?_ (Prog.all_true _)
        fun same => .inr (inserted same))
    · exact fun rely known same => rely _ _ (known same)
    · exact fun h act res state _ keeps known answers =>
        ⟨guar_of_allowed keeps answers, fun same => (known same).push answers⟩
    · rintro _ h known _ - h' rely _ ⟨⟩ same
      exact rely _ _ (known same)

end Safety

theorem replay_compose (runId : String) :
    System.Compose tape (fun _ => True) (replayContract runId) (replayPost runId) where
  compatible {tid call other call' h h'} ne guar := by
    obtain ⟨act, res, state, rfl, answers, -⟩ := guar
    exact fun _ _ decided => decided.push answers
  fresh {tid call h} _ _ := by
    cases call with
    | recordDecision r index model requestJson responseJson rationale policyVersion ts =>
      refine System.Safe.mono ?_ (safe_recordDecision model requestJson responseJson rationale policyVersion ts h)
      intro result h recorded
      cases result with
      | error e => trivial
      | ok value => exact recorded value rfl
    | _ => exact safe_of_any (fun _ _ => trivial) _ h

/-- **Replay reads what was recorded.**  In every interleaving of any calls in which compactions and drivers of the
    run stay apart, from any database: if a `record_decision` has returned a record, then in every
    later state in which the run is `RUNNING` both `get_decision` and `record_decision`, whatever body
    it brings, return a record with that response. -/
theorem replay_reads_recorded (runId : String) (index : Int) (w : World) (choices : List (Choice Call))
    (apart : tape.Along (System.Permits (fun _ => True) fun tid _ h act => CompactsApart runId tid h act) (quiet w) choices)
    {tid : Nat} {model requestJson responseJson rationale policyVersion : String} {ts : Int}
    {recorded : DecisionRecord}
    (returned : (tape.run (quiet w) choices).pool[tid]? =
      some ⟨.recordDecision runId index model requestJson responseJson rationale policyVersion ts,
        .ret (.ok recorded)⟩)
    (isRunning : running runId (tape.run (quiet w) choices).state) :
    ∃ row, row.responseJson = recorded.responseJson ∧
      (tape.alone (RunStore.getDecision runId index).run (tape.run (quiet w) choices).state).1 = .ok (some row) ∧
      ∀ model' requestJson' responseJson' rationale' policyVersion' ts',
        (tape.alone (RunStore.recordDecision runId index model' requestJson' responseJson' rationale'
          policyVersion' ts').run (tape.run (quiet w) choices).state).1 = .ok row := by
  have keeps := keepsReplay_of_apart apart
  have owned := quiet_owned w
  have empty : tape.PoolSafe (replayContract runId) (replayPost runId) (quiet w) := System.poolSafe_of_empty rfl
  have safe := System.run_safe (replay_compose runId) owned empty keeps
  have idle : BlankedIdle runId (tape.run (quiet w) choices).toHist := by
    refine System.run_hist (replay_compose runId) ?_ owned empty (fun blanked => by cases blanked) keeps
    rintro tid call h h' ⟨act, res, state, rfl, answers, keeps⟩ idle
    exact idle.push keeps answers
  -- a `RUNNING` run is not a blanked one
  have present : ∃ row, (tape.run (quiet w) choices).state.decisions.find? (runId, index) = some row ∧
      row.responseJson = recorded.responseJson := by
    refine (safe.returned returned rfl).resolve_left fun blanked => ?_
    obtain ⟨row, found, status⟩ := idle blanked
    simp [running, found, status] at isRunning
  obtain ⟨row, found, same⟩ := present
  refine ⟨row, same, ?_, fun _ _ _ _ _ _ => ?_⟩
  · rw [← found]
    rfl
  · have read : ((Stmt.decision (.getDecision runId index)).exec (tape.run (quiet w) choices).state).1 =
        .ok (some row) := by
      rw [← found]
      rfl
    exact congrArg Prod.fst (alone_query read)

/-! ## A run that is compacted and begun again -/

/-- The run `"r"` records a decision and fails. -/
def decidedAndFailed : List (Choice Call) :=
  serve 0 (.beginRun 0 "app" "user" "session" "invocation" {} "A" 60000 1 "r") ++
    serve 1 (.recordDecision "r" 0 "model" "pay?" "yes" "" "" 2) ++
    serve 2 (.endRun 0 "r" RunStatus.failed.code "" 10)

def compacted (tid : Nat) : List (Choice Call) := serve tid (.compactRun "r" 20)

def restarted (tid : Nat) : List (Choice Call) :=
  serve tid (.beginRun 0 "app" "user" "session" "invocation" {} "B" 60000 30 "r2")

/-- Thread `tid` is a `record_decision` for decision 0 of the run that returned this response. -/
def decisionReturned (c : TapeConfig) (tid : Nat) (response : String) : Bool :=
  match c.pool[tid]? with
  | some ⟨.recordDecision r index _ _ _ _ _ _, .ret (.ok recorded)⟩ =>
    r = "r" && index = 0 && recorded.responseJson = response
  | _ => false

theorem pool_of_decisionReturned (c : TapeConfig) (tid : Nat) (response : String)
    (returned : decisionReturned c tid response) :
    ∃ model requestJson responseJson rationale policyVersion ts recorded,
      c.pool[tid]? = some ⟨.recordDecision "r" 0 model requestJson responseJson rationale policyVersion ts,
        .ret (.ok recorded)⟩ ∧ recorded.responseJson = response := by
  unfold decisionReturned at returned
  split at returned
  next r index model requestJson responseJson rationale policyVersion ts recorded isReturn =>
    simp only [Bool.and_eq_true, decide_eq_true_eq] at returned
    obtain ⟨⟨rfl, rfl⟩, same⟩ := returned
    exact ⟨_, _, _, _, _, _, recorded, isReturn, same⟩
  next => cases returned

/-- The response `get_decision` returns for decision 0 of the run. -/
def replayedResponse (w : World) : Option String := (w.decisions.find? ("r", 0)).map DecisionRecord.responseJson

def compactedRun : TapeConfig :=
  tape.run (quiet (World.empty .sqlite)) (decidedAndFailed ++ compacted 3 ++ restarted 4)

/-- Restarted after its compaction, the run is `RUNNING` and replays an empty response. -/
theorem compacted_run_replays_blank :
    decisionReturned compactedRun 1 "yes" = true ∧ running "r" compactedRun.state = true ∧
      replayedResponse compactedRun.state = some "" := by
  refine ⟨?_, ?_, ?_⟩ <;> decide +kernel

/-- Restarted first, the run is refused to `compact_run`, and replays the response it recorded. -/
theorem restarted_run_replays_recorded : ∃ row, row.responseJson = "yes" ∧
    (tape.alone (RunStore.getDecision "r" 0).run
      (tape.run (quiet (World.empty .sqlite)) (decidedAndFailed ++ restarted 3 ++ compacted 4)).state).1 = .ok (some row) := by
  obtain ⟨_, _, _, _, _, _, recorded, returned, isYes⟩ := pool_of_decisionReturned
    (tape.run (quiet (World.empty .sqlite)) (decidedAndFailed ++ restarted 3 ++ compacted 4)) 1 "yes" (by decide +kernel)
  obtain ⟨row, same, replayed, -⟩ := replay_reads_recorded "r" 0 (World.empty .sqlite)
    (decidedAndFailed ++ restarted 3 ++ compacted 4) (by decide +kernel) returned (by decide +kernel)
  exact ⟨row, same.trans isYes, replayed⟩

end Tape.Run
