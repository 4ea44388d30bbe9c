import Tape.System

/-! # The agent run of an entry

For an `AGENT` reaction the matcher begins a run under an invocation id made of the
reaction and the entry, and `begin_run` finds that run again when the entry is
dispatched a second time.  Finding it is not harmless: `begin_run` takes the lease for
its caller and sets the run to `RUNNING`, unless it is `TERMINAL` or `STUCK`.
-/

namespace Tape.Matcher

open Interleave

/-- The run under the entry's invocation id, as `begin_run` looks it up. -/
def agentRun (w : World) (r : Reaction) (e : EventEntry) : Option RunRow :=
  w.runs.rows.find? fun row => row.appName = r.agentApp && row.userId = "" && row.sessionId = "" &&
    row.invocationId = invocation r e

/-- The database after the entry was dispatched for the reaction, with no statement failing. -/
def afterDispatch (tick : Tick) (r : Reaction) (e : EventEntry) (w : World) : World :=
  (tape.alone (dispatch tick r e).run w).2

/-- What the claim says of a run is the same. -/
def leaseOf (row : RunRow) : Int × String × Int := (row.status, row.leaseOwner, row.leaseExpiresAtMs)

/-- `begin_run` leaves the run's status and lease as they are: it is `TERMINAL` or `STUCK`, or it has
    already what `begin_run` would write at `runMs`. -/
def undisturbed (runMs : Int) (row : RunRow) : Bool :=
  row.status = RunStatus.terminal.code || row.status = RunStatus.stuck.code ||
    leaseOf row = (RunStatus.running.code, "matcher", addI64 runMs 0)

section Rows

variable {r : Reaction} {e : EventEntry} {w : World} {row : RunRow}

/-- No statement changes under which invocation a run goes. -/
theorem invocation_apply (s : RunStmt) (row : RunRow) :
    (s.apply row).appName = row.appName ∧ (s.apply row).userId = row.userId ∧
      (s.apply row).sessionId = row.sessionId ∧ (s.apply row).invocationId = row.invocationId := by
  unfold RunStmt.apply
  split
  · cases s <;> exact ⟨rfl, rfl, rfl, rfl⟩
  · exact ⟨rfl, rfl, rfl, rfl⟩

theorem runId_apply (s : RunStmt) (row : RunRow) : (s.apply row).runId = row.runId := by
  unfold RunStmt.apply
  split
  · exact s.set.key_apply row
  · rfl

theorem agentRun_map {w' : World} (s : RunStmt) (rows : w'.runs.rows = w.runs.rows.map s.apply)
    (found : agentRun w r e = some row) : agentRun w' r e = some (s.apply row) := by
  rw [agentRun, rows, List.find?_map]
  have same : ((fun row : RunRow => decide (row.appName = r.agentApp) && decide (row.userId = "") &&
      decide (row.sessionId = "") && decide (row.invocationId = invocation r e)) ∘ s.apply) =
      fun row => decide (row.appName = r.agentApp) && decide (row.userId = "") &&
        decide (row.sessionId = "") && decide (row.invocationId = invocation r e) := by
    funext row
    obtain ⟨app, user, session, inv⟩ := invocation_apply s row
    simp only [Function.comp_apply, app, user, session, inv]
  rw [same]
  exact congrArg (Option.map s.apply) found

/-- The run of an entry stays its run, whatever is executed. -/
theorem agentRun_of_answers {act : Act} {res : act.Res} {w' : World} (answers : tape.Answers act w res w')
    (found : agentRun w r e = some row) : ∃ row', agentRun w' r e = some row' ∧ row'.runId = row.runId := by
  rcases runs_cases answers with same | ⟨s, rfl, -, rfl⟩
  · exact ⟨row, by rw [agentRun, same]; exact found, rfl⟩
  · rcases RunStmt.rows_exec s w with ⟨new, rows⟩ | rows
    · refine ⟨row, ?_, rfl⟩
      have grown : ((Act.sql (.run s)).exec w).2.runs.rows = w.runs.rows ++ [new] := rows
      rw [agentRun, grown, List.find?_append]
      rw [agentRun] at found
      rw [found, Option.some_or]
    · exact ⟨_, agentRun_map s rows found, runId_apply s row⟩

/-- Alone, `begin_run` of an invocation that exists is one lease-taking `UPDATE` on its run. -/
theorem alone_beginRun_of_found (server : Nat) (leaseOwner : String) (leaseTtlMs ts : Int) (newId : String)
    (found : agentRun w r e = some row) :
    ∃ response, tape.alone (RunStore.beginRun server r.agentApp "" "" (invocation r e) {} leaseOwner leaseTtlMs ts
        newId).run w =
      (.ok response, (Stmt.exec (.run (.claimRun row.runId leaseOwner (addI64 ts (max leaseTtlMs 0)))) w).2) := by
  have looked : ((Stmt.run (.findInvocation r.agentApp "" "" (invocation r e))).exec w).1 =
      .ok (some (row.runId, row.seqCursor)) := by
    have read := congrArg (Option.map fun row : RunRow => (row.runId, row.seqCursor)) found
    exact congrArg Except.ok read
  have there := RunStmt.find?_exec_of_some (s := .claimRun row.runId leaseOwner (addI64 ts (max leaseTtlMs 0)))
    (Sql.Table.find?_key_of_mem (List.mem_of_find?_eq_some found))
  refine ⟨{
    runId := row.runId, resumed := true, nextSeq := row.seqCursor
    status := ((RunStmt.claimRun row.runId leaseOwner (addI64 ts (max leaseTtlMs 0))).apply row).status }, ?_⟩
  refine (alone_query (s := .run (.findInvocation r.agentApp "" "" (invocation r e))) looked).trans ?_
  refine (alone_query (s := .run (.claimRun row.runId leaseOwner _)) rfl).trans ?_
  exact alone_query (s := .run (.getRun row.runId))
    (w := (Stmt.exec (.run (.claimRun row.runId leaseOwner (addI64 ts (max leaseTtlMs 0)))) w).2)
    (congrArg Except.ok there)

/-- The second dispatch of an entry is one lease-taking `UPDATE` on its run. -/
theorem agentRun_afterDispatch {tick : Tick} (isAgent : HandlerKind.ofCode r.handlerKind = .agent)
    (found : agentRun w r e = some row) :
    agentRun (afterDispatch tick r e w) r e = some ((RunStmt.claimRun row.runId "matcher"
      (addI64 (tick.around r.reactionId e.globalSeq).runMs 0)).apply row) := by
  obtain ⟨response, begun⟩ := alone_beginRun_of_found tick.server "matcher" 0
    (tick.around r.reactionId e.globalSeq).runMs (tick.around r.reactionId e.globalSeq).newRunId found
  have after : afterDispatch tick r e w = (Stmt.exec (.run (.claimRun row.runId "matcher"
      (addI64 (tick.around r.reactionId e.globalSeq).runMs 0))) w).2 := by
    simp only [afterDispatch, dispatch, isAgent, dispatchAgent]
    rw [alone_orElse, alone_seq begun]
    rfl
  rw [after]
  exact agentRun_map _ rfl found

end Rows

theorem leaseOf_claimRun_iff {runMs : Int} (row : RunRow) :
    leaseOf ((RunStmt.claimRun row.runId "matcher" (addI64 runMs 0)).apply row) = leaseOf row ↔
      undisturbed runMs row := by
  by_cases final : row.status = RunStatus.terminal.code ∨ row.status = RunStatus.stuck.code
  · have skipped : (RunStmt.claimRun row.runId "matcher" (addI64 runMs 0)).apply row = row := by
      rw [RunStmt.apply, if_neg]
      simpa [RunStmt.selects] using fun running => final.resolve_left running
    simp [skipped, undisturbed, final]
  · have taken : leaseOf ((RunStmt.claimRun row.runId "matcher" (addI64 runMs 0)).apply row) =
        (RunStatus.running.code, "matcher", addI64 runMs 0) := by
      rw [RunStmt.apply, if_pos]
      · rfl
      · simpa [RunStmt.selects] using final
    rw [taken]
    simp only [not_or] at final
    simp only [undisturbed, final, decide_false, Bool.false_or, decide_eq_true_eq]
    exact eq_comm

/-! ## Re-processing -/

/-- **Dispatching an entry again takes its run.**  Let an `AGENT` reaction's entry be dispatched, with
    the run `created` as its result, and let any calls be served after that, in any interleaving:
    the second dispatch of the entry leaves the status, the lease owner and the lease expiry of that
    run as they are exactly if it is undisturbed. -/
theorem redispatch_keeps_run_iff (r : Reaction) (e : EventEntry) (first second : Tick) (w : World)
    (created : RunRow) (between : List (Choice Call)) (isAgent : HandlerKind.ofCode r.handlerKind = .agent)
    (begun : agentRun (afterDispatch first r e w) r e = some created) :
    let w' := (tape.run (quiet (afterDispatch first r e w)) between).state
    ∃ before after, agentRun w' r e = some before ∧ before.runId = created.runId ∧
      agentRun (afterDispatch second r e w') r e = some after ∧ after.runId = created.runId ∧
      (leaseOf after = leaseOf before ↔
        undisturbed (second.around r.reactionId e.globalSeq).runMs before) := by
  intro w'
  -- whatever was executed in between, the run is there
  obtain ⟨before, found, same⟩ : ∃ before, agentRun w' r e = some before ∧ before.runId = created.runId := by
    refine System.run_state (I := fun w => ∃ row, agentRun w r e = some row ∧ row.runId = created.runId) ?_
      ⟨created, begun, rfl⟩ between
    rintro op s res s' answers ⟨row, found, same⟩
    obtain ⟨row', found', same'⟩ := agentRun_of_answers answers found
    exact ⟨row', found', same'.trans same⟩
  refine ⟨before, _, found, same, agentRun_afterDispatch isAgent found, ?_, ?_⟩
  · rw [runId_apply, same]
  · exact leaseOf_claimRun_iff before

/-! ## A run that is driven, and one that was cancelled -/

/-- Starts a `"followup"` run for every effect that failed. -/
def followup : Reaction where
  reactionId := "followup"
  name := ""
  subjectPattern := "/tape/effect/failed/**"
  predicateCel := ""
  handlerKind := HandlerKind.agent.code
  agentApp := "treasury"
  publishTarget := ""
  maxConcurrency := 1
  rateLimitPerS := 0
  debounceMs := 0
  retryMax := 5
  retryBackoffMs := 1000
  dlqAfterN := 5
  numShards := 1
  createdAtMs := 1

def failedWire : EventEntry where
  runId := "r"
  seq := 3
  kind := "effect"
  payload := .obj []
  tsMs := 900
  globalSeq := 7
  subject := "/tape/effect/failed/wire/r"
  schemaVersion := 1
  traceId := ""
  spanId := ""
  parentSpanId := ""

/-- A pass whose clock stands at `now`; the run it begins is `"f"`. -/
def passAt (now : Int) : Tick where
  server := 0
  execute _ _ := .ok (some true)
  around _ _ := { runMs := now, newRunId := "f" }
  persistMs _ _ := now

/-- The lease columns of the entry's run after a dispatch at 1000, what `between` does, and a
    second dispatch at 2000. -/
def leaseAfterBoth (between : List (Choice Call)) : Option (Int × String × Int) :=
  let w := afterDispatch (passAt 1000) followup failedWire (World.empty .sqlite)
  let w' := (tape.run (quiet w) between).state
  (agentRun (afterDispatch (passAt 2000) followup failedWire w') followup failedWire).map leaseOf

/-- A driver loses its live lease to the second dispatch, and a cancelled run is `RUNNING` again. -/
theorem redispatch_disturbs_run :
    selects (passAt 2000).execute followup failedWire ∧
      leaseAfterBoth (serve 0 (.resumeRun "f" "driver" 60000 1500)) =
        some (RunStatus.running.code, "matcher", 2000) ∧
      leaseAfterBoth (serve 0 (.endRun 0 "f" RunStatus.cancelled.code "" 1500)) =
        some (RunStatus.running.code, "matcher", 2000) := by
  decide +kernel

def endedTerminal : List (Choice Call) := serve 0 (.endRun 0 "f" RunStatus.terminal.code "" 1500)

/-- A `TERMINAL` run is left as it is. -/
theorem redispatch_keeps_terminal_run :
    ∃ before after, leaseOf before = (RunStatus.terminal.code, "", 1000) ∧ leaseOf after = leaseOf before ∧
      agentRun (afterDispatch (passAt 2000) followup failedWire
        (tape.run (quiet (afterDispatch (passAt 1000) followup failedWire (World.empty .sqlite)))
          endedTerminal).state) followup failedWire = some after := by
  obtain ⟨created, begun⟩ : ∃ created, agentRun (afterDispatch (passAt 1000) followup failedWire
      (World.empty .sqlite)) followup failedWire = some created := by
    refine Option.isSome_iff_exists.mp ?_
    decide +kernel
  obtain ⟨before, after, found, -, found', -, kept⟩ := redispatch_keeps_run_iff followup failedWire (passAt 1000)
    (passAt 2000) (World.empty .sqlite) created endedTerminal rfl begun
  have ended : leaseOf before = (RunStatus.terminal.code, "", 1000) := by
    refine Option.some.inj ((congrArg (Option.map leaseOf) found).symm.trans ?_)
    decide +kernel
  refine ⟨before, after, ended, kept.mpr ?_, found'⟩
  have status : before.status = RunStatus.terminal.code := congrArg Prod.fst ended
  simp [undisturbed, status]

end Tape.Matcher
