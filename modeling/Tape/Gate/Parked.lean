import Tape.Gate.Await
import Tape.Run.Ended

/-! # Parked runs and their gates

`await_signal` parks a run: it upserts the gate's row as awaited, and then sets
`waiting_on_gate` together with the status `WAITING`; `send_signal` clears the two
together.  `begin_run`, `resume_run` and `end_run` write the status alone, so each of
them takes the two columns apart when it meets a parked run, and `end_run` also when
it is asked for the status `WAITING`.  The gate's row, on the other hand, is always
there: it is written first and never deleted.
-/

namespace Tape.Gate

open Interleave

/-! ## Rows -/

/-- `waiting_on_gate` is set iff the status is `WAITING`. -/
abbrev Described (row : RunRow) : Prop := row.waitingOnGate ≠ "" ↔ row.status = RunStatus.waiting.code

/-- The `UPDATE` keeps the gate and the status of a row it selects in step. -/
def keepsDescription : RunStmt → RunRow → Bool
  | .claimRun .., row | .resumeRun .., row => row.waitingOnGate = ""
  | .endRun _ status _ _, row => decide (row.waitingOnGate ≠ "" ↔ status = RunStatus.waiting.code)
  | .parkRun _ gateName, _ => gateName ≠ ""
  | _, _ => true

theorem described_assign_iff {s : RunStmt} {row : RunRow} (described : Described row) :
    Described (s.assign row) ↔ keepsDescription s row := by
  cases s with
  | claimRun | resumeRun => simp [Described, RunStmt.assign, keepsDescription, RunStatus.code]
  | endRun => simp only [Described, RunStmt.assign, keepsDescription, decide_eq_true_eq]
  | parkRun => simp [Described, RunStmt.assign, keepsDescription]
  | releaseRun => simp [Described, RunStmt.assign, keepsDescription, RunStatus.code]
  | _ => simpa [RunStmt.assign, keepsDescription] using described

/-! ## Acts -/

/-- `act`, executed now, keeps the gate and the status in step in all the rows it selects. -/
def describes (w : World) : Act → Bool
  | .sql (.run s) => w.runs.rows.all fun row => !s.selects row || keepsDescription s row
  | _ => true

/-- What the five methods ask of their statements: a run starts out `RUNNING` and on no gate, and it is
    parked on a gate that the thread has made an awaited one. -/
def Proper (tid : Nat) (_ : Call) (h : TapeHist) : Act → Prop
  | .sql (.run (.insertRun row)) => row.status = RunStatus.running.code ∧ row.waitingOnGate = ""
  | .sql (.run (.parkRun runId gateName)) =>
    ∃ event ∈ h.log, event.tid = tid ∧ awaits event = some (runId, gateName)
  | _ => True

def AllDescribed (w : World) : Prop := ∀ row ∈ w.runs.rows, Described row

section Step

variable {tid : Nat} {call : Call} {h : TapeHist} {act : Act} {res : act.Res} {w state : World}

/-- An act leaves every run described exactly if it keeps the gate and the status in step. -/
theorem allDescribed_exec_iff (described : AllDescribed w) (proper : Proper tid call h act) :
    AllDescribed (act.exec w).2 ↔ describes w act := by
  constructor
  · intro still
    rcases act with (s | s | s | s | s | s | s | s | s | s | s) | _ | _
    case sql.run =>
      simp only [describes, List.all_eq_true, Bool.or_eq_true, Bool.not_eq_true']
      intro row member
      cases selected : s.selects row with
      | false => exact .inl rfl
      | true =>
        refine .inr ((described_assign_iff (described row member)).mp ?_)
        have changed := RunStmt.find?_exec_of_some (s := s) (Sql.Table.find?_key_of_mem member)
        rw [RunStmt.apply, if_pos selected] at changed
        exact still _ (Sql.Table.mem_of_find? changed)
    all_goals rfl
  · intro keeps row' member
    rcases run_origin (.exec (S := tape)) member with ⟨row, old, rfl | ⟨s, rfl, rfl⟩⟩ | rfl
    · exact described _ old
    · simp only [describes, List.all_eq_true, Bool.or_eq_true, Bool.not_eq_true'] at keeps
      unfold RunStmt.apply
      split
      next selected =>
        exact (described_assign_iff (described row old)).mpr ((keeps row old).resolve_left (by simp [selected]))
      next => exact described row old
    · simp [Described, proper.1, proper.2, RunStatus.code]

end Step

/-! ## The gates' rows -/

def isAwaited (w : World) (runId gateName : String) : Prop :=
  ∃ signal, w.signals.find? (runId, gateName) = some signal ∧ signal.awaited = 1

/-- Every gate that a run is parked on, or that a thread has made an awaited one, has its awaited row. -/
structure GatesAwaited (h : TapeHist) : Prop where
  parked : ∀ row ∈ h.state.runs.rows, row.waitingOnGate ≠ "" → isAwaited h.state row.runId row.waitingOnGate
  logged : ∀ event ∈ h.log, ∀ runId gateName, awaits event = some (runId, gateName) → isAwaited h.state runId gateName

section Gates

variable {tid : Nat} {call : Call} {h : TapeHist} {act : Act} {res : act.Res} {state : World}

theorem isAwaited_of_answers {runId gateName : String} (answers : tape.Answers act h.state res state)
    (awaited : isAwaited h.state runId gateName) : isAwaited state runId gateName := by
  obtain ⟨signal, found, isOne⟩ := awaited
  rcases signal_of_answers answers found with kept | ⟨s, -, changed⟩
  · exact ⟨signal, kept, isOne⟩
  · refine ⟨_, changed, ?_⟩
    cases s with
    | getSignal => exact isOne
    | consume | awaitGate | deliver =>
      simp only [SignalStmt.apply]
      split <;> first | exact isOne | rfl

theorem isAwaited_of_awaits {runId gateName : String} (answers : tape.Answers act h.state res state)
    (isAwait : awaits ⟨tid, act, res⟩ = some (runId, gateName)) : isAwaited state runId gateName := by
  unfold awaits at isAwait
  split at isAwait
  next _ r gate contextJson ts updated same =>
    cases same
    cases isAwait
    obtain ⟨-, rfl⟩ := exec_of_ok answers
    cases found : h.state.signals.find? (runId, gateName) with
    | none => exact ⟨_, by simp [Stmt.exec, SignalStmt.exec, Sql.Table.find?_upsert, found]; rfl, rfl⟩
    | some signal => exact ⟨_, by simp [Stmt.exec, SignalStmt.exec, Sql.Table.find?_upsert, found]; rfl, rfl⟩
  next => cases isAwait

theorem GatesAwaited.push (gates : GatesAwaited h) (answers : tape.Answers act h.state res state)
    (proper : Proper tid call h act) : GatesAwaited (h.push tid act res state) where
  parked row' member parked := by
    rcases run_origin answers member with ⟨row, old, rfl | ⟨s, rfl, rfl⟩⟩ | rfl
    · exact isAwaited_of_answers answers (gates.parked _ old parked)
    · have kept : ∀ {gate}, gate = row.waitingOnGate → gate ≠ "" → isAwaited state row.runId gate := by
        rintro gate rfl set
        exact isAwaited_of_answers answers (gates.parked row old set)
      unfold RunStmt.apply at parked ⊢
      split at parked
      next selected =>
        rw [if_pos selected]
        cases s with
        | parkRun runId gateName =>
          -- the thread has upserted the gate's row before
          obtain ⟨event, inLog, -, isAwait⟩ := proper
          obtain rfl : row.runId = runId := of_decide_eq_true selected
          exact isAwaited_of_answers answers (gates.logged event inLog _ _ isAwait)
        | releaseRun => exact absurd rfl parked
        | claimRun | resumeRun | endRun | bumpSeq | stampCompacted => exact kept rfl parked
        | _ => cases selected
      next unselected =>
        rw [if_neg unselected]
        exact kept rfl parked
    · exact absurd proper.2 parked
  logged event member runId gateName isAwait := by
    rcases List.mem_cons.mp member with rfl | member
    · exact isAwaited_of_awaits answers isAwait
    · exact isAwaited_of_answers answers (gates.logged event member runId gateName isAwait)

end Gates

/-! ## The five methods -/

section Safety

variable {tid : Nat} {call : Call}

abbrev contract : Nat → Call → Contract World Act Act.Res := tape.tracked (fun _ _ _ _ => True) Proper

theorem proper_of_housekeeping (act : Act) (housekeeping : Housekeeping act) (h : TapeHist) : Proper tid call h act := by
  cases housekeeping <;> trivial

theorem proper_compose :
    System.Compose tape (fun call => Run.isLifecycleCall call) contract fun _ _ _ _ => True := by
  refine System.tracked_compose fun {tid call h} admitted fresh => ?_
  have housekeeping : ∀ act, Housekeeping act → ∀ h, Proper tid call h act := proper_of_housekeeping
  cases call with
  | beginRun =>
    exact System.Safe.of_all_proper (fun _ _ => trivial) (all_beginRun housekeeping (fun _ => trivial)
      (fun _ _ _ => trivial) (fun _ _ => trivial) (fun _ fresh _ => fresh) fun _ _ => trivial) h
  | resumeRun =>
    exact System.Safe.of_all_proper (fun _ _ => trivial) (all_resumeRun (fun _ _ => trivial) (fun _ => trivial)) h
  | endRun =>
    exact System.Safe.of_all_proper (fun _ _ => trivial) (all_endRun housekeeping (fun _ => trivial)
      (fun _ => trivial) fun _ _ => trivial) h
  | awaitSignal =>
    refine (safe_awaitSignal housekeeping (fun _ _ _ => trivial) ?_ (fun _ _ => trivial) (fun _ _ _ _ _ => trivial) _ _
      fresh).mono fun _ _ _ => trivial
    exact fun h event known own isAwait => ⟨event, known, own, isAwait⟩
  | sendSignal =>
    refine System.Safe.of_all_proper (fun _ _ => trivial) ?_ h
    exact sendSignal_of (all_composable _) (fun act isHousekeeping => ⟨housekeeping act isHousekeeping, fun _ => trivial⟩)
      (fun _ => all_query fun _ => trivial) (fun _ => all_query fun _ => trivial) (fun _ => all_query fun _ => trivial)
      (all_query fun _ => trivial)
  | _ => cases admitted

end Safety

/-! ## Runs -/

/-- What `waiting_on_gate` says of every run of the database. -/
def ParkedRunsDescribed (w : World) : Prop :=
  ∀ row ∈ w.runs.rows, (row.waitingOnGate ≠ "" ↔ row.status = RunStatus.waiting.code) ∧
    (row.status = RunStatus.waiting.code → isAwaited w row.runId row.waitingOnGate)

/-- The act that the choice executes, if any, keeps the gate and the status of the runs in step. -/
def executesInStep (c : TapeConfig) : Choice Call → Bool
  | .exec tid => (c.pending tid).all fun thread => describes c.state thread.2
  | _ => true

theorem executesInStep_iff {admits : Call → Prop} {c : TapeConfig} {choice : Choice Call}
    (proper : System.Permits admits (fun tid call h act => True ∧ Proper tid call h act) c choice)
    (described : AllDescribed c.state) :
    executesInStep c choice ↔ AllDescribed (tape.step c choice).state := by
  cases choice with
  | spawn call => exact ⟨fun _ => described, fun _ => rfl⟩
  | fault tid => rw [System.step_fault_state]; exact ⟨fun _ => described, fun _ => rfl⟩
  | exec tid =>
    cases pending : c.pending tid with
    | none => simp [executesInStep, pending, tape.step_exec_of_idle pending, described]
    | some thread =>
      obtain ⟨call, act⟩ := thread
      have moved : (tape.step c (.exec tid)).state = (act.exec c.state).2 :=
        congrArg Hist.state (tape.step_exec_of_pending pending)
      simp only [System.Permits, pending] at proper
      simp only [executesInStep, pending, Option.all_some, moved]
      exact (allDescribed_exec_iff described proper.2).symm

/-- **`waiting_on_gate` describes the parked runs.**  Along every interleaving of the five methods, from
    any database in which it does (a fresh one included): it goes on describing them in every
    state reached exactly if every `UPDATE` executed keeps the gate and the status in step. -/
theorem parked_runs_described_iff (w : World) (choices : List (Choice Call)) (start : ParkedRunsDescribed w)
    (admitted : tape.Along (System.Permits (fun call => Run.isLifecycleCall call) fun _ _ _ _ => True) (quiet w)
      choices) :
    tape.Along (fun c choice => executesInStep c choice) (quiet w) choices ↔
      ∀ before, before <+: choices → ParkedRunsDescribed (tape.run (quiet w) before).state := by
  have owned := quiet_owned w
  have proper := System.along_proper proper_compose owned (System.poolSafe_of_empty rfl) admitted
  have described : AllDescribed w := fun row member => (start row member).1
  have exactly := System.Along.iff_prefixes (I := fun c => AllDescribed c.state)
    (fun _ _ => executesInStep_iff) (c := quiet w) described proper
  rw [exactly]
  refine forall₂_congr fun before isPrefix => ⟨fun inStep row member => ⟨inStep row member, fun waiting => ?_⟩,
    fun parked row member => (parked row member).1⟩
  -- the gate's row is there whatever is executed
  obtain ⟨after, rfl⟩ := isPrefix
  have gates : GatesAwaited (tape.run (quiet w) before).toHist := by
    refine System.run_tracked proper_compose ?_ owned (System.poolSafe_of_empty rfl) ⟨?_, ?_⟩
      (System.Along.append.mp admitted).1
    · exact fun tid call h act res state _ answers _ proper gates => gates.push answers proper
    · exact fun row member gate => (start row member).2 ((start row member).1.mp gate)
    · exact fun event member => by cases member
  exact gates.parked row member ((inStep row member).mpr waiting)

/-! ## A run that is parked and ended -/

/-- The run `"r"` is begun, parked on the gate `"cfo"`, and ended by `after`. -/
def parkedThen (after : Call) : List (Choice Call) :=
  serve 0 (.beginRun 0 "app" "user" "session" "invocation" {} "A" 60000 1 "r") ++
    serve 1 (.awaitSignal "r" "cfo" "" 10) ++ serve 2 after

/-- The gate and the status of run `"r"`. -/
def gateAfter (choices : List (Choice Call)) : Option (String × Int) :=
  ((tape.run (quiet (World.empty .sqlite)) choices).state.runs.find? "r").map fun row => (row.waitingOnGate, row.status)

theorem described_empty : ParkedRunsDescribed (World.empty .sqlite) := fun _ member => (List.not_mem_nil member).elim

/-- Cancelled or resumed, the run keeps its gate; ended as `WAITING` without being parked, it has none. -/
theorem cancelled_run_keeps_gate :
    gateAfter (parkedThen (.endRun 0 "r" RunStatus.cancelled.code "" 20)) = some ("cfo", RunStatus.cancelled.code) ∧
      gateAfter (parkedThen (.resumeRun "r" "B" 60000 20)) = some ("cfo", RunStatus.running.code) ∧
      gateAfter (serve 0 (.beginRun 0 "app" "user" "session" "invocation" {} "A" 60000 1 "r") ++
        serve 1 (.endRun 0 "r" RunStatus.waiting.code "" 20)) = some ("", RunStatus.waiting.code) := by
  refine ⟨?_, ?_, ?_⟩ <;> decide +kernel

/-- Released by its signal, it is described. -/
theorem released_run_described : ParkedRunsDescribed
    (tape.run (quiet (World.empty .sqlite)) (parkedThen (.sendSignal "r" "" "" "" "cfo" "yes" 20))).state :=
  (parked_runs_described_iff (World.empty .sqlite) (parkedThen (.sendSignal "r" "" "" "" "cfo" "yes" 20))
    described_empty (by decide +kernel)).mp (by decide +kernel) _ List.prefix_rfl

end Tape.Gate
