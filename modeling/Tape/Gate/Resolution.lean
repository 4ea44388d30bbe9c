import Tape.Gate.Await

/-! # Gate resolutions

`await_signal` returns the resolution of a gate to which a signal was delivered.
`send_signal` upserts the gate's row and so replaces its resolution, whether or not it
was returned before.  No other statement touches a delivered resolution, and no
statement takes a delivery back: a driver that replays the gate reads what it read the
first time as long as nobody delivers another resolution in between.
-/

namespace Tape.Gate

open Interleave

/-- `act` delivers to the gate no other resolution than the one that was read from it, if one was. -/
def repeatsResolution (runId gateName : String) (h : TapeHist) : Act → Bool
  | .sql (.signal (.deliver r gate resolutionJson _)) =>
    (r, gate) ≠ (runId, gateName) ||
      h.log.all fun event => (resolutionRead runId gateName event).all fun read => read = resolutionJson
  | _ => true

/-! ## The gate's row -/

/-- The gate's row holds every resolution read from it, and every reading repeats those before it. -/
structure Settled (runId gateName : String) (h : TapeHist) : Prop where
  kept : ∀ event ∈ h.log, ∀ resolution, resolutionRead runId gateName event = some resolution →
    ∃ row, h.state.signals.find? (runId, gateName) = some row ∧ row.delivered = 1 ∧ row.resolutionJson = resolution
  repeated : Logged (fun event older => ∀ earlier ∈ older, ∀ resolution,
    resolutionRead runId gateName earlier = some resolution →
      ∀ reading, gateReading runId gateName event = some reading → reading = some (1, resolution)) h.log

section Step

variable {runId gateName : String} {tid : Nat} {h : TapeHist} {act : Act} {res : act.Res} {state : World}

theorem Settled.push (settled : Settled runId gateName h) (answers : tape.Answers act h.state res state)
    (repeats : repeatsResolution runId gateName h act) : Settled runId gateName (h.push tid act res state) where
  kept event member resolution isRead := by
    rcases List.mem_cons.mp member with rfl | older
    · -- the row was delivered when it was read, and reading left it alone
      obtain ⟨unchanged, isRow⟩ := row_of_gateReading answers (resolutionRead_eq_some.mp isRead)
      cases found : h.state.signals.find? (runId, gateName) with
      | none => simp [found] at isRow
      | some row =>
        rw [found, Option.map_some, Option.some.injEq, Prod.mk.injEq] at isRow
        exact ⟨row, unchanged.trans found, isRow.1.symm, isRow.2.symm⟩
    · obtain ⟨row, found, delivered, rfl⟩ := settled.kept event older resolution isRead
      obtain ⟨row', found', delivered', same | ⟨ts, rfl⟩⟩ := delivered_of_answers answers found delivered
      · exact ⟨row', found', delivered', same⟩
      refine ⟨row', found', delivered', ?_⟩
      simp only [repeatsResolution, Bool.or_eq_true, decide_eq_true_eq, ne_eq, not_true_eq_false, false_or,
        List.all_eq_true] at repeats
      have same := repeats event older
      rw [isRead, Option.all_some, decide_eq_true_eq] at same
      exact same.symm
  repeated := by
    refine ⟨fun earlier older resolution isRead reading isReading => ?_, settled.repeated⟩
    obtain ⟨row, found, delivered, rfl⟩ := settled.kept earlier older resolution isRead
    obtain ⟨-, isRow⟩ := row_of_gateReading answers isReading
    rw [isRow, found, Option.map_some, delivered]

end Step

/-! ## `await_signal` -/

abbrev readContract (runId gateName : String) : Nat → Call → Contract World Act Act.Res :=
  tape.tracked (fun _ _ h act => repeatsResolution runId gateName h act) fun _ _ _ _ => True

/-- A returned `await_signal` of the gate answered what its thread had read. -/
def awaitPost (runId gateName : String) (tid : Nat) (call : Call) (out : call.Out) (h : TapeHist) : Prop :=
  match call, out with
  | .awaitSignal r gate _ _, .ok answer => (r, gate) = (runId, gateName) →
    ∃ event ∈ h.log, event.tid = tid ∧ ∃ reading, gateReading r gate event = some reading ∧ awaitAnswer reading = answer
  | _, _ => True

theorem read_compose (runId gateName : String) :
    System.Compose tape (fun _ => True) (readContract runId gateName) (awaitPost runId gateName) := by
  refine System.tracked_compose fun {tid call h} _ fresh => ?_
  cases call with
  | awaitSignal r gate payloadJson ts =>
    refine (safe_awaitSignal (fun _ _ _ => trivial) (fun _ _ _ => trivial) (fun _ _ _ _ _ => trivial)
      (fun _ _ => trivial) (fun _ _ _ _ _ => trivial) payloadJson ts fresh).mono fun result h answered => ?_
    cases result with
    | error e => trivial
    | ok answer => exact fun _ => (answered answer rfl).1
  | _ => exact System.Safe.of_all_proper (fun _ _ => trivial) (Prog.all_of (fun _ _ => trivial) _) h

/-! ## Replays -/

/-- **A gate resolution replays.**  Along every interleaving of any calls, from any database, in which
    no other resolution is delivered to the gate once one was read from it: when an `await_signal` has
    returned a delivered resolution, every later one that returns returns the same. -/
theorem gate_resolution_replays (runId gateName : String) (w : World) (before after : List (Choice Call))
    (repeats : tape.Along (System.Permits (fun _ => True) fun _ _ h act => repeatsResolution runId gateName h act) (quiet w)
      (before ++ after))
    {first second : Nat} {payloadJson payloadJson' resolution : String} {ts ts' : Int} {answer : Bool × String}
    (returned : (tape.run (quiet w) before).pool[first]? =
      some ⟨.awaitSignal runId gateName payloadJson ts, .ret (.ok (true, resolution))⟩)
    (later : (tape.run (quiet w) before).pool.length ≤ second)
    (again : (tape.run (quiet w) (before ++ after)).pool[second]? =
      some ⟨.awaitSignal runId gateName payloadJson' ts', .ret (.ok answer)⟩) : answer = (true, resolution) := by
  have owned := quiet_owned w
  have empty : tape.PoolSafe (readContract runId gateName) (awaitPost runId gateName) (quiet w) :=
    System.poolSafe_of_empty rfl
  obtain ⟨event, known, -, reading, isReading, handed⟩ := (System.run_safe (read_compose runId gateName) owned empty
    (System.Along.append.mp repeats).1).returned returned rfl
  obtain ⟨event', known', own, reading', isReading', handed'⟩ := (System.run_safe (read_compose runId gateName) owned empty
    repeats).returned again rfl
  obtain rfl := awaitAnswer_eq_true.mp handed
  -- the second reading is newer than the first
  have settled : Settled runId gateName (tape.run (quiet w) (before ++ after)).toHist := by
    refine System.run_hist_of_steps (fun _ _ _ _ _ _ _ repeats answers settled => settled.push answers repeats) ?_ repeats
    exact ⟨fun event member => (List.not_mem_nil member).elim, trivial⟩
  obtain ⟨new, grown⟩ := tape.run_grown (tape.run (quiet w) before) after
  rw [System.run_append, grown] at known'
  have isNew : event' ∈ new := (List.mem_append.mp known').resolve_right fun old => by
    have bound := owned.run before event' old
    omega
  obtain ⟨between, newer, split⟩ := List.append_of_mem isNew
  have since : (tape.run (quiet w) (before ++ after)).log =
      between ++ event' :: (newer ++ (tape.run (quiet w) before).log) := by
    rw [System.run_append, grown, split, List.append_assoc, List.cons_append]
  have same := settled.repeated.of_split between since event
    (List.mem_append_right _ known) resolution (resolutionRead_eq_some.mpr isReading) reading' isReading'
  rw [← handed', same]
  rfl

/-! ## A gate that is signalled twice -/

/-- The run `"r"` waits for the CFO, who says yes; the driver reads the answer. -/
def approvedByCfo : List (Choice Call) :=
  serve 0 (.awaitSignal "r" "cfo" "" 10) ++ serve 1 (.sendSignal "r" "" "" "" "cfo" "yes" 20) ++
    serve 2 (.awaitSignal "r" "cfo" "" 30)

/-- A second signal arrives, and the driver replays the gate. -/
def signalledAgain (resolution : String) : List (Choice Call) :=
  serve 3 (.sendSignal "r" "" "" "" "cfo" resolution 40) ++ serve 4 (.awaitSignal "r" "cfo" "" 50)

/-- What the `await_signal` of thread `tid` returned for the gate of run `"r"`. -/
def cfoReturned (choices : List (Choice Call)) (tid : Nat) : Option (Bool × String) :=
  awaitReturned "r" "cfo" (tape.run (quiet (World.empty .sqlite)) choices) tid

/-- Read as `"yes"`, the gate is replayed as `"no"`. -/
theorem resolution_replaced :
    cfoReturned approvedByCfo 2 = some (true, "yes") ∧
      cfoReturned (approvedByCfo ++ signalledAgain "no") 4 = some (true, "no") := by
  refine ⟨?_, ?_⟩ <;> decide +kernel

/-- The same signal sent again changes nothing. -/
theorem resolution_repeated : cfoReturned (approvedByCfo ++ signalledAgain "yes") 4 = some (true, "yes") := by
  have approved : cfoReturned approvedByCfo 2 = some (true, "yes") := by decide +kernel
  have replayed : (cfoReturned (approvedByCfo ++ signalledAgain "yes") 4).isSome := by decide +kernel
  obtain ⟨_, _, returned⟩ := pool_of_awaitReturned approved
  obtain ⟨answer, isAnswer⟩ := Option.isSome_iff_exists.mp replayed
  obtain ⟨_, _, again⟩ := pool_of_awaitReturned isAnswer
  rw [isAnswer, gate_resolution_replays "r" "cfo" (World.empty .sqlite) approvedByCfo (signalledAgain "yes")
    (by decide +kernel) returned (by decide +kernel) again]

end Tape.Gate
