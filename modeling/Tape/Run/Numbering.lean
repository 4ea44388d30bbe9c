import Tape.Sdk.Plugin
import Tape.Sequential

/-! # Numbering after a resumption

A driver numbers its model calls from the number of decisions it counts when it starts.  What it
counts are the decisions before the first gap, so the numbering survives while there is none: every
model call that is followed by another was recorded.
-/

namespace Tape.Run

open Interleave Sdk

/-- The run has the decisions below `n` and no other. -/
def RecordedUpTo (runId : String) (n : Nat) (w : World) : Prop :=
  ∀ i : Int, (w.decisions.find? (runId, i)).isSome ↔ 0 ≤ i ∧ i < n

def decided (runId : String) (w : World) (i : Nat) : Bool := (w.decisions.find? (runId, (i : Int))).isSome

/-- The run that the invocation came to drive. -/
def opens (s : Drives) : PluginStep → Option String
  | .beforeRun i fate _ => (i.begin fate s.world).1.map BeginRunResponse.runId
  | _ => none

def replaysAt (runId : String) (s : Drives) : PluginStep → Bool
  | .modelCall r call => r = runId && replays r call s
  | _ => false

/-- After the step the decisions of the run have the numbers from 0 on, a driver that has just begun
    goes on with the next one, and the step answered no model call with a decision of another. -/
def Continues (runId : String) (s : Drives) (step : PluginStep) : Prop :=
  (∃ n, RecordedUpTo runId n (step.take s).world ∧
    (opens s step = some runId → ∃ d, (step.take s).drivers runId = some d ∧ d.dnext = n)) ∧
  replaysAt runId s step = false

/-- A driver that begins gets an answer about every decision there is, and there are no more than it
    counts; a model call follows one that was recorded. -/
def Gapless (runId : String) (s : Drives) (step : PluginStep) : Prop :=
  match step with
  | .beforeRun _ _ probes => opens s step = some runId → ∀ row ∈ s.world.decisions.rows, row.runId = runId →
      row.decisionIndex < hardCap ∧ probes row.decisionIndex.toNat = .answered
  | .modelCall r _ => r = runId → ∀ d ∈ s.drivers runId, d.dnext = 0 ∨ decided runId s.world (d.dnext - 1)
  | .afterRun .. | .crash _ => True

instance (runId : String) (s : Drives) : (step : PluginStep) → Decidable (Gapless runId s step)
  | .beforeRun .. => inferInstanceAs (Decidable (_ → ∀ row ∈ s.world.decisions.rows, _))
  | .modelCall .. => inferInstanceAs (Decidable (_ → ∀ d ∈ s.drivers runId, _))
  | .afterRun .. => isTrue trivial
  | .crash _ => isTrue trivial

variable {runId : String} {w w' : World} {n : Nat}

/-! ## The RPCs -/

theorem decided_iff (upTo : RecordedUpTo runId n w) (i : Nat) : decided runId w i ↔ i < n := by
  have there := upTo i
  rw [decided, there]
  omega

theorem recordedUpTo_congr (same : w'.decisions = w.decisions) : RecordedUpTo runId n w' ↔ RecordedUpTo runId n w := by
  rw [RecordedUpTo, same, RecordedUpTo]

/-- A run that exists stays. -/
theorem run_stays (act : Act) (w : World) (found : (w.runs.find? runId).isSome) :
    ((act.exec w).2.runs.find? runId).isSome := by
  obtain ⟨row, isRow⟩ := Option.isSome_iff_exists.mp found
  cases run_of_answers (.exec : tape.Answers act w (act.exec w).1 (act.exec w).2) isRow with
  | inl kept => exact Option.isSome_iff_exists.mpr ⟨_, kept⟩
  | inr changed =>
    obtain ⟨_, _, _, _, isRow'⟩ := changed
    exact Option.isSome_iff_exists.mpr ⟨_, isRow'⟩

theorem run_stays_alone {α : Type} (program : Prog Act Act.Res α) (found : (w.runs.find? runId).isSome) :
    ((tape.alone program w).2.runs.find? runId).isSome :=
  System.alone_of_all (S := tape) (p := fun _ => True) (I := fun w => (w.runs.find? runId).isSome)
    (fun act w _ => run_stays act w) (Prog.all_of (fun _ => trivial) _) found

theorem run_stays_reply {α : Type} (fate : Fate) (method : StoreM α) (found : (w.runs.find? runId).isSome) :
    ((fate.reply method w).2.runs.find? runId).isSome :=
  fate.reply_of_all (p := fun _ => True) (fun act w _ => run_stays act w) (Prog.all_of (fun _ => trivial) _) found

def KeepsDecisions (act : Act) : Prop := ∀ w, (act.exec w).2.decisions = w.decisions

theorem housekeeping_keeps_decisions (act : Act) (housekeeping : Housekeeping act) : KeepsDecisions act := by
  cases housekeeping <;> exact fun _ => rfl

theorem decisions_reply {α : Type} {method : StoreM α} (all : method.run.All KeepsDecisions) (fate : Fate) (w : World) :
    (fate.reply method w).2.decisions = w.decisions :=
  fate.reply_of_all (I := fun w' => w'.decisions = w.decisions) (fun _ _ keeps same => (keeps _).trans same) all rfl

theorem decisions_begin (i : Invocation) (fate : Fate) (w : World) : (i.begin fate w).2.decisions = w.decisions :=
  decisions_reply (all_beginRun housekeeping_keeps_decisions (fun _ => rfl) (fun _ _ _ => rfl) (fun _ _ => rfl)
    (fun _ _ _ => rfl) fun _ _ => rfl) fate w

theorem decisions_finish (server : Nat) (ts : Int) (fate : Fate) (w : World) :
    (fate.reply (finishRun server runId ts) w).2.decisions = w.decisions := by
  refine decisions_reply (.exceptBind (all_query fun _ => rfl) fun found => ?_) fate w
  cases found with
  | none => trivial
  | some cur =>
    exact all_ite (.exceptBind (all_endRun housekeeping_keeps_decisions (fun _ => rfl) (fun _ => rfl) fun _ _ => rfl)
      fun _ => trivial) trivial

/-- `begin_run` answers with a run that exists, and a run it creates did not exist before. -/
theorem alone_beginRun_ok {server : Nat} {app user session invocation : String} {identity : RunIdentity}
    {leaseOwner : String} {leaseTtlMs ts : Int} {newId : String} {resp : BeginRunResponse}
    (begun : tape.alone (RunStore.beginRun server app user session invocation identity leaseOwner leaseTtlMs ts
      newId).run w = (.ok resp, w')) :
    (w'.runs.find? resp.runId).isSome ∧ (resp.resumed = false → w.runs.find? resp.runId = none) := by
  unfold RunStore.beginRun at begun
  obtain ⟨known, w₁, looked, rest⟩ := alone_seq_ok begun
  obtain rfl : w₁ = w := by
    cases looked
    rfl
  cases known with
  | some found =>
    obtain ⟨_, w₂, _, rest⟩ := alone_seq_ok rest
    obtain ⟨current, w₃, read, rest⟩ := alone_seq_ok rest
    cases current with
    | none => cases rest
    | some row =>
      cases rest
      have answer : (Except.ok (w₂.runs.find? found.1), w₂) = ((.ok (some row), w') : Except StoreError _ × World) := read
      obtain ⟨isRow, rfl⟩ := Prod.mk.inj answer
      exact ⟨by rw [Except.ok.inj isRow]; rfl, nofun⟩
  | none =>
    obtain ⟨_, w₂, inserted, rest⟩ := alone_seq_ok rest
    have free := find?_insertRow_of_ok (congrArg Prod.fst inserted)
    have there : (w₂.runs.find? newId).isSome := by
      have isRow : w₂.runs = _ := (congrArg (fun out => out.2.runs) inserted).symm
      rw [isRow]
      exact Option.isSome_iff_exists.mpr ⟨_, free.2⟩
    have stays : (w'.runs.find? newId).isSome := by
      rw [show w' = _ from (congrArg Prod.snd rest).symm]
      exact run_stays_alone _ there
    obtain ⟨_, _, _, rest⟩ := alone_seq_ok rest
    obtain ⟨_, _, _, rest⟩ := alone_seq_ok rest
    obtain ⟨_, _, _, rest⟩ := alone_seq_ok rest
    cases rest
    exact ⟨stays, fun _ => free.1⟩

/-- A driver that has begun drives a run that exists. -/
theorem run_of_begun {i : Invocation} {fate : Fate} {resp : BeginRunResponse} (begun : i.begin fate w = (some resp, w')) :
    (w'.runs.find? resp.runId).isSome ∧ (resp.resumed = false → w.runs.find? resp.runId = none) := by
  cases fate with
  | failed => cases begun
  | answered =>
    obtain ⟨answer, left⟩ := Prod.mk.inj begun
    cases done : (tape.alone (RunStore.beginRun i.server i.appName i.userId i.sessionId i.invocationId i.identity
        i.leaseOwner i.leaseTtlMs i.ts i.newId).run w).1 with
    | error e =>
      rw [done] at answer
      cases answer
    | ok value =>
      rw [done] at answer
      cases answer
      exact alone_beginRun_ok (Prod.ext done left)

/-- The count comes to the number of decisions, if no probe for one of them fails. -/
theorem countDecisions_eq (upTo : RecordedUpTo runId n w) {probes : Nat → Fate} (answered : ∀ i < n, probes i = .answered)
    {fuel k : Nat} (started : k ≤ n) (enough : n ≤ k + fuel) : countDecisions runId probes w fuel k = n := by
  induction fuel generalizing k with
  | zero => exact Nat.le_antisymm started enough
  | succ fuel inductionHypothesis =>
    have there := upTo k
    unfold countDecisions
    by_cases below : k < n
    · obtain ⟨row, found⟩ := Option.isSome_iff_exists.mp (there.mpr (by omega))
      have reply : ((probes k).reply (RunStore.getDecision runId k) w).1 = some (some row) := by
        rw [answered k below, ← found]
        rfl
      rw [reply]
      exact inductionHypothesis below (by omega)
    · have absent : w.decisions.find? (runId, (k : Int)) = none := by
        rw [← Option.not_isSome_iff_eq_none, there]
        omega
      have isEnd : k = n := by omega
      cases probes k with
      | failed => exact isEnd
      | answered =>
        have reply : (Fate.answered.reply (RunStore.getDecision runId k) w).1 = some none := congrArg some absent
        rw [reply]
        exact isEnd

/-- The act leaves all decisions but one. -/
def WritesDecision (runId : String) (i : Nat) (act : Act) : Prop :=
  ∀ w pk, pk ≠ (runId, (i : Int)) → (act.exec w).2.decisions.find? pk = w.decisions.find? pk

theorem writes_of_keeps {act : Act} (keeps : KeepsDecisions act) (i : Nat) : WritesDecision runId i act :=
  fun w pk _ => by rw [keeps w]

theorem writes_insertDecision {i : Nat} {row : DecisionRecord} (isPk : row.pk = (runId, (i : Int))) :
    WritesDecision runId i (.decision (.insertDecision row)) := by
  intro w pk other
  cases found : w.decisions.find? pk with
  | some old => exact find?_insertRow_of_some found
  | none =>
    cases after : ((DecisionStmt.insertDecision row).exec w).2.find? pk with
    | none => exact after
    | some new =>
      obtain ⟨same, _⟩ := DecisionStmt.insert_of_find?_exec found after
      cases same
      exact absurd (DecisionStmt.insert_of_find?_exec found after).2 (by rw [isPk]; exact other.symm)

theorem all_recordDecision (i : Nat) (model requestJson responseJson rationale policyVersion : String) (ts : Int) :
    (RunStore.recordDecision runId i model requestJson responseJson rationale policyVersion ts).run.All
      (WritesDecision runId i) := by
  have housekeeping (act : Act) (isHousekeeping : Housekeeping act) : WritesDecision runId i act :=
    writes_of_keeps (housekeeping_keeps_decisions act isHousekeeping) i
  refine .exceptBind (all_query (writes_of_keeps (fun _ => rfl) i)) fun found => ?_
  cases found with
  | some recorded => trivial
  | none =>
    exact .exceptBind (all_nextSeq housekeeping runId) fun _ => .exceptBind (all_query (writes_insertDecision rfl)) fun _ =>
      .exceptBind (all_journal housekeeping _ _ _ _ _ (by constructor)) fun _ => trivial

/-- `record_decision`, whatever became of it, leaves the other decisions. -/
theorem reply_recordDecision (fate : Fate) (i : Nat) (model requestJson responseJson rationale policyVersion : String)
    (ts : Int) (w : World) {pk : String × Int} (other : pk ≠ (runId, (i : Int))) :
    (fate.reply (RunStore.recordDecision runId i model requestJson responseJson rationale policyVersion ts)
      w).2.decisions.find? pk = w.decisions.find? pk :=
  fate.reply_of_all (I := fun w' => w'.decisions.find? pk = w.decisions.find? pk)
    (fun _ w' writes same => (writes w' pk other).trans same) (all_recordDecision i ..) rfl

/-! ## The callbacks -/

/-- The run has `n` decisions, and its driver has made no model call that was not recorded, but
    perhaps the last. -/
structure Numbered (runId : String) (n : Nat) (s : Drives) : Prop where
  upTo : RecordedUpTo runId n s.world
  exists_ : 0 < n → (s.world.runs.find? runId).isSome
  driver : ∀ d, s.drivers runId = some d → (d.dnext = n ∨ d.dnext = n + 1) ∧ (s.world.runs.find? runId).isSome

variable {s s' : Drives}

/-- Steps that do not concern the run leave its numbering. -/
theorem Numbered.frame (numbered : Numbered runId n s)
    (decisions : ∀ i, s'.world.decisions.find? (runId, i) = s.world.decisions.find? (runId, i))
    (runs : (s.world.runs.find? runId).isSome → (s'.world.runs.find? runId).isSome)
    (drivers : ∀ d, s'.drivers runId = some d → s.drivers runId = some d) : Numbered runId n s' := by
  refine ⟨fun i => ?_, fun some_ => runs (numbered.exists_ some_), fun d isDriver => ?_⟩
  · rw [decisions]
    exact numbered.upTo i
  · have was := numbered.driver d (drivers d isDriver)
    exact ⟨was.1, runs was.2⟩

theorem numbered_beforeRun (numbered : Numbered runId n s) (i : Invocation) (fate : Fate) (probes : Nat → Fate)
    (counted : opens s (.beforeRun i fate probes) = some runId → ∀ k < n, k < hardCap ∧ probes k = .answered) :
    Numbered runId n (beforeRun i fate probes s) ∧ (opens s (.beforeRun i fate probes) = some runId →
      ∃ d, (beforeRun i fate probes s).drivers runId = some d ∧ d.dnext = n) := by
  have kept := decisions_begin i fate s.world
  have stays : (s.world.runs.find? runId).isSome → ((i.begin fate s.world).2.runs.find? runId).isSome :=
    run_stays_reply fate _
  simp only [opens] at counted ⊢
  unfold beforeRun
  cases begun : i.begin fate s.world with
  | mk answer w =>
    rw [begun] at kept stays counted
    cases answer with
    | none => exact ⟨numbered.frame (fun _ => by rw [kept]) stays fun _ same => same, nofun⟩
    | some resp =>
      have opened := run_of_begun begun
      by_cases same : resp.runId = runId
      · subst same
        have isNext : (if resp.resumed then countDecisions resp.runId probes w hardCap 0 else 0) = n := by
          cases resumed : resp.resumed with
          | false =>
            -- a run that was just created has no decision yet
            have new := opened.2 resumed
            have none_ : ¬ 0 < n := fun some_ => by simpa [new] using numbered.exists_ some_
            simp only [Bool.false_eq_true, if_false]
            omega
          | true =>
            rw [if_pos rfl]
            have upTo := (recordedUpTo_congr kept).mpr numbered.upTo
            have below (k : Nat) (lt : k < n) := counted rfl k lt
            refine countDecisions_eq upTo (fun k lt => (below k lt).2) (Nat.zero_le n) ?_
            by_contra beyond
            have last := (below (n - 1) (by omega)).1
            omega
        simp only [isNext]
        refine ⟨⟨(recordedUpTo_congr kept).mpr numbered.upTo, fun _ => opened.1, fun d isDriver => ?_⟩, fun _ => ?_⟩
        · simp only [Function.update_self] at isDriver
          cases isDriver
          exact ⟨.inl rfl, opened.1⟩
        · exact ⟨_, Function.update_self .., rfl⟩
      · refine ⟨numbered.frame (fun _ => by rw [kept]) stays fun d isDriver => ?_, fun isRun => ?_⟩
        · exact (Function.update_of_ne (Ne.symm same) _ _).symm.trans isDriver
        · exact absurd (Option.some.inj isRun) same

/-- While a model call is answered, its own decision may come to the others. -/
structure Answering (runId : String) (k : Nat) (s : Drives) : Prop where
  upTo : RecordedUpTo runId k s.world ∨ RecordedUpTo runId (k + 1) s.world
  exists_ : (s.world.runs.find? runId).isSome
  driver : s.drivers runId = some ⟨k + 1, some k⟩

theorem Answering.numbered {k : Nat} (answering : Answering runId k s) : ∃ n, Numbered runId n s := by
  have driver (n : Nat) (next : k + 1 = n ∨ k + 1 = n + 1) (d : Driver) (isDriver : s.drivers runId = some d) :
      (d.dnext = n ∨ d.dnext = n + 1) ∧ (s.world.runs.find? runId).isSome := by
    rw [answering.driver] at isDriver
    cases isDriver
    exact ⟨next, answering.exists_⟩
  cases answering.upTo with
  | inl without => exact ⟨k, without, fun _ => answering.exists_, driver k (.inr rfl)⟩
  | inr within => exact ⟨k + 1, within, fun _ => answering.exists_, driver (k + 1) (.inl rfl)⟩

theorem recordedUpTo_write {k : Nat} (upTo : RecordedUpTo runId k w ∨ RecordedUpTo runId (k + 1) w)
    (others : ∀ pk, pk ≠ (runId, (k : Int)) → w'.decisions.find? pk = w.decisions.find? pk) :
    RecordedUpTo runId k w' ∨ RecordedUpTo runId (k + 1) w' := by
  have other (i : Int) (ne : i ≠ k) : (w'.decisions.find? (runId, i)).isSome ↔ 0 ≤ i ∧ i < k := by
    rw [others (runId, i) fun same => ne (Prod.mk.inj same).2]
    cases upTo with
    | inl without => exact without i
    | inr within =>
      rw [within i]
      omega
  by_cases own : (w'.decisions.find? (runId, (k : Int))).isSome
  · refine .inr fun i => ?_
    by_cases same : i = k
    · subst same
      simp [own]
    · rw [other i same]
      omega
  · refine .inl fun i => ?_
    by_cases same : i = k
    · subst same
      simp [own]
    · exact other i same

theorem Answering.afterModel {k : Nat} (answering : Answering runId k s) (a : Answer) :
    Answering runId k (afterModel runId s a) := by
  unfold Sdk.afterModel
  rw [answering.driver]
  exact ⟨recordedUpTo_write answering.upTo fun _ other => reply_recordDecision _ k _ _ _ _ _ _ _ other,
    run_stays_reply _ _ answering.exists_, answering.driver⟩

theorem Answering.fold {k : Nat} (answers : List Answer) (answering : Answering runId k s) :
    Answering runId k (answers.foldl (Sdk.afterModel runId) s) := by
  induction answers generalizing s with
  | nil => exact answering
  | cons a answers inductionHypothesis => exact inductionHypothesis (answering.afterModel a)

theorem numbered_modelCall (numbered : Numbered runId n s) (call : ModelCall)
    (follows : ∀ d ∈ s.drivers runId, d.dnext = 0 ∨ decided runId s.world (d.dnext - 1)) :
    (∃ n', Numbered runId n' (modelCall runId call s)) ∧ replays runId call s = false := by
  cases drives : s.drivers runId with
  | none =>
    have kept : Function.update s.drivers runId none = s.drivers := by rw [← drives, Function.update_eq_self]
    have noDriver : advance runId s = s := by simp only [advance, drives, Option.map_none, kept]
    have fold : ∀ answers : List Answer, answers.foldl (afterModel runId) s = s := by
      intro answers
      induction answers with
      | nil => rfl
      | cons a answers inductionHypothesis =>
        rw [List.foldl_cons, show afterModel runId s a = s by rw [afterModel, drives]; rfl]
        exact inductionHypothesis
    have same : modelCall runId call s = s := by
      unfold modelCall
      rw [noDriver, fold, ite_self]
    exact ⟨⟨n, by rwa [same]⟩, by rw [replays, drives]⟩
  | some d =>
    obtain ⟨next, there⟩ := numbered.driver d drives
    -- the call before was recorded, so the number is the next one
    have isNext : d.dnext = n := by
      cases follows d drives with
      | inl first => omega
      | inr before =>
        have below := (decided_iff numbered.upTo _).mp before
        omega
    have absent : s.world.decisions.find? (runId, (d.dnext : Int)) = none := by
      rw [← Option.not_isSome_iff_eq_none, numbered.upTo]
      omega
    have fresh : replays runId call s = false := by
      rw [replays, drives]
      cases call.asked with
      | failed => simp [Fate.reply]
      | answered =>
        have reply : (Fate.answered.reply (RunStore.getDecision runId d.dnext) s.world).1 = some none := congrArg some absent
        simp [reply]
    have answering : Answering runId n (advance runId s) := by
      refine ⟨.inl numbered.upTo, there, ?_⟩
      simp [advance, drives, isNext]
    refine ⟨?_, fresh⟩
    unfold modelCall
    split
    · exact answering.numbered
    · exact (answering.fold call.answers).numbered

/-- A model call of another run. -/
theorem frame_modelCall (numbered : Numbered runId n s) {other : String} (ne : other ≠ runId) (call : ModelCall) :
    Numbered runId n (modelCall other call s) := by
  have advanced : Numbered runId n (advance other s) :=
    numbered.frame (fun _ => rfl) id fun d isDriver => (Function.update_of_ne ne.symm _ _).symm.trans isDriver
  have fold (answers : List Answer) {s : Drives} (numbered : Numbered runId n s) :
      Numbered runId n (answers.foldl (afterModel other) s) := by
    induction answers generalizing s with
    | nil => exact numbered
    | cons a answers inductionHypothesis =>
      refine inductionHypothesis ?_
      unfold afterModel
      split
      · exact numbered
      next idx isLast =>
        exact numbered.frame (fun i => reply_recordDecision _ idx _ _ _ _ _ _ _ fun same => ne (Prod.mk.inj same).1.symm)
          (run_stays_reply _ _) fun _ same => same
  unfold modelCall
  split
  · exact advanced
  · exact fold call.answers advanced

/-! ## Histories -/

theorem numbered_step (numbered : Numbered runId n s) {step : PluginStep} (gapless : Gapless runId s step) :
    (∃ n', Numbered runId n' (step.take s)) ∧ Continues runId s step := by
  cases step with
  | beforeRun i fate probes =>
    have begun := numbered_beforeRun numbered i fate probes fun isRun k lt => by
      obtain ⟨row, found⟩ := Option.isSome_iff_exists.mp ((numbered.upTo k).mpr (by omega))
      have isKey : row.pk = (runId, (k : Int)) := Sql.Table.key_of_find? found
      obtain ⟨own, index⟩ := Prod.mk.inj isKey
      -- the plugin is answered about every decision on record, and so counts them all
      have answered := gapless isRun row (Sql.Table.mem_of_find? found) own
      rw [index] at answered
      exact ⟨by omega, answered.2⟩
    exact ⟨⟨n, begun.1⟩, ⟨n, begun.1.upTo, begun.2⟩, rfl⟩
  | modelCall r call =>
    by_cases same : r = runId
    · subst same
      obtain ⟨⟨n', numbered'⟩, fresh⟩ := numbered_modelCall numbered call (gapless rfl)
      exact ⟨⟨n', numbered'⟩, ⟨n', numbered'.upTo, nofun⟩, by simp [replaysAt, fresh]⟩
    · have kept := frame_modelCall numbered same call
      exact ⟨⟨n, kept⟩, ⟨n, kept.upTo, nofun⟩, by simp [replaysAt, same]⟩
  | afterRun r server ts fate =>
    -- ending a run leaves its decisions, and the driver is forgotten
    have kept : (fate.reply (finishRun server r ts) s.world).2.decisions = s.world.decisions :=
      decisions_finish server ts fate s.world
    have after : Numbered runId n (PluginStep.take s (.afterRun r server ts fate)) :=
      numbered.frame (fun i => congrArg (fun t => Sql.Table.find? t (runId, i)) kept) (run_stays_reply _ _) fun d isDriver => by
        by_cases same : runId = r
        · subst same
          simp [PluginStep.take, forget] at isDriver
        · exact (Function.update_of_ne same _ _).symm.trans isDriver
    exact ⟨⟨n, after⟩, ⟨n, after.upTo, nofun⟩, rfl⟩
  | crash r =>
    have after : Numbered runId n (PluginStep.take s (.crash r)) :=
      numbered.frame (fun _ => rfl) id fun d isDriver => by
        by_cases same : runId = r
        · subst same
          simp [PluginStep.take, forget] at isDriver
        · exact (Function.update_of_ne same _ _).symm.trans isDriver
    exact ⟨⟨n, after⟩, ⟨n, after.upTo, nofun⟩, rfl⟩

/-- In a history without gaps, the decisions of the run have contiguous numbers after every step, a
    driver goes on with the first that is free, and no model call is answered with a recorded decision. -/
theorem numbering_continues (runId : String) (w : World) (blank : w.decisions = .empty) (steps : List PluginStep)
    (gapless : Sequential.Along PluginStep.take (Gapless runId) ⟨w, fun _ => none⟩ steps) :
    Sequential.Along PluginStep.take (Continues runId) ⟨w, fun _ => none⟩ steps := by
  have start : Numbered runId 0 ⟨w, fun _ => none⟩ := by
    refine ⟨fun i => ?_, fun some_ => absurd some_ (Nat.lt_irrefl 0), nofun⟩
    rw [blank]
    simp only [Sql.Table.find?_empty, Option.isSome_none, Bool.false_eq_true, false_iff]
    omega
  exact Sequential.Along.of_invariant (I := fun s => ∃ n, Numbered runId n s)
    (fun _ _ ⟨_, numbered⟩ gapless => (numbered_step numbered gapless).1)
    (fun _ _ ⟨_, numbered⟩ gapless => (numbered_step numbered gapless).2) ⟨0, start⟩ gapless

def invocation (ts : Int) : Invocation where
  appName := "app"
  userId := "user"
  sessionId := "s"
  invocationId := "i"
  leaseOwner := "A"
  leaseTtlMs := 60000
  ts := ts
  newId := "r"

def driven (ts : Int) : PluginStep := .beforeRun (invocation ts) .answered fun _ => .answered

def call (ts : Int) (fate : Fate) : PluginStep := .modelCall "r"
    { answers := [{ responseJson := "response", ts := ts, fate := fate }] }

def history (steps : List PluginStep) : Drives := Sequential.run PluginStep.take ⟨.empty, fun _ => none⟩ steps

/-- A driver dies after two model calls that were recorded; the next one goes on with the third. -/
theorem third_call_is_next :
    Continues "r" (history [driven 1, call 2 .answered, call 3 .answered, .crash "r"]) (driven 9) := by
  have continues := numbering_continues "r" .empty rfl
    [driven 1, call 2 .answered, call 3 .answered, .crash "r", driven 9]
    ⟨by decide, by decide, by decide, trivial, by decide, trivial⟩
  exact continues.2.2.2.2.1

/-- The second of three model calls is not recorded, and the driver dies. -/
def forgetful : List PluginStep :=
  [driven 1, call 2 .answered, call 3 (.failed 0), call 4 .answered, .crash "r", driven 9, call 10 .answered]

/-- The next driver counts one decision, and its second model call is answered with the third decision. -/
theorem third_decision_replayed :
    (decided "r" (history (forgetful.take 5)).world 0 ∧ ¬ decided "r" (history (forgetful.take 5)).world 1 ∧
      decided "r" (history (forgetful.take 5)).world 2) ∧
    ((history (forgetful.take 6)).drivers "r").map Driver.dnext = some 1 ∧
    replaysAt "r" (history forgetful) (call 11 .answered) := by
  decide

end Tape.Run
