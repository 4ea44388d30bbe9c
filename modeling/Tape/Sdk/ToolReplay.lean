import Tape.Effect.Recorded
import Tape.Sdk.Tools

/-! # A tool that has succeeded

`before_tool_callback` asks for the outcome on record before it lets a body run.  The store takes the first
completion of an effect only: where a body succeeds while its effect is pending, the success is on record, and
no later drive runs the body again.
-/

namespace Tape.Sdk

open Interleave Tape.Sequential Effect

/-! ## Drives of a run -/

variable {τ : Type}

/-- What happens around a run.  The RPCs of a callback are served one after the other; the statements of other
    processes come between two callbacks. -/
inductive ToolDriveStep (τ : Type) where
  | beforeRun (inv runId : String) (decisions : Nat) (scopes : List String) (budgeted : Bool)
  | beforeModel (inv : String)
  | beforeTool (id : Nat) (call : ToolCall) (admission : TapePlugin.Admission) (server : Nat) (ts : Int)
  | afterTool (id : Nat) (body : TapePlugin.BodyOutcome) (ts : Int)
  | afterRun (inv : String)
  /-- The process is gone with its memory; the next one has the state that the framework gives it. -/
  | crash (state : τ)
  /-- What the framework and the agent's own code make of the state. -/
  | framework (state : τ)
  | reconcile (runId key : String) (status : Int) (responseJson errorJson : String) (ts : Int)
  | other (act : Act)

inductive ToolDriveEvent where
  /-- `begin_effect` answered with the row, and `before_tool_callback` returned the answer. -/
  | begun (runId key : String) (row : EffectRecord) (answer : Option Json)
  /-- A body returned, and its completion was acknowledged. -/
  | succeeded (runId key : String)

structure ToolDrive (τ : Type) where
  world : World
  plugin : TapePlugin τ
  /-- Newest first. -/
  log : List ToolDriveEvent

/-- What the client gets from `begin_effect`, and from `get_effect` after it. -/
def beginReply (runId : String) : Except StoreError EffectRecord × World → TapePlugin.BeginReply
  | (.ok row, w) => .answered row.idempotencyKey row.status row.responseJson
    (((w.effects.find? (runId, row.idempotencyKey)).map EffectRecord.externalRef).getD "")
  | (.error e, _) =>
    match db e with
    | .permissionDenied details => .permissionDenied details
    | .internal text | .notFound text | .failedPrecondition text => .raised text

namespace TapePlugin

def ToolRpc.send (ts : Int) (w : World) : ToolRpc → World
  | completeEffect runId key status responseJson errorJson =>
    (tape.alone (RunStore.completeEffect runId key status responseJson errorJson ts).run w).2
  | registerCompensation runId key kind payload compensatorRef maxAttempts =>
    (tape.alone (RunStore.registerCompensation runId key kind payload compensatorRef maxAttempts ts).run w).2

/-- The run and the key that a body succeeded under, with its result. -/
def success (states : ToolStates τ) (s : TapePlugin τ) (id : Nat) (c : ToolContext) (body : BodyOutcome) :
    Option (String × String × Json) :=
  match c.answer, body, s.toolKeys states id c with
  | none, .returned result, some (runId, key) =>
    if c.call.isOutboxAccepted result then none else some (runId, key, result)
  | _, _, _ => none

end TapePlugin

namespace ToolDrive

def start (w : World) (state : τ) : ToolDrive τ := ⟨w, .init state, []⟩

/-- The completion of the success is acknowledged. -/
def isAcknowledged (s : ToolDrive τ) (ts : Int) (success : String × String × Json) : Bool :=
  match (tape.alone (RunStore.completeEffect success.1 success.2.1 EffectStatus.confirmed.code success.2.2.dumps "" ts).run
    s.world).1 with
  | .ok (some _) => true
  | _ => false

end ToolDrive

namespace ToolDriveStep

variable (states : ToolStates τ) (loads : String → Option Json)

def take (s : ToolDrive τ) : ToolDriveStep τ → ToolDrive τ
  | beforeRun inv runId decisions scopes budgeted =>
    { s with plugin := s.plugin.beforeRun inv runId decisions scopes budgeted }
  | beforeModel inv => { s with plugin := s.plugin.beforeModel inv }
  | beforeTool id call admission server ts =>
    if (s.plugin.contexts id).isSome then s
    else
      match s.plugin.check call admission with
      | .asks request =>
        let out := tape.alone (RunStore.beginEffect server request ts).run s.world
        let reply := beginReply request.runId out
        { world := out.2
          plugin := s.plugin.beforeTool states loads id call admission fun _ => reply
          log := (out.1.toOption.map fun row =>
              .begun request.runId request.key row (TapePlugin.answer loads call reply)).toList ++ s.log }
      | _ => { s with plugin := s.plugin.beforeTool states loads id call admission fun _ => .raised "" }
  | afterTool id body ts =>
    match s.plugin.open? id with
    | none => s
    | some c =>
      { world := (s.plugin.report states id c body).foldl (TapePlugin.ToolRpc.send ts) s.world
        plugin := s.plugin.finish id c
        log := (((s.plugin.success states id c body).filter (s.isAcknowledged ts)).map fun success =>
            .succeeded success.1 success.2.1).toList ++ s.log }
  | afterRun inv => { s with plugin := s.plugin.afterRun inv }
  | crash state => { s with plugin := .init state }
  | framework state => { s with plugin := { s.plugin with state } }
  | reconcile runId key status responseJson errorJson ts =>
    { s with world := (tape.alone (RunStore.reconcileEffect runId key status responseJson errorJson ts).run s.world).2 }
  | other act => { s with world := (act.exec s.world).2 }

/-- A body that succeeds finds its effect pending, or confirmed with a response that can be read; and nobody
    else takes a response back. -/
def Decisive (s : ToolDrive τ) : ToolDriveStep τ → Prop
  | afterTool id body _ => (s.plugin.open? id).all fun c => (s.plugin.success states id c body).all fun success =>
    (s.world.effects.find? (success.1, success.2.1)).all fun row =>
      (row.status = EffectStatus.pending.code && (TapePlugin.recorded loads success.2.2.dumps).isSome) ||
        (row.status = EffectStatus.confirmed.code && (TapePlugin.recorded loads row.responseJson).isSome)
  | other act => KeepsRecords s.world (act.exec s.world).2
  | _ => True

end ToolDriveStep

/-- After a success, `begin_effect` answers with the confirmed effect, and its response takes the body's place. -/
def Replayed (loads : String → Option Json) : List ToolDriveEvent → Prop
  | [] => True
  | .begun runId key row answer :: earlier =>
    (.succeeded runId key ∈ earlier → row.status = EffectStatus.confirmed.code ∧
      answer = TapePlugin.recorded loads row.responseJson ∧ answer.isSome) ∧ Replayed loads earlier
  | .succeeded .. :: earlier => Replayed loads earlier

/-! ## What is on record -/

variable {states : ToolStates τ} {loads : String → Option Json} {s : ToolDrive τ} {step : ToolDriveStep τ}

/-- Every success is on record, and can be read. -/
def OnRecord (loads : String → Option Json) (s : ToolDrive τ) : Prop :=
  ∀ runId key, .succeeded runId key ∈ s.log → ∃ text, Records runId key text s.world ∧ (TapePlugin.recorded loads text).isSome

theorem keepsRecords_send (ts : Int) (rpc : TapePlugin.ToolRpc) (w : World) : KeepsRecords w (rpc.send ts w) := by
  cases rpc with
  | completeEffect runId key status responseJson errorJson =>
    exact keepsRecords_completeEffect runId key status responseJson errorJson ts w
  | registerCompensation runId key kind payload compensatorRef maxAttempts =>
    exact keepsRecords_registerCompensation runId key kind payload compensatorRef maxAttempts ts w

theorem keepsRecords_sends (ts : Int) (rpcs : List TapePlugin.ToolRpc) (w : World) :
    KeepsRecords w (rpcs.foldl (TapePlugin.ToolRpc.send ts) w) := by
  induction rpcs generalizing w with
  | nil => exact fun _ _ _ records => records
  | cons rpc rpcs inductionHypothesis =>
    exact fun runId key text records => inductionHypothesis _ _ _ _ (keepsRecords_send ts rpc w _ _ _ records)

/-- A success is the first thing that is reported. -/
theorem report_of_success {plugin : TapePlugin τ} {id : Nat} {c : ToolContext} {body : TapePlugin.BodyOutcome}
    {runId key : String}
    {result : Json} (success : plugin.success states id c body = some (runId, key, result)) :
    ∃ rest, plugin.report states id c body =
      .completeEffect runId key EffectStatus.confirmed.code result.dumps "" :: rest := by
  unfold TapePlugin.success at success
  split at success
  next _ unanswered keys =>
    split at success
    next => cases success
    next notAccepted =>
      cases success
      simp [TapePlugin.report, TapePlugin.outcome, unanswered, TapePlugin.afterTool, keys, notAccepted]
  next => cases success

theorem keepsRecords_take (decisive : step.Decisive states loads s) : KeepsRecords s.world (step.take states loads s).world := by
  cases step with
  | beforeRun | beforeModel | afterRun | crash | framework => exact fun _ _ _ records => records
  | beforeTool id call admission server ts =>
    simp only [ToolDriveStep.take]
    split
    next => exact fun _ _ _ records => records
    next =>
      split
      next request _ => exact keepsRecords_beginEffect server request ts s.world
      next => exact fun _ _ _ records => records
  | afterTool id body ts =>
    simp only [ToolDriveStep.take]
    split
    next => exact fun _ _ _ records => records
    next c _ => exact keepsRecords_sends ts (s.plugin.report states id c body) s.world
  | reconcile runId key status responseJson errorJson ts =>
    exact keepsRecords_reconcileEffect runId key status responseJson errorJson ts s.world
  | other act => exact decisive

/-- What an acknowledged success leaves. -/
theorem records_of_success {id : Nat} {body : TapePlugin.BodyOutcome} {ts : Int} {c : ToolContext} {runId key : String}
    {result : Json}
    (decisive : (ToolDriveStep.afterTool id body ts).Decisive states loads s) (isOpen : s.plugin.open? id = some c)
    (success : s.plugin.success states id c body = some (runId, key, result))
    (acknowledged : s.isAcknowledged ts (runId, key, result)) :
    ∃ text, Records runId key text ((s.plugin.report states id c body).foldl (TapePlugin.ToolRpc.send ts) s.world) ∧
      (TapePlugin.recorded loads text).isSome := by
  obtain ⟨rest, report⟩ := report_of_success success
  have answered : (s.world.effects.find? (runId, key)).isSome := by
    unfold ToolDrive.isAcknowledged at acknowledged
    split at acknowledged
    next answer => exact found_of_completeEffect answer
    next => cases acknowledged
  obtain ⟨row, found⟩ := Option.isSome_iff_exists.mp answered
  simp only [ToolDriveStep.Decisive, isOpen, success, found, Option.all_some, Bool.or_eq_true, Bool.and_eq_true,
    decide_eq_true_eq] at decisive
  rw [report, List.foldl_cons]
  cases decisive with
  | inl pending => exact ⟨_, keepsRecords_sends ts rest _ _ _ _ (records_completeEffect found pending.1 _ _), pending.2⟩
  | inr confirmed =>
    have records : Records runId key row.responseJson s.world := ⟨row, found, confirmed.1, rfl⟩
    exact ⟨_, keepsRecords_sends ts rest _ _ _ _ (keepsRecords_send ts _ _ _ _ _ records), confirmed.2⟩

theorem OnRecord.take (onRecord : OnRecord loads s) (decisive : step.Decisive states loads s) :
    OnRecord loads (step.take states loads s) := by
  have kept : ∀ runId key, .succeeded runId key ∈ s.log →
      ∃ text, Records runId key text (step.take states loads s).world ∧ (TapePlugin.recorded loads text).isSome := by
    intro runId key earlier
    obtain ⟨text, records, readable⟩ := onRecord runId key earlier
    exact ⟨text, keepsRecords_take decisive _ _ _ records, readable⟩
  intro runId key logged
  cases step with
  | beforeRun | beforeModel | afterRun | crash | framework | reconcile | other => exact kept runId key logged
  | beforeTool id call admission server ts =>
    refine kept runId key ?_
    simp only [ToolDriveStep.take] at logged
    split at logged
    next => exact logged
    next =>
      split at logged
      next => simpa using logged
      next => exact logged
  | afterTool id body ts =>
    cases isOpen : s.plugin.open? id with
    | none =>
      refine kept runId key ?_
      simpa [ToolDriveStep.take, isOpen] using logged
    | some c =>
      simp only [ToolDriveStep.take, isOpen, List.mem_append, Option.mem_toList, Option.map_eq_some_iff,
        Option.filter_eq_some_iff] at logged
      cases logged with
      | inr earlier => exact kept runId key earlier
      | inl new =>
        obtain ⟨⟨runId', key', result⟩, ⟨success, acknowledged⟩, isNew⟩ := new
        cases isNew
        simp only [ToolDriveStep.take, isOpen]
        exact records_of_success decisive isOpen success acknowledged

/-- The response of a confirmed effect takes the body's place. -/
theorem answer_of_confirmed (call : ToolCall) (runId : String) {row : EffectRecord}
    {out : Except StoreError EffectRecord × World} (answer : out.1 = .ok row)
    (confirmed : row.status = EffectStatus.confirmed.code) :
    TapePlugin.answer loads call (beginReply runId out) = TapePlugin.recorded loads row.responseJson := by
  obtain ⟨result, w⟩ := out
  cases answer
  simp [beginReply, TapePlugin.answer, confirmed]

/-- `before_tool_callback` gives back what is on record. -/
theorem Replayed.take (onRecord : OnRecord loads s) (replayed : Replayed loads s.log) :
    Replayed loads (step.take states loads s).log := by
  cases step with
  | beforeRun | beforeModel | afterRun | crash | framework | reconcile | other => exact replayed
  | beforeTool id call admission server ts =>
    simp only [ToolDriveStep.take]
    split
    next => exact replayed
    next =>
      split
      next request _ =>
        cases answer : (tape.alone (RunStore.beginEffect server request ts).run s.world).1 with
        | error e => exact replayed
        | ok row =>
          refine ⟨fun earlier => ?_, replayed⟩
          obtain ⟨text, ⟨recorded, found, confirmed, isText⟩, readable⟩ := onRecord _ _ earlier
          have isRecorded : row = recorded := beginEffect_recorded found answer
          subst isRecorded isText
          have reply : TapePlugin.answer loads call (beginReply request.runId _) = TapePlugin.recorded loads row.responseJson :=
            answer_of_confirmed call request.runId answer confirmed
          exact ⟨confirmed, reply, by rw [reply]; exact readable⟩
      next => exact replayed
  | afterTool id body ts =>
    simp only [ToolDriveStep.take]
    split
    next => exact replayed
    next c _ => cases (s.plugin.success states id c body).filter (s.isAcknowledged ts) <;> exact replayed

/-- Over any sequence of drives, crashes and reconciliations, a body that succeeded while its effect was pending or
    confirmed is never run again: each later call that `begin_effect` answers under the key gets the response on record. -/
theorem succeeded_tool_replayed (states : ToolStates τ) (loads : String → Option Json) (w : World) (state : τ)
    (steps : List (ToolDriveStep τ))
    (decisive : Along (ToolDriveStep.take states loads) (ToolDriveStep.Decisive states loads) (.start w state) steps) :
    Replayed loads (run (ToolDriveStep.take states loads) (.start w state) steps).log := by
  have start : OnRecord loads (.start w state) ∧ Replayed loads (ToolDrive.start w state).log :=
    ⟨fun _ _ logged => (List.not_mem_nil logged).elim, trivial⟩
  refine (run_invariant (I := fun s => OnRecord loads s ∧ Replayed loads s.log) ?_ start decisive).2
  exact fun s step kept decisive => ⟨kept.1.take decisive, kept.2.take kept.1⟩

/-! ## A payment over three drives -/

def payCall : ToolCall where
  invocationId := "inv"
  functionCallId := "a"
  toolName := "pay"

def paid : Json := .obj [("paid", .bool true)]

/-- The text of `paid`, and of nothing else. -/
def loadsPaid (text : String) : Option Json := if text = "\x7b\"paid\": true\x7d" then some paid else none

def paidRun : World :=
  (tape.alone (RunStore.beginRun 0 "app" "user" "s" "inv" {} "A" 60000 1 "r").run (World.empty .sqlite)).2

/-- A drive as far as the body of the payment. -/
def payDrive (id : Nat) (ts : Int) : List (ToolDriveStep SessionState) :=
  [.beforeRun "inv" "r" 0 [] false, .beforeModel "inv", .beforeTool id payCall .admitted 0 ts]

/-- The first drive crashes in the body, the second pays, the third comes by again. -/
def payments : List (ToolDriveStep SessionState) :=
  payDrive 0 10 ++ .crash noState :: payDrive 1 20 ++ .afterTool 1 (.returned paid) 30 :: .crash noState :: payDrive 2 40

theorem payment_replayed : (run (ToolDriveStep.take sessionStates loadsPaid) (.start paidRun noState) payments).log.length = 4 ∧
    Replayed loadsPaid (run (ToolDriveStep.take sessionStates loadsPaid) (.start paidRun noState) payments).log := by
  refine ⟨by decide +kernel, succeeded_tool_replayed sessionStates loadsPaid paidRun noState payments ?_⟩
  refine ⟨trivial, trivial, trivial, trivial, trivial, trivial, trivial, ?_, trivial, trivial, trivial, trivial, trivial⟩
  unfold ToolDriveStep.Decisive
  decide +kernel

end Tape.Sdk
