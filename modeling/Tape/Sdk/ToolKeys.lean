import Tape.Sdk.Tools

/-! # Whose effect a tool call completes

The callbacks after a tool find the key of its effect by name.  The name is the same for every call: a call whose
effect was never begun may find the key of another one.
-/

namespace Tape.Sdk

open Tape.Sequential

/-! ## A session -/

/-- What is documented of the state of a context: its delta is what it wrote itself, whoever else writes, and it reads
    its delta before anything else. -/
structure ToolStates.Lawful {τ : Type} (states : ToolStates τ) : Prop where
  delta_set : ∀ state id name value id' name', states.delta (states.set state id name value) id' name' =
    if id' = id ∧ name' = name then some value else states.delta state id' name'
  get_of_delta : ∀ state id name value, states.delta state id name = some value → states.get state id name = some value

variable {τ : Type}

/-- A callback of an invocation, with what the RPCs of `before_tool_callback` come to.  Tools that are called in
    parallel come to their callbacks in any order. -/
inductive ToolStep (τ : Type) where
  | beforeRun (inv runId : String) (decisions : Nat) (scopes : List String) (budgeted : Bool)
  | beforeModel (inv : String)
  | beforeTool (id : Nat) (call : ToolCall) (admission : TapePlugin.Admission) (reply : TapePlugin.BeginReply)
  /-- The body came to its outcome, where it runs, and the callback after it is called. -/
  | afterTool (id : Nat) (body : TapePlugin.BodyOutcome)
  | afterRun (inv : String)
  /-- What the framework and the agent's own code make of the state. -/
  | framework (state : τ)

inductive ToolEvent where
  /-- `begin_effect` returned the key. -/
  | begun (id : Nat) (key : String)
  /-- A callback after the tool called an RPC. -/
  | issued (id : Nat) (rpc : TapePlugin.ToolRpc)

structure ToolSession (τ : Type) where
  plugin : TapePlugin τ
  /-- Newest first. -/
  log : List ToolEvent

namespace TapePlugin

/-- The key that `begin_effect` returned. -/
def begunKey (s : TapePlugin τ) (call : ToolCall) (admission : Admission) (reply : RunStore.EffectRequest → BeginReply) :
    Option String :=
  match s.check call admission with
  | .asks request =>
    match reply request with
    | .answered key .. => some key
    | _ => none
  | _ => none

/-- No tool has been called. -/
def idle (s : TapePlugin τ) : TapePlugin τ := { s with contexts := fun _ => none }

end TapePlugin

namespace ToolStep

variable (states : ToolStates τ) (loads : String → Option Json)

def take (s : ToolSession τ) : ToolStep τ → ToolSession τ
  | beforeRun inv runId decisions scopes budgeted =>
    { s with plugin := s.plugin.beforeRun inv runId decisions scopes budgeted }
  | beforeModel inv => { s with plugin := s.plugin.beforeModel inv }
  | beforeTool id call admission reply =>
    if (s.plugin.contexts id).isSome then s
    else
      { plugin := s.plugin.beforeTool states loads id call admission fun _ => reply
        log := ((s.plugin.begunKey call admission fun _ => reply).map (.begun id)).toList ++ s.log }
  | afterTool id body =>
    match s.plugin.open? id with
    | none => s
    | some c =>
      { plugin := s.plugin.finish id c
        log := (s.plugin.report states id c body).reverse.map (.issued id) ++ s.log }
  | afterRun inv => { s with plugin := s.plugin.afterRun inv }
  | framework state => { s with plugin := { s.plugin with state } }

/-- The framework leaves a call that is under way what its context wrote. -/
def KeepsDeltas (s : ToolSession τ) : ToolStep τ → Prop
  | framework state => ∀ id, (s.plugin.open? id).isSome → ∀ name, states.delta state id name = states.delta s.plugin.state id name
  | _ => True

/-- A call that no effect was begun for finds no key of another's, or reports nothing. -/
def Attributed (s : ToolSession τ) : ToolStep τ → Prop
  | afterTool id body => ∀ c, s.plugin.open? id = some c →
      c.key.isSome ∨ s.plugin.toolKeys states id c = none ∨ TapePlugin.isAccepted c body
  | _ => True

end ToolStep

/-- Every effect is completed, and every inverse registered, under the key that `begin_effect` had returned for
    the call. -/
def OwnKeys : List ToolEvent → Prop
  | [] => True
  | .begun .. :: earlier => OwnKeys earlier
  | .issued id rpc :: earlier => .begun id rpc.key ∈ earlier ∧ OwnKeys earlier

/-! ## The keys -/

namespace TapePlugin

variable {states : ToolStates τ} {loads : String → Option Json} {s : TapePlugin τ} {c : ToolContext} {call : ToolCall} {id : Nat}

theorem delta_stash (lawful : states.Lawful) (runId key externalRef : String) (status : Int) (state : τ) :
    states.delta (stash states id call runId key externalRef status state) id keyName = some key := by
  unfold stash
  split <;> simp [lawful.delta_set, keyName, runIdName]

/-- A context writes nothing to another's delta. -/
theorem delta_stash_ne (lawful : states.Lawful) {other : Nat} (differs : other ≠ id) (runId key externalRef : String)
    (status : Int) (state : τ) (name : String) :
    states.delta (stash states id call runId key externalRef status state) other name = states.delta state other name := by
  unfold stash
  split <;> simp [lawful.delta_set, differs]

variable (states loads s id call) in
/-- A call gets a context with its own key, if it has one, and the key is in the delta. -/
theorem contexts_beforeTool (lawful : states.Lawful) (admission : Admission) (reply : RunStore.EffectRequest → BeginReply) :
    (∀ other, other ≠ id → ∀ name, states.delta (s.beforeTool states loads id call admission reply).state other name =
      states.delta s.state other name) ∧
    (((s.beforeTool states loads id call admission reply).contexts = s.contexts ∧ s.begunKey call admission reply = none) ∨
      ∃ c, (s.beforeTool states loads id call admission reply).contexts = Function.update s.contexts id (some c) ∧
        c.key = s.begunKey call admission reply ∧ ∀ key, c.key = some key →
          states.delta (s.beforeTool states loads id call admission reply).state id keyName = some key) := by
  unfold beforeTool begunKey
  cases s.check call admission with
  | unjournaled => exact ⟨fun _ _ _ => rfl, .inr ⟨_, rfl, rfl, fun key own => by cases own⟩⟩
  | refused answer => exact ⟨fun _ _ _ => rfl, .inr ⟨_, rfl, rfl, fun key own => by cases own⟩⟩
  | raised => exact ⟨fun _ _ _ => rfl, .inl ⟨rfl, rfl⟩⟩
  | asks request =>
    simp only
    cases reply request with
    | answered key status responseJson externalRef =>
      refine ⟨fun other differs name => delta_stash_ne lawful differs .., .inr ⟨_, rfl, rfl, fun key' own => ?_⟩⟩
      cases own
      exact delta_stash lawful ..
    | permissionDenied details => exact ⟨fun _ _ _ => rfl, .inr ⟨_, rfl, rfl, fun key own => by cases own⟩⟩
    | raised text => exact ⟨fun _ _ _ => rfl, .inr ⟨_, rfl, rfl, fun key own => by cases own⟩⟩

/-- A context that has a key in its delta reads it. -/
theorem key_of_toolKeys (lawful : states.Lawful) {runId key own : String} (keys : s.toolKeys states id c = some (runId, key))
    (isOwn : states.delta s.state id keyName = some own) : key = own := by
  unfold toolKeys at keys
  split at keys
  next runId' key' _ isKey =>
    cases keys
    simp only [lawful.get_of_delta _ _ _ _ isOwn, truthy, Option.filter_eq_some_iff, Option.some.injEq] at isKey
    exact isKey.1.symm
  next => cases keys

theorem toolKeys_of_afterTool {result : Json} {rpc : ToolRpc} (issued : rpc ∈ s.afterTool states id c result) :
    ∃ runId, s.toolKeys states id c = some (runId, rpc.key) := by
  unfold afterTool at issued
  split at issued
  next => cases issued
  next runId key keys =>
    refine ⟨runId, keys.trans ?_⟩
    split at issued
    next => cases issued
    next =>
      cases compensate : c.call.effect.compensate with
      | none =>
        simp only [compensate, List.mem_singleton] at issued
        rw [issued]
        rfl
      | some kind =>
        simp only [compensate, List.mem_cons, List.not_mem_nil, or_false] at issued
        cases issued with
        | inl isComplete => rw [isComplete]; rfl
        | inr isRegister => rw [isRegister]; rfl

theorem toolKeys_of_onToolError {isAckLost : Bool} {type message : String} {rpc : ToolRpc}
    (issued : rpc ∈ s.onToolError states id c isAckLost type message) :
    ∃ runId, s.toolKeys states id c = some (runId, rpc.key) := by
  unfold onToolError at issued
  split at issued
  next => cases issued
  next runId key keys =>
    rw [List.mem_singleton.mp issued]
    exact ⟨runId, keys⟩

/-- The callbacks after a tool use the key that they find. -/
theorem toolKeys_of_report {body : BodyOutcome} {rpc : ToolRpc} (issued : rpc ∈ s.report states id c body) :
    ∃ runId, s.toolKeys states id c = some (runId, rpc.key) := by
  unfold report at issued
  split at issued
  next => exact toolKeys_of_afterTool issued
  next => exact toolKeys_of_onToolError issued

theorem report_eq_nil_iff (body : BodyOutcome) :
    s.report states id c body = [] ↔ s.toolKeys states id c = none ∨ isAccepted c body := by
  unfold report isAccepted
  cases outcome c body with
  | returned result =>
    cases keys : s.toolKeys states id c with
    | none => simp [afterTool, keys]
    | some found => cases accepted : c.call.isOutboxAccepted result <;> simp [afterTool, keys, accepted]
  | raised isAckLost type message => cases keys : s.toolKeys states id c <;> simp [onToolError, keys]

theorem contexts_of_open {s : TapePlugin τ} (isOpen : s.open? id = some c) : s.contexts id = some c :=
  (Option.filter_eq_some_iff.mp isOpen).1

end TapePlugin

/-! ## Sessions -/

variable {states : ToolStates τ} {loads : String → Option Json} {s : ToolSession τ}

/-- The log tells which calls have which keys, and the context of a call that is under way has its key in its delta. -/
structure Keyed (states : ToolStates τ) (s : ToolSession τ) : Prop where
  begun_iff : ∀ id key, .begun id key ∈ s.log ↔ ∃ c, s.plugin.contexts id = some c ∧ c.key = some key
  stashed : ∀ id c key, s.plugin.open? id = some c → c.key = some key →
    states.delta s.plugin.state id keyName = some key

/-- Where contexts and state are as they were, nothing is lost. -/
theorem Keyed.congr {plugin : TapePlugin τ} (keyed : Keyed states s) (contexts : plugin.contexts = s.plugin.contexts)
    (deltas : ∀ id, (s.plugin.open? id).isSome → states.delta plugin.state id keyName = states.delta s.plugin.state id keyName) :
    Keyed states ⟨plugin, s.log⟩ where
  begun_iff id key := by
    rw [contexts]
    exact keyed.begun_iff id key
  stashed id c key isOpen own := by
    have wasOpen : s.plugin.open? id = some c := by
      rw [← isOpen, TapePlugin.open?, TapePlugin.open?, contexts]
    rw [deltas id (by simp [wasOpen])]
    exact keyed.stashed id c key wasOpen own

theorem Keyed.take (lawful : states.Lawful) (keyed : Keyed states s) {step : ToolStep τ} (keeps : step.KeepsDeltas states s) :
    Keyed states (step.take states loads s) := by
  cases step with
  | beforeRun | afterRun => exact keyed.congr rfl fun _ _ => rfl
  | beforeModel inv =>
    refine keyed.congr ?_ fun _ _ => ?_
    all_goals
      unfold TapePlugin.beforeModel
      split <;> rfl
  | framework state => exact keyed.congr rfl fun id isOpen => keeps id isOpen keyName
  | beforeTool id call admission reply =>
    simp only [ToolStep.take]
    split
    next => exact keyed
    next isFresh =>
      have noContext : s.plugin.contexts id = none := by simpa using isFresh
      -- a call that has no context has begun nothing
      have unbegun : ∀ key, .begun id key ∉ s.log := fun key began => by
        obtain ⟨c, isContext, _⟩ := (keyed.begun_iff id key).mp began
        rw [noContext] at isContext
        cases isContext
      obtain ⟨others, entered⟩ := TapePlugin.contexts_beforeTool states loads s.plugin call id lawful admission fun _ => reply
      constructor
      · intro id' key
        simp only [List.mem_append, Option.mem_toList, Option.map_eq_some_iff, ToolEvent.begun.injEq]
        cases entered with
        | inl raised => simp [raised.1, raised.2, keyed.begun_iff id' key]
        | inr entered =>
          obtain ⟨c, contexts, ownKey, -⟩ := entered
          rw [contexts]
          by_cases same : id' = id
          · subst same
            simp [unbegun, ← ownKey]
          · -- the contexts of the other calls are as they were
            simp [Function.update_of_ne same, Ne.symm same, keyed.begun_iff id' key]
      · intro id' c' key isOpen own
        by_cases same : id' = id
        · subst same
          cases entered with
          | inl raised =>
            rw [TapePlugin.open?, raised.1, noContext] at isOpen
            cases isOpen
          -- a raising before_tool opens no context, so this call got its key into its own delta
          | inr entered =>
            obtain ⟨c, contexts, -, inDelta⟩ := entered
            have isContext := TapePlugin.contexts_of_open isOpen
            simp only [contexts, Function.update_self, Option.some.injEq] at isContext
            exact inDelta key (isContext ▸ own)
        · have sameContext : (s.plugin.beforeTool states loads id call admission fun _ => reply).contexts id' =
              s.plugin.contexts id' := by
            cases entered with
            | inl raised => rw [raised.1]
            | inr entered => rw [entered.choose_spec.1, Function.update_of_ne same]
          rw [TapePlugin.open?, sameContext] at isOpen
          rw [others id' same]
          exact keyed.stashed id' c' key isOpen own
  | afterTool id body =>
    simp only [ToolStep.take]
    cases isOpen : s.plugin.open? id with
    | none => exact keyed
    | some c =>
      constructor
      · intro id' key
        -- what a report issues ends effects and registers inverses; it begins none
        have noBegun : .begun id' key ∉ (s.plugin.report states id c body).reverse.map (ToolEvent.issued id) := by simp
        rw [List.mem_append, or_iff_right noBegun, keyed.begun_iff id' key]
        by_cases same : id' = id
        · subst same
          simp [TapePlugin.finish, TapePlugin.contexts_of_open isOpen]
        · simp [TapePlugin.finish, Function.update_of_ne same]
      · intro id' c' key isOpen' own
        by_cases same : id' = id
        · subst same
          simp only [TapePlugin.open?, TapePlugin.finish, Function.update_self, Option.filter_eq_some_iff, Option.some.injEq]
            at isOpen'
          -- the call is finished now, so it is not open
          obtain ⟨rfl, unfinished⟩ := isOpen'
          cases unfinished
        · simp only [TapePlugin.open?, TapePlugin.finish, Function.update_of_ne same] at isOpen'
          exact keyed.stashed id' c' key isOpen' own

theorem ownKeys_report (id : Nat) (rpcs : List TapePlugin.ToolRpc) (earlier : List ToolEvent) :
    OwnKeys (rpcs.map (.issued id) ++ earlier) ↔ (∀ rpc ∈ rpcs, .begun id rpc.key ∈ earlier) ∧ OwnKeys earlier := by
  induction rpcs with
  | nil => simp
  | cons rpc rpcs inductionHypothesis =>
    simp [OwnKeys, inductionHypothesis, and_assoc]

/-- A callback after a tool keeps to the key of the call exactly if the call is attributed. -/
theorem ownKeys_take (lawful : states.Lawful) (keyed : Keyed states s) (step : ToolStep τ) :
    OwnKeys (step.take states loads s).log ↔ OwnKeys s.log ∧ step.Attributed states s := by
  cases step with
  | beforeRun | beforeModel | afterRun | framework => exact (and_iff_left trivial).symm
  | beforeTool id call admission reply =>
    simp only [ToolStep.take, ToolStep.Attributed, and_true]
    split
    next => exact Iff.rfl
    next => cases s.plugin.begunKey call admission fun _ => reply <;> exact Iff.rfl
  | afterTool id body =>
    simp only [ToolStep.take, ToolStep.Attributed]
    cases isOpen : s.plugin.open? id with
    | none => simp
    | some c =>
      have isContext := TapePlugin.contexts_of_open isOpen
      have ownKey : ∀ key, .begun id key ∈ s.log ↔ c.key = some key := fun key => by
        simp [keyed.begun_iff id key, isContext]
      simp only [ownKeys_report, List.mem_reverse, Option.some.injEq, forall_eq', and_comm (b := OwnKeys s.log), ownKey]
      refine and_congr_right fun _ => ?_
      rw [← TapePlugin.report_eq_nil_iff]
      cases own : c.key with
      | some key =>
        -- the context reads its own key first
        refine ⟨fun _ => .inl rfl, fun _ rpc issued => ?_⟩
        obtain ⟨runId, keys⟩ := TapePlugin.toolKeys_of_report issued
        rw [TapePlugin.key_of_toolKeys lawful keys (keyed.stashed id c key isOpen own)]
      | none => simp [List.eq_nil_iff_forall_not_mem]

/-- Over any sequence of callbacks, and whatever the framework does to the state, every effect is completed and every
    inverse registered under the key of its own call, exactly if no call without a key of its own finds one at its end. -/
theorem tools_complete_own_effects (states : ToolStates τ) (lawful : states.Lawful) (loads : String → Option Json)
    (plugin : TapePlugin τ) (steps : List (ToolStep τ))
    (keeps : Along (ToolStep.take states loads) (ToolStep.KeepsDeltas states) ⟨plugin.idle, []⟩ steps) :
    OwnKeys (run (ToolStep.take states loads) ⟨plugin.idle, []⟩ steps).log ↔
      Along (ToolStep.take states loads) (ToolStep.Attributed states) ⟨plugin.idle, []⟩ steps := by
  have start : Keyed states ⟨plugin.idle, []⟩ := by
    constructor
    · intro id key
      simp [TapePlugin.idle]
    · intro id c key isOpen
      cases isOpen
  refine (run_iff_along_of_allowed (I := Keyed states) (P := fun s : ToolSession τ => OwnKeys s.log) ?_ ?_ start keeps).trans
    (and_iff_right trivial)
  · exact fun _ step keyed isKept => keyed.take lawful isKept
  · exact fun _ step keyed => ownKeys_take lawful keyed step

/-! ## A note after a wire -/

theorem sessionStates_lawful : sessionStates.Lawful where
  delta_set state id name value id' name' := by
    by_cases sameId : id' = id
    · subst sameId
      by_cases sameName : name' = name
      · simp [sessionStates, sameName]
      · simp [sessionStates, sameName]
    · simp [sessionStates, sameId]
  get_of_delta state id name value own := by
    have isOwn : state.deltas id name = some value := own
    simp [sessionStates, isOwn]

def wireCall : ToolCall where
  invocationId := "inv"
  functionCallId := "a"
  toolName := "wire"
  effect := { semantics := "non_idempotent", dispatch := "outbox", connector := "bank.wire" }

def noteCall : ToolCall where
  invocationId := "inv"
  functionCallId := "b"
  toolName := "note"

/-- The wire waits for the dispatcher; then the note is called. -/
def wireThenNote (admission : TapePlugin.Admission) : List (ToolStep SessionState) :=
  [.beforeRun "inv" "r" 0 [] true, .beforeModel "inv",
    .beforeTool 0 wireCall .admitted (.answered "r/fc-a" EffectStatus.pending.code "" ""), .afterTool 0 (.returned .null),
    .beforeTool 1 noteCall admission (.answered "r/fc-b" EffectStatus.pending.code "" ""), .afterTool 1 (.returned .null)]

theorem note_own_effect :
    OwnKeys (run (ToolStep.take sessionStates fun _ => none) ⟨(TapePlugin.init noState).idle, []⟩
      (wireThenNote .admitted)).log := by
  refine (tools_complete_own_effects sessionStates sessionStates_lawful (fun _ => none) (TapePlugin.init noState)
    (wireThenNote .admitted)
    ⟨trivial, trivial, trivial, trivial, trivial, trivial, trivial⟩).mpr
    ⟨trivial, trivial, trivial, fun c isOpen => .inl ?_, trivial, fun c isOpen => .inl ?_, trivial⟩
  · cases isOpen
    rfl
  · cases isOpen
    rfl

/-- Where the budget refuses the note, the callback after it confirms the wire, which was never sent. -/
example : ¬ OwnKeys (run (ToolStep.take sessionStates fun _ => none) ⟨(TapePlugin.init noState).idle, []⟩
    (wireThenNote (.refused "token cap"))).log := by
  intro own
  have begun : ToolEvent.begun 1 "r/fc-a" ∈ [ToolEvent.begun 0 "r/fc-a"] := own.1
  cases List.mem_singleton.mp begun

end Tape.Sdk
