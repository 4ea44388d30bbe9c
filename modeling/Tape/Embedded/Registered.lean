import Tape.Embedded.Ledger
import Tape.Embedded.Plugin
import Tape.Interleave.Protocol

/-! # What the plugin registers

`after_tool_callback` completes the effect under the stashed key, and registers the inverse of the
tool whatever came of that.  The effect is `CONFIRMED` by then if it was open or `CONFIRMED` before:
a callback confirms what is pending, and no callback takes a confirmation back.
-/

namespace Tape.Embedded.Plugin

open Sql Interleave

variable {τ : Type} {states : ToolStates τ}

/-! ## What the service says of an effect -/

/-- The status that `begin_effect` answers: of the row, or of the snapshot where the row was pruned. -/
def recordedStatus (s : Store) (session : SessionKey) (key : String) : Option EffectStatus :=
  match s.effect session key with
  | some row => some row.status
  | none => (s.captured session key).map CapturedEffect.status

/-- The effect is about to be confirmed, or it is confirmed. -/
def isOpen (s : Store) (session : SessionKey) (key : String) : Bool :=
  (s.effect session key).any (fun row => row.status = .pending) || recordedStatus s session key = some .confirmed

/-- An inverse is registered of what is confirmed. -/
def RegistersConfirmed (s : Store) : Act → Prop
  | .registerCompensation r _ => recordedStatus s r.session r.effectKey = some .confirmed
  | _ => True

/-- A tool with an inverse completes an effect that is open. -/
def CompletesOpen (s : Store) : Act → Prop
  | .completeEffect tool session key status .. => tool.registers.isSome → status = .confirmed → isOpen s session key
  | _ => True

/-! ## A confirmation stays -/

section Confirmed

variable {s : Store} {session : SessionKey} {key : String}

theorem recordedStatus_of_row {row : StorageEffect} (found : s.effect session key = some row) :
    recordedStatus s session key = some row.status := by
  rw [recordedStatus, found]

theorem recordedStatus_of_pruned (pruned : s.effect session key = none) :
    recordedStatus s session key = (s.captured session key).map CapturedEffect.status := by
  rw [recordedStatus, pruned]

/-- A key that the service knows is not begun again. -/
theorem recordedStatus_beginEffect {status : EffectStatus} (recorded : recordedStatus s session key = some status)
    (r : BeginEffect) (now : Int) : recordedStatus (leaves (beginEffect r now s) s) session key = some status := by
  cases beginEffect_cases r now s with
  | inl same => rwa [same]
  | inr added =>
    obtain ⟨inserted, isInsert, absent, notCaptured, -, answer⟩ := added
    rw [answer, leaves_ok]
    cases found : s.effect session key with
    | some row =>
      have kept := effect_beginEffect found r now
      rw [answer, leaves_ok] at kept
      rwa [recordedStatus_of_row kept, ← recordedStatus_of_row found]
    | none =>
      have captured : ({ s with effects := inserted } : Store).captured session key = s.captured session key := rfl
      by_cases own : (r.freshRow now).pk = (session, key)
      · -- the snapshot knows the key, so it is not the one that was begun
        obtain ⟨rfl, rfl⟩ := Prod.mk.inj own
        rw [recordedStatus_of_pruned found, show s.captured (r.freshRow now).session (r.freshRow now).idempotencyKey = none
          from notCaptured] at recorded
        cases recorded
      · have pruned : ({ s with effects := inserted } : Store).effect session key = none := by
          simp only [Store.effect, Table.find?_insert isInsert, if_neg own]
          exact found
        rw [recordedStatus_of_pruned pruned, captured, ← recordedStatus_of_pruned found]
        exact recorded

theorem captured_completeEffect (session' : SessionKey) (key' : String) (status : EffectStatus) (responseJson errorJson : Json)
    (now : Int) : (leaves (completeEffect session' key' status responseJson errorJson now s) s).captured = s.captured := by
  unfold completeEffect
  split
  · rfl
  · split
    · rfl
    · split <;> rfl

theorem recordedStatus_completeEffect_self {status : EffectStatus} (valid : status ≠ .pending) (responseJson errorJson : Json)
    (now : Int) : recordedStatus (leaves (completeEffect session key status responseJson errorJson now s) s) session key =
      if (s.effect session key).any (fun row => row.status = .pending) then some status else recordedStatus s session key := by
  cases found : s.effect session key with
  | some row =>
    rw [recordedStatus_of_row (effect_completeEffect found valid responseJson errorJson now), recordedStatus_of_row found]
    by_cases pending : row.status = .pending
    · simp [pending, completion]
    · simp [pending]
  | none =>
    have unchanged : leaves (completeEffect session key status responseJson errorJson now s) s = s := by
      simp [completeEffect, found, valid]
    rw [unchanged]
    simp

/-- No callback takes a confirmation back. -/
theorem recordedStatus_completeEffect {session' : SessionKey} {key' : String} {status : EffectStatus}
    (confirmed : recordedStatus s session key = some .confirmed) (responseJson errorJson : Json) (now : Int) :
    recordedStatus (leaves (completeEffect session' key' status responseJson errorJson now s) s) session key =
      some .confirmed := by
  by_cases valid : status = .pending
  · simpa [completeEffect, valid] using confirmed
  by_cases same : (session, key) = (session', key')
  · obtain ⟨rfl, rfl⟩ := Prod.mk.inj same
    rw [recordedStatus_completeEffect_self valid]
    cases found : s.effect session key with
    | none => simpa [found] using confirmed
    | some row =>
      rw [recordedStatus_of_row found, Option.some.injEq] at confirmed
      simp [recordedStatus, found, confirmed]
  · have other := (writesOnly_completeEffect session' key' status responseJson errorJson now s).effect_ne same
    have captured := congrFun₂ (captured_completeEffect (s := s) session' key' status responseJson errorJson now) session key
    rw [recordedStatus, other, captured, ← recordedStatus]
    exact confirmed

theorem effect_registerCompensation (r : RegisterCompensation) (now : Int) :
    (leaves (registerCompensation r now s) s).effects = s.effects ∧
      (leaves (registerCompensation r now s) s).captured = s.captured := by
  unfold registerCompensation
  split
  · exact ⟨rfl, rfl⟩
  · split <;> exact ⟨rfl, rfl⟩

theorem recordedStatus_registerCompensation (r : RegisterCompensation) (now : Int) :
    recordedStatus (leaves (registerCompensation r now s) s) session key = recordedStatus s session key := by
  obtain ⟨effects, captured⟩ := effect_registerCompensation (s := s) r now
  rw [recordedStatus, recordedStatus, Store.effect, Store.effect, effects, captured]

/-- Whatever a callback does leaves a confirmed effect confirmed. -/
theorem recordedStatus_exec {p : Process τ} (confirmed : recordedStatus p.store session key = some .confirmed) (act : Act) :
    recordedStatus (act.exec states p).2.store session key = some .confirmed := by
  cases act with
  | count | nextCall | stash | stashed => exact confirmed
  | beginEffect r now => exact recordedStatus_beginEffect confirmed r now
  | completeEffect _ _ _ _ responseJson errorJson now => exact recordedStatus_completeEffect confirmed responseJson errorJson now
  | registerCompensation r now => exact (recordedStatus_registerCompensation r now).trans confirmed

/-- Completing what is open confirms it. -/
theorem recordedStatus_of_isOpen (opened : isOpen s session key) (responseJson errorJson : Json) (now : Int) :
    recordedStatus (leaves (completeEffect session key .confirmed responseJson errorJson now s) s) session key =
      some .confirmed := by
  rw [recordedStatus_completeEffect_self (fun same => by cases same)]
  simp only [isOpen, Bool.or_eq_true, decide_eq_true_eq] at opened
  cases opened with
  | inl pending => rw [if_pos pending]
  | inr confirmed =>
    split
    · rfl
    · exact confirmed

end Confirmed

/-! ## The callbacks follow it -/

/-- The effect that a callback has just completed, if it is to register the inverse. -/
abbrev Completed : Type := Option (SessionKey × String)

def afterAct (completed : Completed) : (act : Act) → act.Res → Completed
  | .completeEffect tool session key status .., _ =>
    if tool.registers.isSome ∧ status = .confirmed then some (session, key) else none
  | _, _ => completed

/-- An inverse is registered right after its effect was completed. -/
def properAct (completed : Completed) : Act → Prop
  | .registerCompensation r _ => completed = some (r.session, r.effectKey)
  | _ => True

def registering : Protocol Act Act.Res Completed := ⟨none, properAct, afterAct, fun _ _ => True⟩

section Follows

variable {α : Type} {post : Except CallbackError α → Completed → Prop} {completed : Completed}

theorem follows_perform {act : Act} {f : act.Res → CallbackM α} (isProper : properAct completed act)
    (rest : ∀ res, registering.Follows post (afterAct completed act res) (f res).run) :
    registering.Follows post completed (perform act >>= f).run :=
  ⟨isProper, fun res _ => rest res⟩

/-- A method that raises ends the callback. -/
theorem follows_service {β : Type} {act : Act} {returns : act.Res = Except ServiceError β} {f : β → CallbackM α}
    (isProper : properAct completed act)
    (raised : ∀ res e, post (.error e) (afterAct completed act res))
    (rest : ∀ res value, registering.Follows post (afterAct completed act res) (f value).run) :
    registering.Follows post completed (service act returns >>= f).run := by
  refine ⟨isProper, fun res _ => ?_⟩
  change registering.Follows post _ (ExceptT.bindCont f ((returns ▸ res : Except ServiceError β).mapError .service))
  generalize (returns ▸ res : Except ServiceError β) = answer
  cases answer with
  | error e => exact raised res (.service e)
  | ok value => exact rest res value

theorem follows_toComplete (tool : Tool) (context : ToolContext) {f : Option String → CallbackM α}
    (rest : ∀ found, registering.Follows post completed (f found).run) :
    registering.Follows post completed (toComplete tool context >>= f).run := by
  unfold toComplete
  split
  · exact rest none
  next effectMeta _ =>
    by_cases isOutbox : effectMeta.dispatchMode = .outbox
    · simp only [isOutbox]
      exact rest none
    · simp only [isOutbox]
      exact follows_perform trivial fun found => rest found

theorem follows_beforeTool (tool : Tool) (toolArgs : Json) (context : ToolContext) (now : Int) :
    registering.Follows (fun _ _ => True) none (beforeTool tool toolArgs context now).run := by
  unfold beforeTool
  split
  · trivial
  · refine follows_perform trivial fun (call : Int × Nat) => ?_
    split
    · trivial
    · refine follows_perform trivial fun (begun : Except ServiceError StorageEffect) => ?_
      cases begun with
      | error e => cases e <;> trivial
      | ok eff => exact follows_perform trivial fun _ => trivial

theorem follows_afterTool (tool : Tool) (toolArgs : Json) (context : ToolContext) (result : Json) (now registerNow : Int) :
    registering.Follows (fun _ _ => True) none (afterTool tool toolArgs context result now registerNow).run := by
  refine follows_toComplete tool context fun found => ?_
  cases found with
  | none => trivial
  | some effectKey =>
    refine follows_service trivial (fun _ _ => trivial) fun _ _ => ?_
    cases registers : tool.registers with
    | none => trivial
    | some kind =>
      refine follows_service ?_ (fun _ _ => trivial) fun _ _ => trivial
      simp [properAct, afterAct, registers, compensation]

theorem follows_onToolError (tool : Tool) (context : ToolContext) (error : ToolError) (now : Int) :
    registering.Follows (fun _ _ => True) none (onToolError tool context error now).run := by
  refine follows_toComplete tool context fun found => ?_
  cases found with
  | none => trivial
  | some effectKey => exact follows_service trivial (fun _ _ => trivial) fun _ _ => trivial

theorem follows_body (call : Call) : registering.Follows (fun _ _ => True) registering.start call.body := by
  cases call with
  | beforeTool tool toolArgs context now => exact follows_beforeTool tool toolArgs context now
  | afterTool tool toolArgs context result now registerNow => exact follows_afterTool tool toolArgs context result now registerNow
  | onToolError tool context error now => exact follows_onToolError tool context error now
  | beforeRun | afterRun | afterModel | restart => exact ⟨trivial, fun _ _ => trivial⟩

end Follows

/-- What a callback is about to register the inverse of is confirmed. -/
def InHand (h : PluginHist τ) : Prop :=
  ∀ tid session key, registering.stage tid h.log = some (session, key) →
    recordedStatus h.state.store session key = some .confirmed

theorem InHand.exec {h : PluginHist τ} (inHand : InHand h) (tid : Nat) {act : Act} (opened : CompletesOpen h.state.store act) :
    InHand (h.push tid act (act.exec states h.state).1 (act.exec states h.state).2) := by
  intro other session key isStage
  rw [Hist.push_state]
  by_cases own : other = tid
  · subst own
    rw [Protocol.stage_push_self] at isStage
    cases act with
    | completeEffect tool session' key' status responseJson errorJson now =>
      change (if tool.registers.isSome ∧ status = .confirmed then some (session', key') else none) = _ at isStage
      split at isStage
      next registers =>
        cases isStage
        obtain ⟨registers, rfl⟩ := registers
        exact recordedStatus_of_isOpen (opened registers rfl) responseJson errorJson now
      next => cases isStage
    | count | nextCall | beginEffect | stash | stashed | registerCompensation =>
      exact recordedStatus_exec (inHand _ _ _ isStage) _
  · rw [Protocol.stage_push_ne _ h act _ _ own] at isStage
    exact recordedStatus_exec (inHand _ _ _ isStage) act

/-- Where callbacks complete what is open, they register what is confirmed. -/
theorem along_registers {p : Process τ} {choices : List (Choice Call)}
    (opened : (plugin states).Along (System.Executes fun _ _ h act => CompletesOpen h.state.store act) (quiet p) choices) :
    (plugin states).Along (System.Executes fun _ _ h act => RegistersConfirmed h.state.store act) (quiet p) choices := by
  have start : InHand (quiet p).toHist := by
    intro tid session key isStage
    cases isStage
  have preserved : ∀ tid (_ : Call) (h : PluginHist τ) (act : Act),
      CompletesOpen h.state.store act ∧ registering.proper (registering.stage tid h.log) act → InHand h →
        InHand (h.push tid act ((plugin states).exec act h.state).1 ((plugin states).exec act h.state).2) :=
    fun tid _ _ _ both inHand => inHand.exec tid both.1
  have along := Protocol.along_protocol (P := registering) (S := plugin states) (I := InHand) (fun _ => trivial) follows_body
    preserved (fun _ _ _ _ failed => by cases failed) rfl rfl start opened
  refine along.mono fun c choice executes => executes.mono fun tid call h act both => ?_
  cases act with
  | registerCompensation r now => exact both.2 tid r.session r.effectKey both.1.2
  | count | nextCall | beginEffect | stash | stashed | completeEffect => trivial

/-! ## One callback -/

/-- Completing what is not open confirms nothing. -/
theorem not_confirmed_of_not_isOpen {s : Store} {session : SessionKey} {key : String} (closed : ¬ isOpen s session key)
    (responseJson errorJson : Json) (now : Int) :
    recordedStatus (leaves (completeEffect session key .confirmed responseJson errorJson now s) s) session key ≠
      some .confirmed := by
  simp only [isOpen, Bool.or_eq_true, decide_eq_true_eq, not_or] at closed
  rw [recordedStatus_completeEffect_self (fun same => by cases same), if_neg closed.1]
  exact closed.2

theorem completeEffect_ok (s : Store) (session : SessionKey) (key : String) (responseJson errorJson : Json) (now : Int) :
    ∃ value, completeEffect session key .confirmed responseJson errorJson now s =
      .ok (value, leaves (completeEffect session key .confirmed responseJson errorJson now s) s) := by
  unfold completeEffect
  split
  next pending => cases pending
  · split
    · exact ⟨_, rfl⟩
    · split <;> exact ⟨_, rfl⟩

section Meets

variable {α : Type} {ok : Process τ → Act → Prop} {p : Process τ}

theorem meets_perform (act : Act) (f : act.Res → CallbackM α) : (plugin states).Meets ok (perform act >>= f).run p ↔
    ok p act ∧ (plugin states).Meets ok (f (act.exec states p).1).run (act.exec states p).2 := Iff.rfl

/-- A callback goes on when it has completed the effect. -/
theorem meets_completeEffect (tool : Tool) (session : SessionKey) (key : String) (responseJson errorJson : Json) (now : Int)
    (f : CallbackM α) :
    let act := Act.completeEffect tool session key .confirmed responseJson errorJson now
    (plugin states).Meets ok (service (α := Option StorageEffect) act rfl >>= fun _ => f).run p ↔
      ok p act ∧ (plugin states).Meets ok f.run (act.exec states p).2 := by
  intro act
  obtain ⟨value, completed⟩ := completeEffect_ok p.store session key responseJson errorJson now
  have answered : (act.exec states p).1 = .ok value := by
    simp only [act, Act.exec, Act.ofResult]
    rw [completed]
    rfl
  change ok p act ∧ (plugin states).Meets ok (ExceptT.bindCont (fun _ => f)
    (Except.mapError CallbackError.service (act.exec states p).1)) (act.exec states p).2 ↔ _
  rw [answered]
  exact Iff.rfl

/-- A callback ends with its registration, whatever comes of it. -/
theorem meets_registerCompensation (r : RegisterCompensation) (now : Int) (value : α) :
    (plugin states).Meets ok
        (service (α := StorageObligation) (.registerCompensation r now) rfl >>= fun _ => (return value : CallbackM α)).run p ↔
      ok p (.registerCompensation r now) := by
  change _ ∧ (plugin states).Meets ok (ExceptT.bindCont (fun _ => (return value : CallbackM α))
    (Except.mapError CallbackError.service (Act.exec states (.registerCompensation r now) p).1)) _ ↔ _
  cases (Act.exec states (.registerCompensation r now) p).1 <;> exact and_iff_left trivial

end Meets

/-- A callback that runs alone registers what is confirmed exactly if it completes what is open. -/
theorem meets_afterTool (p : Process τ) (tool : Tool) (toolArgs : Json) (context : ToolContext) (result : Json)
    (now registerNow : Int) :
    (plugin states).Meets (fun p act => RegistersConfirmed p.store act)
        (afterTool tool toolArgs context result now registerNow).run p ↔
      (plugin states).Meets (fun p act => CompletesOpen p.store act)
        (afterTool tool toolArgs context result now registerNow).run p := by
  obtain ⟨name, effectMeta⟩ := tool
  cases effectMeta with
  | none => exact Iff.rfl
  | some effectMeta =>
    by_cases isOutbox : effectMeta.dispatchMode = .outbox
    · simp only [afterTool, toComplete, isOutbox]
      exact Iff.rfl
    · have inline : toComplete ⟨name, some effectMeta⟩ context = perform (.stashed context name) := if_neg isOutbox
      rw [afterTool, inline]
      refine (meets_perform (.stashed context name) _).trans (Iff.trans ?_ (meets_perform (.stashed context name) _).symm)
      refine and_congr Iff.rfl ?_
      cases (Act.exec states (.stashed context name) p).1 with
      | none => exact Iff.rfl
      | some effectKey =>
        refine (meets_completeEffect _ _ _ _ _ _ _).trans (Iff.trans ?_ (meets_completeEffect _ _ _ _ _ _ _).symm)
        cases registers : Tool.registers ⟨name, some effectMeta⟩ with
        | none =>
          have idle : CompletesOpen p.store (.completeEffect ⟨name, some effectMeta⟩ context.session effectKey .confirmed
              result .null now) := fun isSome => by simp [registers] at isSome
          exact ⟨fun _ => ⟨idle, trivial⟩, fun _ => ⟨trivial, trivial⟩⟩
        | some kind =>
          refine Iff.trans (and_congr Iff.rfl (meets_registerCompensation _ registerNow none))
            (Iff.trans ?_ (and_congr Iff.rfl (meets_registerCompensation _ registerNow none)).symm)
          change True ∧ recordedStatus _ context.session effectKey = some .confirmed ↔
            (_ → _ → isOpen p.store context.session effectKey) ∧ True
          rw [true_and, and_true, registers]
          constructor
          · intro confirmed _ _
            by_contra closed
            exact not_confirmed_of_not_isOpen closed result .null now confirmed
          · exact fun opened => recordedStatus_of_isOpen (opened rfl rfl) result .null now

/-! ## All histories -/

/-- In every run in which the callbacks of tools with an inverse complete what is open, an inverse is
    registered of what is confirmed; and a callback that completes what is not, goes on to register
    the inverse of what is not confirmed. -/
theorem registers_confirmed_iff (states : ToolStates τ) (p : Process τ) :
    (∀ choices,
      (plugin states).Along (System.Executes fun _ _ h act => CompletesOpen h.state.store act) (quiet p) choices →
      (plugin states).Along (System.Executes fun _ _ h act => RegistersConfirmed h.state.store act) (quiet p) choices) ∧
    ∀ tool toolArgs context result now registerNow,
      ((plugin states).Meets (fun p act => RegistersConfirmed p.store act)
          (afterTool tool toolArgs context result now registerNow).run p ↔
        (plugin states).Meets (fun p act => CompletesOpen p.store act)
          (afterTool tool toolArgs context result now registerNow).run p) :=
  ⟨fun _ opened => along_registers opened, meets_afterTool p⟩

/-- The tools that the decorators make register nothing. -/
theorem registers_decorated {tool : Tool} (decorated : (∃ name, tool = effect name) ∨
    ∃ name businessKey connector compensate, tool = outboxTool name businessKey connector compensate) :
    tool.registers = none := by
  cases decorated with
  | inl isEffect =>
    obtain ⟨name, rfl⟩ := isEffect
    rfl
  | inr isOutbox =>
    obtain ⟨name, businessKey, connector, compensate, rfl⟩ := isOutbox
    rfl

instance RegistersConfirmed.decidable (s : Store) (act : Act) : Decidable (RegistersConfirmed s act) :=
  match act with
  | .registerCompensation r _ => inferInstanceAs (Decidable (recordedStatus s r.session r.effectKey = some .confirmed))
  | .count _ | .nextCall .. | .beginEffect .. | .stash .. | .stashed .. | .completeEffect .. => isTrue trivial

instance CompletesOpen.decidable (s : Store) (act : Act) : Decidable (CompletesOpen s act) :=
  match act with
  | .completeEffect tool session key status .. =>
    inferInstanceAs (Decidable (tool.registers.isSome → status = .confirmed → isOpen s session key))
  | .count _ | .nextCall .. | .beginEffect .. | .stash .. | .stashed .. | .registerCompensation .. => isTrue trivial

/-! ## A charge that failed -/

/-- The keys of the plugin in a dictionary. -/
structure StateDict where
  callIndex : String → Option Nat := fun _ => none
  effectKey : String × Nat → Option String := fun _ => none

/-- The state of the session, and what each tool context changed. -/
structure SessionState where
  value : StateDict := {}
  delta : Nat → StateDict := fun _ => {}

def StateDict.put (d : StateDict) (tool : String) (callIndex : Nat) (key : String) : StateDict where
  callIndex := Function.update d.callIndex tool (some callIndex)
  effectKey := Function.update d.effectKey (tool, callIndex) (some key)

/-- A context reads its own changes before the session's state, and writes both. -/
def sessionStates : ToolStates SessionState where
  callIndex state context tool := (state.delta context.handle).callIndex tool <|> state.value.callIndex tool
  effectKey state context tool callIndex :=
    (state.delta context.handle).effectKey (tool, callIndex) <|> state.value.effectKey (tool, callIndex)
  stash state context tool callIndex key :=
    { value := state.value.put tool callIndex key
      delta := Function.update state.delta context.handle ((state.delta context.handle).put tool callIndex key) }

/-- An inline tool with an inverse. -/
def charge : Tool where
  name := "charge"
  effectMeta := some { semantics := .idempotent, dispatchMode := .inline, compensate := some "refund" }

def chargeContext (handle : Nat) : ToolContext := ⟨⟨"shop", "alice", "s-1"⟩, "inv-1", handle⟩

/-- A call of the tool that comes to `end_`. -/
def called (tid handle : Nat) (end_ : Call) : List (Interleave.Choice Call) :=
  [.spawn (.beforeTool charge (.obj []) (chargeContext handle) 10), .exec tid, .exec tid, .exec tid,
    .spawn end_, .exec (tid + 1), .exec (tid + 1), .exec (tid + 1)]

/-- The run begins, and the model asks for the charge. -/
def decided : List (Interleave.Choice Call) :=
  [.spawn (.beforeRun "inv-1" []), .exec 0, .spawn (.afterModel "inv-1" true), .exec 1]

def idle : Process SessionState := ⟨.empty, .empty, {}⟩

/-- The charge comes back. -/
def charged : List (Interleave.Choice Call) :=
  decided ++ called 2 0 (.afterTool charge (.obj []) (chargeContext 0) (.obj []) 20 30)

theorem charge_refundable : (plugin sessionStates).Along
    (System.Executes fun _ _ h act => RegistersConfirmed h.state.store act) (quiet idle) charged :=
  (registers_confirmed_iff sessionStates idle).1 charged (by decide +kernel)

/-- The charge raises; the run is driven again, and the recorded failure comes back for a result. -/
def failedCharge : List (Interleave.Choice Call) :=
  decided ++ called 2 0 (.onToolError charge (chargeContext 0) ⟨false, "Declined", "no funds"⟩ 20) ++
    [.spawn .restart, .exec 4, .spawn (.beforeRun "inv-1" [⟨"inv-1", true⟩]), .exec 5] ++
    called 6 1 (.afterTool charge (.obj []) (chargeContext 1)
      (.obj [("status", .str "failed"), ("tape_replay", .bool true)]) 40 50)

theorem failed_charge_refunded : ¬ (plugin sessionStates).Along
    (System.Executes fun _ _ h act => RegistersConfirmed h.state.store act) (quiet idle) failedCharge ∧
    ((plugin sessionStates).run (quiet idle) failedCharge).state.store.effects.rows.map StorageEffect.status = [.failed] ∧
    ((plugin sessionStates).run (quiet idle) failedCharge).state.store.obligations.rows.map StorageObligation.kind =
      ["refund"] := by
  refine ⟨by decide +kernel, by decide +kernel, by decide +kernel⟩

end Tape.Embedded.Plugin
