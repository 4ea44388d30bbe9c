import Tape.Bigtable.Decimal
import Tape.Bigtable.Segments
import Tape.Embedded.Plugin
import Tape.Sequential

/-! # Keys across resumptions

The effects of an invocation are keyed by the decision, the tool, and the index of the call among the
decision's calls of the tool.  The plugin keeps count of both in memory, and counts again when a run
is resumed (`before_run_callback`): one recorded decision for any number of them, and no calls.
-/

namespace Tape.Embedded.Plugin

open Tape.Sequential

/-! ## Histories of an invocation -/

/-- How far a tool call has come. -/
inductive Stand where
  | waiting | running | completed
  deriving DecidableEq, Repr

structure ToolCall where
  tool : String
  stand : Stand := .waiting
  deriving DecidableEq, Repr

/-- The key of one execution of a call; `position` counts all calls of the decision. -/
structure Issued where
  decision : Nat
  position : Nat
  key : String
  deriving DecidableEq, Repr

/-- An invocation, and the process that drives it. -/
structure Invocation where
  id : String
  session : SessionKey
  counters : Counters := .empty
  alive : Bool := false
  /-- A response that asks for calls, until its event is recorded. -/
  response : Option (List String) := none
  /-- The recorded decisions with the calls of the tools that the plugin tracks, the latest first. -/
  decisions : List (List ToolCall) := []
  issued : List Issued := []

inductive Step where
  /-- `others` are the session's events besides those that ask for calls of this invocation. -/
  | resume (others : List SessionEvent)
  /-- A response of the model; `none` is text alone. -/
  | respond (calls : Option (List String))
  | record
  /-- The first call of the latest decision that waits is executed. -/
  | call
  /-- The response of a call is recorded. -/
  | complete (position : Nat)
  | finish
  | crash

/-- The key that `begin_effect` derives for a call. -/
def callKey (session : SessionKey) (inv tool : String) (call : Int × Nat) : String :=
  BeginEffect.key { session, invocationId := inv, decisionIndex := call.1, toolName := tool, callIndex := call.2 }

/-- `before_tool_callback` begins an effect of that key. -/
theorem key_beginning (tool : Tool) (effectMeta : EffectMeta) (toolArgs : Json) (context : ToolContext) (call : Int × Nat)
    (businessKey : Option String) : (beginning tool effectMeta toolArgs context call businessKey).key =
      callKey context.session context.invocationId tool.name call := rfl

/-- A call that was running is executed again. -/
def ToolCall.interrupted (c : ToolCall) : ToolCall := if c.stand = .running then { c with stand := .waiting } else c

/-- The events of the session: each decision has one. -/
def Invocation.events (s : Invocation) (others : List SessionEvent) : List SessionEvent :=
  s.decisions.map (fun _ => ⟨s.id, true⟩) ++ others.filter fun ev => ev.invocationId ≠ s.id || !ev.hasFunctionCalls

/-- The call at `position` is given its key. -/
def Invocation.issue (s : Invocation) (latest : List ToolCall) (earlier : List (List ToolCall)) (position : Nat)
    (c : ToolCall) : Invocation :=
  let next := s.counters.nextCall s.id c.tool
  { s with
    counters := next.2
    decisions := latest.set position { c with stand := .running } :: earlier
    issued := ⟨earlier.length, position, callKey s.session s.id c.tool next.1⟩ :: s.issued }

namespace Step

/-- What the framework does not do changes nothing: it asks the model when every call has its response,
    and calls nothing before the response is recorded. -/
def take (s : Invocation) : Step → Invocation
  | resume others =>
    { s with
      counters := s.counters.beforeRun s.id (s.events others)
      alive := true
      response := none
      decisions := match s.decisions with
        | [] => []
        | latest :: earlier => latest.map ToolCall.interrupted :: earlier }
  | respond none => if s.alive then { s with counters := s.counters.afterModel s.id false } else s
  | respond (some calls) =>
    if s.alive ∧ s.response = none ∧ (s.decisions.head?.getD []).all (fun c => c.stand = .completed) then
      { s with counters := s.counters.afterModel s.id true, response := some calls }
    else s
  | record =>
    match s.response with
    | none => s
    | some calls => { s with response := none, decisions := calls.map (fun tool => { tool }) :: s.decisions }
  | call =>
    if s.alive ∧ s.response = none then
      match s.decisions with
      | [] => s
      | latest :: earlier =>
        match latest.findIdx? fun c => c.stand = .waiting with
        | none => s
        | some position =>
          match latest[position]? with
          | none => s
          | some c => s.issue latest earlier position c
    else s
  | complete position =>
    match s.decisions with
    | [] => s
    | latest :: earlier =>
      match latest[position]? with
      | some c =>
        if s.alive ∧ c.stand = .running then
          { s with decisions := latest.set position { c with stand := .completed } :: earlier }
        else s
      | none => s
  | finish => if s.alive then { s with counters := s.counters.afterRun s.id, alive := false, response := none } else s
  | crash => { s with counters := .empty, alive := false, response := none }

end Step

/-- Two executions have one key exactly if they are executions of one call. -/
def KeyedByCall (s : Invocation) : Prop :=
  ∀ a ∈ s.issued, ∀ b ∈ s.issued, (a.key = b.key ↔ a.decision = b.decision ∧ a.position = b.position)

/-! ## Keys tell calls apart -/

theorem decimal_injective {m n : Nat} (same : (toString m).toList = (toString n).toList) : m = n := by
  have parsed := Bigtable.digits?_toDigits n
  rw [← Nat.toList_repr, ← show (toString m).toList = n.repr.toList from same,
    show (toString m).toList = Nat.toDigits 10 m from Nat.toList_repr, Bigtable.digits?_toDigits] at parsed
  exact Option.some.inj parsed

theorem slash_not_mem_decimal (n : Nat) : '/' ∉ (toString n).toList := by
  intro member
  have digit := List.all_eq_true.mp (Bigtable.all_toDigits n) '/' (by rwa [← Nat.toList_repr])
  cases digit

theorem toList_callKey (session : SessionKey) (inv tool : String) (d i : Nat) :
    (callKey session inv tool (d, i)).toList = Segments.join '/'
      [inv.toList, "decision-".toList ++ (toString d).toList, tool.toList, (toString i).toList] := by
  have derived : callKey session inv tool (d, i) =
      inv ++ "/decision-" ++ toString d ++ "/" ++ tool ++ "/" ++ toString i := rfl
  rw [derived]
  simp [Segments.join, String.toList_append, List.intercalate, List.intersperse]

/-- An invocation's keys tell its decisions, its tools and the indices apart, whatever the tools are called. -/
theorem callKey_injective {session : SessionKey} {inv tool tool' : String} {d d' i i' : Nat}
    (same : callKey session inv tool (d, i) = callKey session inv tool' (d', i')) : d = d' ∧ tool = tool' ∧ i = i' := by
  have joined := congrArg String.toList same
  rw [toList_callKey, toList_callKey, Segments.join_eq_iff (by simp) (by simp)] at joined
  have plainDecision : ∀ n : Nat, '/' ∉ "decision-".toList ++ (toString n).toList := by
    intro n
    rw [List.mem_append, not_or]
    exact ⟨by decide, slash_not_mem_decimal n⟩
  simp only [Segments.segments_cons, Segments.segments_nil, List.append_nil, List.append_cancel_left_eq,
    List.splitOn_eq_singleton (plainDecision _), List.splitOn_eq_singleton (slash_not_mem_decimal _),
    List.singleton_append, List.cons.injEq] at joined
  obtain ⟨decisions, rest⟩ := joined
  obtain ⟨tools, indices⟩ := List.append_inj' rest rfl
  refine ⟨decimal_injective decisions, ?_, decimal_injective (List.singleton_inj.mp indices)⟩
  exact String.toList_injective (Segments.splitOn_injective tools)

/-! ## What the counters are to hold -/

/-- The calls of each tool are executed in their order, and the count of a tool that has calls to come
    is that of its calls so far. -/
def InStep (tcount : String → Nat) (calls : List ToolCall) : Prop :=
  calls.Pairwise (fun a b => a.tool = b.tool → a.stand = .waiting → b.stand = .waiting) ∧
    ∀ c ∈ calls, c.stand = .waiting →
      tcount c.tool = calls.countP fun other => other.tool = c.tool && other.stand ≠ .waiting

instance InStep.decidable (tcount : String → Nat) (calls : List ToolCall) : Decidable (InStep tcount calls) :=
  inferInstanceAs (Decidable (_ ∧ _))

/-- The tools of the decisions, the first decision first. -/
def Invocation.tools (s : Invocation) : List (List String) := (s.decisions.map (List.map ToolCall.tool)).reverse

/-- The call has the key of its decision, its tool, and its place among the tool's calls. -/
def Keyed (s : Invocation) (e : Issued) : Prop :=
  ∃ tools tool, s.tools[e.decision]? = some tools ∧ tools[e.position]? = some tool ∧
    e.key = callKey s.session s.id tool (e.decision, (tools.take e.position).count tool)

/-- The counters agree with the history. -/
structure Counted (s : Invocation) : Prop where
  keyed : ∀ e ∈ s.issued, Keyed s e
  fresh : ∀ d : Nat, s.decisions.length ≤ d → ∀ tool, s.counters.tcount (s.id, d, tool) = 0
  next : s.alive → s.counters.dnext s.id = some ((s.decisions.length : Int) + if s.response.isSome then 1 else 0)
  last : s.alive → s.counters.dlast s.id = some ((s.decisions.length : Int) - 1 + if s.response.isSome then 1 else 0)
  inStep : s.alive → ∀ latest earlier, s.decisions = latest :: earlier →
    InStep (fun tool => s.counters.tcount (s.id, (earlier.length : Int), tool)) latest

/-! ## Right counters give right keys -/

/-- The calls of one tool have different places. -/
theorem count_take_lt {tools : List String} {i j : Nat} {tool : String} (isTool : tools[i]? = some tool) (before : i < j) :
    (tools.take i).count tool < (tools.take j).count tool := by
  have split : tools.take j = tools.take i ++ (tools.drop i).take (j - i) := by
    rw [← List.take_add, Nat.add_sub_cancel' before.le]
  have first : tool ∈ (tools.drop i).take (j - i) := by
    refine List.mem_iff_getElem?.mpr ⟨0, ?_⟩
    rw [List.getElem?_take_of_lt (by omega), List.getElem?_drop]
    simpa using isTool
  have some_ := List.count_pos_iff.mpr first
  rw [split, List.count_append]
  omega

theorem count_take_injective {tools : List String} {i j : Nat} {tool : String} (left : tools[i]? = some tool)
    (right : tools[j]? = some tool) (same : (tools.take i).count tool = (tools.take j).count tool) : i = j := by
  rcases Nat.lt_trichotomy i j with less | equal | greater
  · have := count_take_lt left less
    omega
  · exact equal
  · have := count_take_lt right greater
    omega

theorem Counted.keyedByCall {s : Invocation} (counted : Counted s) : KeyedByCall s := by
  intro a memberA b memberB
  obtain ⟨toolsA, toolA, isToolsA, isToolA, isKeyA⟩ := counted.keyed a memberA
  obtain ⟨toolsB, toolB, isToolsB, isToolB, isKeyB⟩ := counted.keyed b memberB
  constructor
  · intro same
    rw [isKeyA, isKeyB] at same
    obtain ⟨decision, tool, place⟩ := callKey_injective same
    rw [decision, isToolsB] at isToolsA
    cases isToolsA
    subst tool
    exact ⟨decision, count_take_injective isToolA isToolB place⟩
  · rintro ⟨decision, position⟩
    rw [decision, isToolsB] at isToolsA
    cases isToolsA
    rw [position, isToolB] at isToolA
    cases isToolA
    rw [isKeyA, isKeyB, decision, position]

/-! ## The steps -/

/-- A resumption finds at most one decision, and of each tool with calls to come as many calls
    completed as it has counted, the first ones. -/
def Resumable (s : Invocation) : Step → Prop
  | .resume _ => s.decisions.length ≤ 1 ∧ ∀ latest ∈ s.decisions,
      InStep (fun tool => s.counters.tcount (s.id, 0, tool)) (latest.map ToolCall.interrupted)
  | _ => True

instance Resumable.decidable (s : Invocation) (step : Step) : Decidable (Resumable s step) :=
  match step with
  | .resume _ => inferInstanceAs (Decidable (_ ∧ _))
  | .respond _ | .record | .call | .complete _ | .finish | .crash => isTrue trivial

section Steps

variable {s : Invocation}

@[simp] theorem map_tool_interrupted (calls : List ToolCall) :
    (calls.map ToolCall.interrupted).map ToolCall.tool = calls.map ToolCall.tool := by
  rw [List.map_map]
  refine List.map_congr_left fun c _ => ?_
  simp only [Function.comp, ToolCall.interrupted]
  split <;> rfl

/-- One more execution of a call. -/
theorem Keyed.of_tools {s s' : Invocation} {e : Issued} (keyed : Keyed s e) (session : s'.session = s.session)
    (id : s'.id = s.id) (tools : ∃ more, s'.tools = s.tools ++ more) : Keyed s' e := by
  obtain ⟨more, grown⟩ := tools
  obtain ⟨ofDecision, tool, isTools, isTool, isKey⟩ := keyed
  refine ⟨ofDecision, tool, ?_, isTool, by rw [isKey, session, id]⟩
  obtain ⟨bound, -⟩ := List.getElem?_eq_some_iff.mp isTools
  rw [grown, List.getElem?_append_left bound, isTools]

/-- A session asks for calls of the invocation if a decision is recorded. -/
theorem any_events (s : Invocation) (others : List SessionEvent) :
    ((s.events others).any fun ev => ev.invocationId = s.id && ev.hasFunctionCalls) = !s.decisions.isEmpty := by
  have noOthers : ((others.filter fun ev => ev.invocationId ≠ s.id || !ev.hasFunctionCalls).any fun ev =>
      ev.invocationId = s.id && ev.hasFunctionCalls) = false := by
    rw [List.any_eq_false]
    intro ev member
    have kept := (List.mem_filter.mp member).2
    by_cases same : ev.invocationId = s.id <;> simp_all
  rw [Invocation.events, List.any_append, noOthers, Bool.or_false]
  cases s.decisions <;> simp

theorem counted_resume_iff (counted : Counted s) (others : List SessionEvent) :
    Counted (Step.take s (.resume others)) ↔ Resumable s (.resume others) := by
  have events := any_events s others
  cases isDecisions : s.decisions with
  | nil =>
    -- nothing is recorded, and the counters begin again
    rw [isDecisions] at events
    simp only [List.isEmpty_nil, Bool.not_true] at events
    refine ⟨fun _ => ⟨by simp [isDecisions], by simp [isDecisions]⟩, fun _ => ?_⟩
    have tools : (Step.take s (.resume others)).tools = s.tools := by simp [Step.take, Invocation.tools, isDecisions]
    exact {
      keyed := fun e member => (counted.keyed e member).of_tools rfl rfl ⟨[], by simp [tools]⟩
      fresh := fun d _ tool => counted.fresh d (by simp [isDecisions]) tool
      next := fun _ => by simp [Step.take, Counters.beforeRun, isDecisions, events]
      last := fun _ => by simp [Step.take, Counters.beforeRun, isDecisions, events]
      inStep := fun _ latest earlier same => by simp [Step.take, isDecisions] at same }
  | cons latest earlier =>
    rw [isDecisions] at events
    simp only [List.isEmpty_cons, Bool.not_false] at events
    have tools : (Step.take s (.resume others)).tools = s.tools := by
      simp only [Step.take, Invocation.tools, isDecisions, List.map_cons, map_tool_interrupted]
    have decisions : (Step.take s (.resume others)).decisions = latest.map ToolCall.interrupted :: earlier := by
      simp [Step.take, isDecisions]
    constructor
    · intro resumed
      have next := resumed.next rfl
      have one : earlier.length = 0 := by
        simpa [Step.take, Counters.beforeRun, isDecisions, events] using next
      refine ⟨by simp [isDecisions, one], ?_⟩
      have inStep := resumed.inStep rfl _ _ decisions
      rw [List.length_eq_zero_iff.mp one] at isDecisions
      rw [isDecisions]
      simpa [Step.take, Counters.beforeRun, one] using inStep
    · rintro ⟨one, inStep⟩
      have none_ : earlier = [] := by
        rw [isDecisions, List.length_cons] at one
        exact List.length_eq_zero_iff.mp (by omega)
      subst none_
      exact {
        keyed := fun e member => (counted.keyed e member).of_tools rfl rfl ⟨[], by simp [tools]⟩
        fresh := fun d later tool => counted.fresh d (by simpa [decisions, isDecisions] using later) tool
        next := fun _ => by simp [Step.take, Counters.beforeRun, isDecisions, events]
        last := fun _ => by simp [Step.take, Counters.beforeRun, isDecisions, events]
        inStep := by
          intro _ latest' earlier' same
          rw [decisions] at same
          cases same
          exact inStep latest (by simp [isDecisions]) }

theorem counted_respond (counted : Counted s) (calls : Option (List String)) : Counted (Step.take s (.respond calls)) := by
  cases calls with
  | none =>
    simp only [Step.take, Counters.afterModel, Bool.false_eq_true, if_false]
    split <;> exact counted
  | some calls =>
    simp only [Step.take]
    split
    next asked =>
      obtain ⟨alive, none_, -⟩ := asked
      have next := counted.next alive
      simp only [none_, Option.isSome_none, Bool.false_eq_true, if_false, Int.add_zero] at next
      exact {
        keyed := fun e member => (counted.keyed e member).of_tools rfl rfl ⟨[], by simp [Invocation.tools]⟩
        fresh := counted.fresh
        next := fun _ => by simp [Counters.afterModel, next]
        last := fun _ => by simp [Counters.afterModel, next]
        inStep := counted.inStep }
    next => exact counted

theorem counted_record (counted : Counted s) : Counted (Step.take s .record) := by
  simp only [Step.take]
  cases isResponse : s.response with
  | none => exact counted
  | some calls =>
    simp only
    exact {
      keyed := fun e member => (counted.keyed e member).of_tools rfl rfl ⟨[calls], by
        simp [Invocation.tools, Function.comp_def]⟩
      fresh := fun d later tool => counted.fresh d (by simp at later; omega) tool
      next := fun alive => by simpa [isResponse] using counted.next alive
      last := fun alive => by simpa [isResponse] using counted.last alive
      inStep := by
        intro _ latest earlier same
        cases same
        -- all calls wait, and none is counted
        refine ⟨List.pairwise_map.mpr (List.pairwise_of_forall fun _ _ _ _ => rfl), ?_⟩
        intro c member _
        have none_ : ((calls.map fun tool => ({ tool } : ToolCall)).countP fun other =>
            other.tool = c.tool && other.stand ≠ .waiting) = 0 := by
          rw [List.countP_eq_zero]
          intro other isOther
          obtain ⟨tool, -, rfl⟩ := List.mem_map.mp isOther
          simp
        rw [none_]
        exact counted.fresh s.decisions.length le_rfl c.tool }

/-- A call is replaced by one that looks the same. -/
theorem map_set_same {α β : Type} {f : α → β} {l : List α} {i : Nat} {a b : α} (isA : l[i]? = some a) (same : f b = f a) :
    (l.set i b).map f = l.map f := by
  refine List.ext_getElem? fun j => ?_
  rw [List.getElem?_map, List.getElem?_map]
  by_cases here : j = i
  · subst here
    obtain ⟨bound, _⟩ := List.getElem?_eq_some_iff.mp isA
    simp [isA, List.getElem?_set_self bound, same]
  · rw [List.getElem?_set_ne (Ne.symm here)]

/-- Only the tools matter, and which calls wait. -/
theorem InStep.congr {tcount : String → Nat} {calls calls' : List ToolCall}
    (same : calls.map (fun c => (c.tool, decide (c.stand = .waiting))) = calls'.map fun c =>
      (c.tool, decide (c.stand = .waiting)))
    (inStep : InStep tcount calls) : InStep tcount calls' := by
  have view : ∀ l : List ToolCall, InStep tcount l ↔
      (l.map fun c => (c.tool, decide (c.stand = .waiting))).Pairwise (fun a b => a.1 = b.1 → a.2 → b.2) ∧
        ∀ c ∈ l.map (fun c => (c.tool, decide (c.stand = .waiting))), c.2 →
          tcount c.1 = (l.map fun c => (c.tool, decide (c.stand = .waiting))).countP fun other => other.1 = c.1 && !other.2 := by
    intro l
    simp [InStep, List.pairwise_map, List.countP_map, Function.comp_def]
  rw [view, same, ← view] at inStep
  exact inStep

/-- The first call that waits is executed: it has its place, and the count goes on. -/
theorem InStep.issue {tcount : String → Nat} {before after : List ToolCall} {c : ToolCall}
    (inStep : InStep tcount (before ++ c :: after)) (first : ∀ b ∈ before, b.stand ≠ .waiting) (waiting : c.stand = .waiting) :
    tcount c.tool = (before.map ToolCall.tool).count c.tool ∧
      InStep (Function.update tcount c.tool (tcount c.tool + 1)) (before ++ { c with stand := .running } :: after) := by
  obtain ⟨order, counted⟩ := inStep
  rw [List.pairwise_append, List.pairwise_cons] at order
  obtain ⟨-, ⟨behind, orderAfter⟩, -⟩ := order
  have issuedBefore : ∀ tool, before.countP (fun other => other.tool = tool && other.stand ≠ .waiting) =
      (before.map ToolCall.tool).count tool := by
    intro tool
    rw [List.count_eq_countP, List.countP_map]
    refine List.countP_congr fun other member => ?_
    simp [first other member]
  have noneBehind : after.countP (fun other => other.tool = c.tool && other.stand ≠ .waiting) = 0 := by
    rw [List.countP_eq_zero]
    intro other member
    have waits := fun same => behind other member same waiting
    simp only [Bool.and_eq_true, decide_eq_true_eq, not_and, not_not]
    exact fun same => waits same.symm
  have count : tcount c.tool = (before.map ToolCall.tool).count c.tool := by
    rw [counted c (by simp) waiting, List.countP_append, List.countP_cons, issuedBefore, noneBehind]
    simp [waiting]
  refine ⟨count, ?_, ?_⟩
  · have runs : ∀ b ∈ after, c.tool = b.tool → Stand.running = .waiting → b.stand = .waiting :=
      fun _ _ _ waits => nomatch waits
    rw [List.pairwise_append, List.pairwise_cons]
    refine ⟨?_, ⟨runs, orderAfter⟩, ?_⟩
    · exact List.pairwise_of_forall_mem_list fun a member _ _ _ waits => absurd waits (first a member)
    · exact fun a member _ _ _ waits => absurd waits (first a member)
  · intro d member waits
    have isAfter : d ∈ after := by
      rcases List.mem_append.mp member with isBefore | member
      · exact absurd waits (first d isBefore)
      · cases List.mem_cons.mp member with
        | inl same =>
          subst same
          cases waits
        | inr isAfter => exact isAfter
    by_cases same : d.tool = c.tool
    · rw [same, Function.update_self, count, List.countP_append, List.countP_cons, issuedBefore, noneBehind]
      simp
    · have old := counted d (by simp [isAfter]) waits
      have other : c.tool ≠ d.tool := fun same' => same same'.symm
      rw [Function.update_of_ne same, old]
      simp [List.countP_append, other]

theorem counted_complete (counted : Counted s) (position : Nat) : Counted (Step.take s (.complete position)) := by
  simp only [Step.take]
  split
  · exact counted
  next latest earlier isDecisions =>
    split
    next c isCall =>
      split
      next running =>
        have view : (latest.set position { c with stand := .completed }).map (fun c => (c.tool, decide (c.stand = .waiting))) =
            latest.map fun c => (c.tool, decide (c.stand = .waiting)) := map_set_same isCall (by simp [running.2])
        have tools : (latest.set position { c with stand := .completed }).map ToolCall.tool = latest.map ToolCall.tool :=
          map_set_same isCall rfl
        exact {
          keyed := fun e member => (counted.keyed e member).of_tools rfl rfl ⟨[], by
            simp [Invocation.tools, isDecisions, tools]⟩
          fresh := fun d later tool => counted.fresh d (by simpa [isDecisions] using later) tool
          next := fun alive => by simpa [isDecisions] using counted.next alive
          last := fun alive => by simpa [isDecisions] using counted.last alive
          inStep := by
            intro alive latest' earlier' same
            cases same
            exact (counted.inStep alive latest earlier isDecisions).congr view.symm }
      next => exact counted
    next => exact counted

theorem counted_finish (counted : Counted s) : Counted (Step.take s .finish) := by
  simp only [Step.take]
  split
  · exact {
      keyed := fun e member => (counted.keyed e member).of_tools rfl rfl ⟨[], by simp [Invocation.tools]⟩
      fresh := fun d _ tool => by simp [Counters.afterRun]
      next := fun alive => by cases alive
      last := fun alive => by cases alive
      inStep := fun alive => by cases alive }
  · exact counted

theorem counted_crash (counted : Counted s) : Counted (Step.take s .crash) where
  keyed e member := (counted.keyed e member).of_tools rfl rfl ⟨[], by simp [Step.take, Invocation.tools]⟩
  fresh _ _ _ := rfl
  next alive := by cases alive
  last alive := by cases alive
  inStep alive := by cases alive

/-- The first call that waits, and the calls before it. -/
theorem split_waiting {calls : List ToolCall} {position : Nat} {c : ToolCall}
    (found : calls.findIdx? (fun c => c.stand = .waiting) = some position) (isCall : calls[position]? = some c) :
    ∃ before after, calls = before ++ c :: after ∧ before.length = position ∧
      (∀ b ∈ before, b.stand ≠ .waiting) ∧ c.stand = .waiting := by
  obtain ⟨bound, waits, first⟩ := List.findIdx?_eq_some_iff_getElem.mp found
  obtain ⟨_, isCall⟩ := List.getElem?_eq_some_iff.mp isCall
  refine ⟨calls.take position, calls.drop (position + 1), ?_, by simp; omega, ?_, by simpa [isCall] using waits⟩
  · rw [← isCall, List.getElem_cons_drop, List.take_append_drop]
  · intro b member
    obtain ⟨j, bounded, rfl⟩ := List.mem_take_iff_getElem.mp member
    simpa using first j (by omega)

theorem counted_call (counted : Counted s) : Counted (Step.take s .call) := by
  simp only [Step.take]
  split
  next ready =>
    obtain ⟨alive, none_⟩ := ready
    split
    · exact counted
    next latest earlier isDecisions =>
      split
      · exact counted
      next position found =>
        split
        · exact counted
        next c isCall =>
          -- the first call that waits is issued
          obtain ⟨before, after, rfl, rfl, first, waiting⟩ := split_waiting found isCall
          have last : (s.counters.dlast s.id).getD 0 = (earlier.length : Int) := by
            simp [counted.last alive, isDecisions, none_]
          obtain ⟨place, inStep⟩ := (counted.inStep alive _ _ isDecisions).issue first waiting
          have set : (before ++ c :: after).set before.length { c with stand := .running } =
              before ++ { c with stand := .running } :: after := by simp
          have tools : (s.issue (before ++ c :: after) earlier before.length c).tools = s.tools := by
            simp [Invocation.issue, Invocation.tools, isDecisions]
          have tcount : (s.issue (before ++ c :: after) earlier before.length c).counters.tcount =
            Function.update s.counters.tcount
              (s.id, (earlier.length : Int), c.tool) (s.counters.tcount (s.id, (earlier.length : Int), c.tool) + 1) := by
            simp [Invocation.issue, Counters.nextCall, last]
          exact {
            keyed := by
              intro e member
              cases List.mem_cons.mp member with
              | inr old => exact (counted.keyed e old).of_tools rfl rfl ⟨[], by simp [tools]⟩
              | inl new =>
                refine ⟨(before ++ c :: after).map ToolCall.tool, c.tool, ?_, ?_, ?_⟩
                · rw [tools, new]
                  simp [Invocation.tools, isDecisions]
                · rw [new]
                  simp
                · rw [new]
                  simp only [Invocation.issue, Counters.nextCall, last, place]
                  simp
            fresh := by
              intro d later tool
              -- counters of later decisions are still at zero: only this decision's was raised
              have longer : earlier.length + 1 ≤ d := by simpa [Invocation.issue] using later
              have old := counted.fresh d (by rw [isDecisions]; exact longer) tool
              have ne : (s.id, (d : Int), tool) ≠ (s.id, (earlier.length : Int), c.tool) := by
                intro same
                simp only [Prod.mk.injEq] at same
                omega
              rw [tcount]
              exact (Function.update_of_ne ne _ _).trans old
            next := fun alive => by simpa [Invocation.issue, isDecisions, Counters.nextCall] using counted.next alive
            last := fun alive => by simpa [Invocation.issue, isDecisions, Counters.nextCall] using counted.last alive
            inStep := by
              intro _ latest' earlier' same
              simp only [Invocation.issue, set, List.cons.injEq] at same
              obtain ⟨rfl, rfl⟩ := same
              -- only the column of this tool moves
              have column : (fun tool => (s.issue (before ++ c :: after) earlier before.length c).counters.tcount
                  (s.id, (earlier.length : Int), tool)) = Function.update
                    (fun tool => s.counters.tcount (s.id, (earlier.length : Int), tool)) c.tool
                    (s.counters.tcount (s.id, (earlier.length : Int), c.tool) + 1) := by
                funext tool
                rw [tcount]
                by_cases same : tool = c.tool
                · rw [same, Function.update_self, Function.update_self]
                · rw [Function.update_of_ne same, Function.update_of_ne]
                  exact fun equal => same (congrArg (fun k => k.2.2) equal)
              exact column ▸ inStep }
  next => exact counted

end Steps

/-! ## Runs -/

theorem counted_start (session : SessionKey) (id : String) : Counted { id, session } where
  keyed _ member := nomatch member
  fresh _ _ _ := rfl
  next alive := nomatch alive
  last alive := nomatch alive
  inStep alive := nomatch alive

/-- The counters agree with the history throughout exactly if every resumption finds what it takes for
    granted. -/
theorem resumable_iff_counted (session : SessionKey) (id : String) (steps : List Step) :
    Along Step.take Resumable { id, session } steps ↔ Always Step.take Counted { id, session } steps := by
  refine along_iff_always (fun s step counted => ?_) (counted_start session id)
  cases step with
  | resume others => exact (counted_resume_iff counted others).symm
  | respond calls => exact ⟨fun _ => counted_respond counted calls, fun _ => trivial⟩
  | record => exact ⟨fun _ => counted_record counted, fun _ => trivial⟩
  | call => exact ⟨fun _ => counted_call counted, fun _ => trivial⟩
  | complete position => exact ⟨fun _ => counted_complete counted position, fun _ => trivial⟩
  | finish => exact ⟨fun _ => counted_finish counted, fun _ => trivial⟩
  | crash => exact ⟨fun _ => counted_crash counted, fun _ => trivial⟩

/-- Where every resumption finds what it takes for granted, the keys tell the calls of the invocation
    apart, and an interrupted call keeps its key. -/
theorem keyed_by_call (session : SessionKey) (id : String) {steps : List Step}
    (resumable : Along Step.take Resumable { id, session } steps) : Always Step.take KeyedByCall { id, session } steps :=
  fun before isPrefix => ((resumable_iff_counted session id steps).mp resumable before isPrefix).keyedByCall

/-! ## Two decisions and a crash -/

def shop : SessionKey := ⟨"shop", "alice", "s-1"⟩

/-- A response asks for a charge, and the charge is executed. -/
def chargeOnce : List Step := [.respond (some ["charge"]), .record, .call]

/-- The first charge is interrupted and executed again, before the second is asked for. -/
def firstInterrupted : List Step := .resume [] :: chargeOnce ++ [.crash, .resume [], .call, .complete 0] ++ chargeOnce

theorem firstInterrupted_keyed : Always Step.take KeyedByCall { id := "inv-1", session := shop } firstInterrupted :=
  keyed_by_call shop "inv-1" (by decide +kernel)

/-- The second charge is interrupted, and executed again under the key of the first. -/
def secondInterrupted : List Step :=
  .resume [] :: chargeOnce ++ [.complete 0] ++ chargeOnce ++ [.crash, .resume [], .call]

theorem secondInterrupted_collides : ¬ Always Step.take KeyedByCall { id := "inv-1", session := shop } secondInterrupted ∧
    (run Step.take { id := "inv-1", session := shop } secondInterrupted).issued =
      [⟨1, 0, "inv-1/decision-0/charge/0"⟩, ⟨1, 0, "inv-1/decision-1/charge/0"⟩, ⟨0, 0, "inv-1/decision-0/charge/0"⟩] := by
  have issued : (run Step.take { id := "inv-1", session := shop } secondInterrupted).issued =
      [⟨1, 0, "inv-1/decision-0/charge/0"⟩, ⟨1, 0, "inv-1/decision-1/charge/0"⟩, ⟨0, 0, "inv-1/decision-0/charge/0"⟩] := by
    decide +kernel
  refine ⟨fun always => ?_, issued⟩
  have keyed := always secondInterrupted (List.prefix_refl _)
  rw [KeyedByCall, issued] at keyed
  have same := (keyed ⟨1, 0, "inv-1/decision-0/charge/0"⟩ (by simp) ⟨0, 0, "inv-1/decision-0/charge/0"⟩ (by simp)).mp rfl
  exact absurd same.1 (by decide)

end Tape.Embedded.Plugin
