import Tape.Bigtable.Runs

/-! # One effect for a business key

An operation of the world outside is known by a connector and a key, and the effect of it by the row that its
`begin_effect` claims before it writes the effect.  Who loses the row looks up the effect that it names, and creates an
effect of its own where that is not written yet.
-/

namespace Tape.BigtableRunStore.BusinessKey

open Interleave Bigtable
open RunStore (EffectRequest freshEffect)

/-! ## Calls -/

/-- The arguments of `begin_effect`, and the clock it reads. -/
structure Call where
  request : EffectRequest
  ts : Int

abbrev Out (_ : Call) : Type := Except StoreError EffectRecord

def body (scopesOf : String → List String) (call : Call) : Prog Op Reply (Out call) :=
  beginEffect scopesOf call.request call.ts

abbrev effectStore (scopesOf : String → List String) : System Contents Op Reply Call Out :=
  machine requestFailed (body scopesOf)

abbrev EffectConfig : Type := Config Contents Op Reply Call Out

/-- A table without any process running, and nothing executed yet. -/
def quiet (c : Contents) : EffectConfig where
  state := c
  log := []
  pool := []

theorem quiet_owned (c : Contents) : (quiet c).Owned := fun _ member => (List.not_mem_nil member).elim

/-- What there is to be one effect for. -/
structure Operation where
  connector : String
  businessKey : String
  deriving DecidableEq

def Operation.row (o : Operation) : String := rkBusinessKey o.connector o.businessKey

def Call.operation (call : Call) : Operation := ⟨call.request.connector, call.request.businessKey⟩

def Call.key (call : Call) : String := call.request.key

/-- The effect is of the operation. -/
def Operation.describes (o : Operation) (m : RowMap) : Bool :=
  gs m "connector" = o.connector && gs m "business_key" = o.businessKey

/-- The key that a row names. -/
def pointer (row : Option RowMap) : String := (row.map fun m => gs m "effect_key").getD ""

/-- What `begin_effect` writes of a new effect. -/
def newEffect (r : EffectRequest) (seq ts : Int) : List Mutation :=
  [set "run" r.runId, set "seq" (iv seq), set "decision_index" (iv r.decisionIndex), set "tool" r.toolName,
    set "status" (iv EffectStatus.pending.code), set "request" r.requestJson, set "ts" (iv ts),
    set "semantics" (iv r.sem), set "dispatch_mode" (iv r.dmode), set "business_key" r.businessKey,
    set "connector" r.connector,
    set "next_dispatch_at_ms" (iv (if r.dmode = EffectDispatchMode.outbox.code then ts else 0)), set "scope" r.scope]

/-! ## What the calls do -/

/-- The row was claimed for the key. -/
def claims (o : Operation) (key : String) : BigtableEvent → Bool
  | ⟨_, .checkAndMutateRow k _ _ falseMutations, .ok false⟩ =>
    k = o.row && pointer (some (Mutation.applyAll falseMutations [])) = key
  | _ => false

/-- It was claimed already. -/
def loses (o : Operation) : BigtableEvent → Bool
  | ⟨_, .checkAndMutateRow k _ _ _, .ok true⟩ => k = o.row
  | _ => false

/-- The operation writes neither an effect nor the row of a business key. -/
def Spares : Op → Prop
  | .mutateRow key _ => (∀ o : Operation, key ≠ o.row) ∧ ∀ k, key ≠ rkEffect k
  | .checkAndMutateRow .. => False
  | _ => True

/-- After it has lost the row, the thread was told what that names: nothing, or an effect that was not there. -/
def Unfound (o : Operation) (tid : Nat) (key : String) (log : List BigtableEvent) : Prop :=
  ∃ newer event older row, log = newer ++ event :: older ∧ event.tid = tid ∧
    (older.any fun other => other.tid = tid && loses o other) ∧
      (readOf o.row event = some row ∧ pointer row = "" ∨
        lastRead o.row tid older = some row ∧ pointer row = key ∧ key ≠ "" ∧ readOf (rkEffect key) event = some none)

/-- What a call knows that creates an effect. -/
def Entitled (call : Call) (tid : Nat) (log : List BigtableEvent) : Prop :=
  (∃ event ∈ log, claims call.operation call.key event) ∨ ∃ key, Unfound call.operation tid key log

inductive Step (tid : Nat) (call : Call) (h : BigtableHist) : Op → Prop
  | spare {op : Op} (spares : Spares op) : Step tid call h op
  | check (keyed : call.operation.businessKey ≠ "") : Step tid call h (.checkAndMutateRow call.operation.row
      (colHasNonempty "effect_key") [] [set "effect_key" call.key, set "ts" (iv call.ts)])
  | create {seq : Int} (entitled : call.operation.businessKey ≠ "" → Entitled call tid h.log) :
      Step tid call h (.mutateRow (rkEffect call.key) (newEffect call.request seq call.ts))

/-- The effect was found, or written. -/
def Shown (key : String) (event : BigtableEvent) : Prop :=
  writes (rkEffect key) event ∨ ∃ m, readOf (rkEffect key) event = some (some m)

/-- The effect that a call has returned is its own, or the one that the row names. -/
structure Given (call : Call) (key : String) (log : List BigtableEvent) : Prop where
  shown : ∃ event ∈ log, Shown key event
  named : key = call.key ∨ call.operation.businessKey ≠ "" ∧ key ≠ "" ∧
    ∃ event ∈ log, ∃ row, readOf call.operation.row event = some row ∧ pointer row = key

def effectPost (_ : Nat) (call : Call) (result : Out call) (h : BigtableHist) : Prop :=
  ∀ record, result = .ok record → Given call record.idempotencyKey h.log

abbrev effectContract (scopesOf : String → List String) (tid : Nat) (call : Call) : Contract Contents Op Reply :=
  (effectStore scopesOf).tracked (fun _ _ _ _ => True) Step tid call

section Programs

variable {scopesOf : String → List String} {tid : Nat} {call : Call} {h : BigtableHist}

theorem Entitled.mono {log log' : List BigtableEvent} (entitled : Entitled call tid log) (grown : log <:+ log') :
    Entitled call tid log' := by
  rcases entitled with ⟨event, member, isClaim⟩ | ⟨key, newer, event, older, row, rfl, facts⟩
  · exact .inl ⟨event, grown.mem member, isClaim⟩
  · obtain ⟨newest, rfl⟩ := grown
    exact .inr ⟨key, newest ++ newer, event, older, row, by simp, facts⟩

theorem row_ne_rkEffect (o : Operation) (key : String) : o.row ≠ rkEffect key := by
  intro same
  have first := congrArg String.toList same
  simp [Operation.row, rkBusinessKey, rkEffect] at first

theorem rkEffect_injective {k key : String} (same : rkEffect k = rkEffect key) : k = key := by
  simpa [rkEffect] using same

/-- The kinds of rows are told by the first letters of their keys. -/
theorem spares_of_key {key : String} {mutations : List Mutation} (other : ¬ "bk#".toList <+: key.toList)
    (notEffect : ¬ "e#".toList <+: key.toList) : Spares (.mutateRow key mutations) := by
  refine ⟨?_, ?_⟩
  · rintro o rfl
    exact other ⟨o.connector.toList ++ '#' :: o.businessKey.toList, by simp [Operation.row, rkBusinessKey]⟩
  · rintro k rfl
    exact notEffect ⟨k.toList, by simp [rkEffect]⟩

abbrev AllSpare {α : Type} (program : BigtableM α) : Prop := program.run.All Spares

theorem AllSpare.pure {α : Type} (value : α) : AllSpare (Pure.pure value) := trivial

theorem AllSpare.bind {α β : Type} {program : BigtableM α} {f : α → BigtableM β} (first : AllSpare program)
    (rest : ∀ value, AllSpare (f value)) : AllSpare (program >>= f) := Prog.All.exceptBind first rest

theorem AllSpare.perform {op : Op} (spares : Spares op) : AllSpare (BigtableRunStore.perform op) :=
  ⟨spares, fun _ => trivial⟩

theorem AllSpare.attempt {α : Type} {program : BigtableM α} (all : AllSpare program) : AllSpare (attempt program) :=
  Prog.All.bind all fun _ => trivial

theorem allSpare_nextSeq (runId : String) : AllSpare (nextSeq runId) :=
  .bind (.perform trivial) fun _ => .bind
    (.perform (spares_of_key (by simp [rkRun]) (by simp [rkRun]))) fun _ => .pure _

theorem allSpare_journal {runId kind : String} {seq ts : Int} {payload : Json} :
    AllSpare (journal runId seq kind payload ts) := by
  have entry : ∀ seq mutations, Spares (.mutateRow (rkJournal runId seq) mutations) := fun seq mutations =>
    spares_of_key (by simp [rkJournal]) (by simp [rkJournal])
  have global : ∀ globalSeq mutations, Spares (.mutateRow (rkJournalGs globalSeq) mutations) := fun globalSeq mutations =>
    spares_of_key (by simp [rkJournalGs]) (by simp [rkJournalGs])
  refine .bind (.perform trivial) fun globalSeq => ?_
  split
  · exact .bind (.perform (entry _ _)) fun _ => .perform (global _ _)
  · exact .perform (global _ _)

/-- What a call knows lasts while it writes other rows. -/
theorem safe_then {α : Type} {program : BigtableM α} {f : α → BigtableM EffectRecord} (all : AllSpare program)
    (rest : ∀ value h', h.log <:+ h'.log →
      (effectStore scopesOf).Safe (effectContract scopesOf tid call) tid (effectPost tid call) (f value).run h') :
    (effectStore scopesOf).Safe (effectContract scopesOf tid call) tid (effectPost tid call) (program >>= f).run h := by
  refine System.Safe.exceptBind (fun e h record isOk => by cases isOk) ?_
  refine System.Safe.of_all_knowing (K := effectContract scopesOf tid call) (fun h' => h.log <:+ h'.log)
    (fun foreign grown => grown.trans (Foreign.suffix foreign)) ?_ ?_ all (List.suffix_refl _)
  · intro h' op res state spares _ grown answers
    exact ⟨⟨op, res, state, rfl, answers, trivial, .spare spares⟩, grown.trans (List.suffix_cons _ _)⟩
  · exact fun result h' grown value _ => rest value h' grown

variable (scopesOf tid call) in
/-- The call has found nothing it could return. -/
theorem safe_create {h : BigtableHist} (entitled : call.operation.businessKey ≠ "" → Entitled call tid h.log) :
    (effectStore scopesOf).Safe (effectContract scopesOf tid call) tid (effectPost tid call)
      (beginEffect.create call.request call.ts).run h := by
  unfold beginEffect.create
  refine safe_then (allSpare_nextSeq _) fun seq h₁ grown₁ => ?_
  refine safe_perform (fun _ _ _ isOk => by cases isOk) ?_ fun h₂ _ state foreign _ _ => ?_
  · exact fun h₂ foreign _ => .create fun keyed => (entitled keyed).mono (grown₁.trans foreign.suffix)
  · refine safe_then allSpare_journal fun _ h₃ grown₃ => ?_
    rintro h₄ foreign₄ record isOk
    cases isOk
    exact ⟨⟨_, foreign₄.mem (grown₃.mem List.mem_cons_self), .inl (decide_eq_true rfl)⟩, .inl rfl⟩

/-- What the row names is returned if it is there; if not, the call goes on, and knows it. -/
theorem safe_pointed {f : Option EffectRecord → BigtableM EffectRecord} (keyed : call.operation.businessKey ≠ "")
    (rest : ∀ h', h.log <:+ h'.log →
      ((h.log.any fun other => other.tid = tid && loses call.operation other) → ∃ key, Unfound call.operation tid key h'.log) →
        (effectStore scopesOf).Safe (effectContract scopesOf tid call) tid (effectPost tid call) (f none).run h')
    (found : ∀ record, (f (some record)) = pure record) :
    (effectStore scopesOf).Safe (effectContract scopesOf tid call) tid (effectPost tid call)
      (beginEffect.pointed call.operation.row >>= f).run h := by
  refine System.Safe.exceptBind (fun e h record isOk => by cases isOk) ?_
  unfold beginEffect.pointed
  refine safe_perform (fun _ _ _ isOk => by cases isOk) (fun _ _ _ => .spare trivial) fun h₁ row state₁ foreign₁ _ _ => ?_
  have last : lastRead call.operation.row tid (h₁.push tid (.readRow call.operation.row) (.ok row) state₁).log = some row :=
    lastRead_push_readRow h₁ row state₁
  have grown₁ : h.log <:+ (h₁.push tid (.readRow call.operation.row) (.ok row) state₁).log :=
    foreign₁.suffix.trans (List.suffix_cons _ _)
  have isRead : ∃ event ∈ (h₁.push tid (.readRow call.operation.row) (.ok row) state₁).log,
      ∃ row', readOf call.operation.row event = some row' ∧ pointer row' = pointer row :=
    ⟨_, List.mem_cons_self, row, readOf_readRow, rfl⟩
  -- a call that lost its CAS and then finds no name has seen the pointer go
  have nameless : pointer row = "" → (h.log.any fun other => other.tid = tid && loses call.operation other) →
      Unfound call.operation tid "" (h₁.push tid (.readRow call.operation.row) (.ok row) state₁).log := by
    intro unnamed lost
    refine ⟨[], _, h₁.log, row, rfl, rfl, ?_, .inl ⟨readOf_readRow, unnamed⟩⟩
    obtain ⟨event, member, both⟩ := List.any_eq_true.mp lost
    exact List.any_eq_true.mpr ⟨event, foreign₁.mem member, both⟩
  generalize h₁.push tid (.readRow call.operation.row) (.ok row) state₁ = h₁' at last grown₁ isRead nameless
  show (effectStore scopesOf).Safe _ tid _ (ExceptT.run (if pointer row = "" then _ else _)) h₁'
  split
  -- no name: the call goes on as if there were no such operation
  next unnamed =>
    intro h₂ foreign₂ result isOk
    cases isOk
    refine rest h₂ (grown₁.trans foreign₂.suffix) fun lost => ⟨"", ?_⟩
    obtain ⟨newer, event, older, row', split, facts⟩ := nameless unnamed lost
    obtain ⟨newest, grown⟩ := foreign₂.suffix
    exact ⟨newest ++ newer, event, older, row', by rw [← grown, split, List.append_assoc], facts⟩
  next isNamed =>
    unfold getEffect
    refine safe_perform (fun _ _ _ isOk => by cases isOk) (fun _ _ _ => .spare trivial) fun h₂ effect state₂ foreign₂ _ _ => ?_
    intro h₃ foreign₃ result isOk
    cases isOk
    cases effect with
    -- a name without an effect: the winner has not written it yet, or never will
    | none =>
      refine rest h₃ (grown₁.trans (foreign₂.suffix.trans ((List.suffix_cons _ _).trans foreign₃.suffix))) fun lost => ?_
      obtain ⟨newest, grown⟩ := foreign₃.suffix
      refine ⟨pointer row, newest, _, h₂.log, row, grown.symm, rfl, ?_,
        .inr ⟨(lastRead_foreign foreign₂).trans last, rfl, isNamed, readOf_readRow⟩⟩
      obtain ⟨event, member, both⟩ := List.any_eq_true.mp lost
      exact List.any_eq_true.mpr ⟨event, foreign₂.mem (grown₁.mem member), both⟩
    -- the winner's effect is answered
    | some m =>
      show (effectStore scopesOf).Safe _ tid _ (f (some (effectFrom (pointer row) m))).run h₃
      rw [found]
      rintro h₄ foreign₄ record isOk
      cases isOk
      obtain ⟨event, member, facts⟩ := isRead
      refine ⟨⟨_, foreign₄.mem (foreign₃.mem List.mem_cons_self), .inr ⟨m, readOf_readRow⟩⟩,
        .inr ⟨keyed, isNamed, event, ?_, facts⟩⟩
      exact foreign₄.mem (foreign₃.mem (List.mem_cons_of_mem _ (foreign₂.mem member)))

variable (scopesOf tid call) in
theorem safe_admit {h : BigtableHist} (valid : call.operation.businessKey ≠ "" → call.operation.connector ≠ "") :
    (effectStore scopesOf).Safe (effectContract scopesOf tid call) tid (effectPost tid call)
      (beginEffect.admitted call.request call.ts).run h := by
  unfold beginEffect.admitted
  refine safe_perform (fun _ _ _ isOk => by cases isOk) (fun _ _ _ => .spare trivial) fun h₁ row state foreign _ _ => ?_
  cases row with
  | some m =>
    rintro h₂ foreign₂ record isOk
    cases isOk
    exact ⟨⟨_, foreign₂.mem List.mem_cons_self, .inr ⟨m, readOf_readRow⟩⟩, .inl rfl⟩
  | none =>
    generalize h₁.push tid (.readRow (rkEffect call.request.key)) (.ok none) state = h₁'
    dsimp only
    split
    next isKeyed =>
      have keyed : call.operation.businessKey ≠ "" := by
        simp only [Bool.and_eq_true, Bool.not_eq_true'] at isKeyed
        exact fun empty => by simp [Call.operation] at empty; simp [empty] at isKeyed
      refine safe_pointed keyed (fun h₂ grown₂ _ => ?_) fun record => rfl
      refine safe_perform (fun _ _ _ isOk => by cases isOk) (fun _ _ _ => .check keyed) fun h₃ claimed state₃ foreign₃ _ _ => ?_
      cases claimed with
      | false =>
        refine safe_create scopesOf tid call fun _ => .inl ⟨_, List.mem_cons_self, ?_⟩
        simp [claims, Call.operation, Operation.row, pointer, set, Mutation.apply, gs, Call.key]
      | true =>
        refine safe_pointed keyed (fun h₄ grown₄ unfound => ?_) fun record => rfl
        refine safe_create scopesOf tid call fun _ => .inr (unfound ?_)
        refine List.any_eq_true.mpr ⟨_, List.mem_cons_self, ?_⟩
        simp [loses, Call.operation, Operation.row]
    next unkeyed =>
      refine safe_create scopesOf tid call fun keyed => absurd ?_ unkeyed
      have connected := valid keyed
      simp only [Call.operation] at keyed connected
      simp [keyed, connected]

theorem safe_beginEffect : (effectStore scopesOf).Safe (effectContract scopesOf tid call) tid (effectPost tid call)
    (body scopesOf call) h := by
  show (effectStore scopesOf).Safe _ tid _ (beginEffect _ _ _).run h
  unfold beginEffect
  split
  next => exact fun _ _ _ isOk => by cases isOk
  split
  next => exact fun _ _ _ isOk => by cases isOk
  split
  next => exact fun _ _ _ isOk => by cases isOk
  next isValid =>
    have valid : call.operation.businessKey ≠ "" → call.operation.connector ≠ "" := by
      intro keyed unconnected
      simp only [Call.operation] at keyed unconnected
      simp [keyed, unconnected] at isValid
    split
    next => exact safe_admit scopesOf tid call valid
    next =>
      refine safe_then (.bind (.perform trivial) fun _ => .pure _) fun run h₁ _ => ?_
      dsimp only
      split
      next => exact safe_admit scopesOf tid call valid
      next =>
        refine safe_then (.attempt (allSpare_nextSeq _)) fun seq h₂ _ => ?_
        refine safe_then (.attempt allSpare_journal) fun _ h₃ _ => ?_
        exact fun _ _ _ isOk => by cases isOk

theorem effects_compose : System.Compose (effectStore scopesOf) (fun _ => True)
    ((effectStore scopesOf).tracked (fun _ _ _ _ => True) Step) effectPost :=
  System.tracked_compose fun _ _ => safe_beginEffect

end Programs

/-! ## The row and the effects -/

/-- The calls tell operations apart: by their keys, which a filter can see, and by the rows of their business keys. -/
structure Separate (o : Operation) (calls : Nat → Option Call) : Prop where
  keys : ∀ tid tid' call call', calls tid = some call → calls tid' = some call' → call.key = call'.key →
    call.operation = o → call'.operation = o
  rows : ∀ tid call, calls tid = some call → call.operation.businessKey ≠ "" → call.operation.row = o.row →
    call.operation = o
  seen : ∀ tid call, calls tid = some call → call.operation = o → ValueFilter.nonempty.accepts call.key

/-- The row is claimed once, and the effects of the operation are where it points to. -/
structure Pointed (o : Operation) (calls : Nat → Option Call) (h : BigtableHist) : Prop where
  claimed : ∀ key, (∃ event ∈ h.log, claims o key event) → key ≠ "" ∧ pointer (h.state.read o.row) = key
  told : ∀ event ∈ h.log, ∀ row, readOf o.row event = some row → pointer row ≠ "" →
    pointer (h.state.read o.row) = pointer row
  lost : (∃ event ∈ h.log, loses o event) → pointer (h.state.read o.row) ≠ ""
  unclaimed : Logged (fun event older => ∀ row, readOf o.row event = some row → pointer row = "" →
    ∀ check ∈ older, loses o check = false) h.log
  served : pointer (h.state.read o.row) ≠ "" →
    ∃ tid call, calls tid = some call ∧ call.operation = o ∧ call.key = pointer (h.state.read o.row)
  rows : ∀ key m, h.state.read (rkEffect key) = some m → o.describes m → key ≠ "" ∧ pointer (h.state.read o.row) = key
  own : ∀ tid call, calls tid = some call → call.operation = o → ∀ m, h.state.read (rkEffect call.key) = some m →
    o.describes m
  kept : ∀ key, (∃ event ∈ h.log, Shown key event) → ∃ m, h.state.read (rkEffect key) = some m

/-- Who has lost the row finds the effect it points to, unless that is to be its own. -/
def Awaited (o : Operation) (tid : Nat) (call : Call) (h : BigtableHist) : Op → Prop
  | .readRow key => (lastRead o.row tid h.log).all fun row =>
    key ≠ rkEffect (pointer row) || key = rkEffect call.key || (h.state.read key).isSome ||
      !(h.log.any fun event => event.tid = tid && loses o event)
  | _ => True

instance (o : Operation) (tid : Nat) (call : Call) (h : BigtableHist) (op : Op) : Decidable (Awaited o tid call h op) := by
  unfold Awaited
  split <;> infer_instance

/-- The same of the event. -/
def Found (o : Operation) (calls : Nat → Option Call) (event : BigtableEvent) (older : List BigtableEvent) : Prop :=
  ∀ call row, calls event.tid = some call → lastRead o.row event.tid older = some row →
    (older.any fun other => other.tid = event.tid && loses o other) → readOf (rkEffect (pointer row)) event = some none →
      pointer row = call.key

section Steps

variable {scopesOf : String → List String} {o : Operation} {calls : Nat → Option Call} {tid : Nat} {call : Call}
  {h : BigtableHist} {op : Op} {res : Reply op} {c : Contents}

theorem found_of_awaited (serves : calls tid = some call) (awaited : Awaited o tid call h op) :
    Found o calls ⟨tid, op, .ok (op.exec h.state).1⟩ h.log := by
  intro call' row serves' last lost missing
  obtain rfl := Option.some.inj (serves.symm.trans serves')
  cases op with
  | readRow key =>
    have same : key = rkEffect (pointer row) := by
      by_contra differs
      cases (readOf_readRow_ne differs _).symm.trans missing
    subst same
    have absent : h.state.read (rkEffect (pointer row)) = none := by
      simpa [readOf, Op.exec] using missing
    have lost : (h.log.any fun event => event.tid = tid && loses o event) = true := lost
    rw [Awaited, last] at awaited
    simp only [Option.all_some, ne_eq, not_true_eq_false, decide_false, Bool.false_or, lost, absent, Option.isSome_none,
      Bool.not_true, Bool.or_false, decide_eq_true_eq] at awaited
    exact rkEffect_injective awaited
  | _ => cases missing

theorem found_of_fault (failed : (effectStore scopesOf).fault op = some res) : Found o calls ⟨tid, op, res⟩ h.log := by
  intro call row _ _ _ missing
  obtain rfl : Except.error requestFailed = res := Option.some.inj failed
  cases op <;> cases missing

/-- A call that creates an effect has claimed the row for it. -/
theorem pointer_of_entitled (pointed : Pointed o calls h) (looked : Logged (Found o calls) h.log)
    (serves : calls tid = some call) (own : call.operation = o) (entitled : Entitled call tid h.log) :
    pointer (h.state.read o.row) = call.key := by
  subst own
  rcases entitled with isClaim | ⟨key, newer, event, older, row, split, rfl, lost, told⟩
  · exact (pointed.claimed _ isClaim).2
  · rcases told with ⟨read, unnamed⟩ | ⟨last, rfl, isNamed, missing⟩
    · -- a row that was lost names somebody
      obtain ⟨check, member, both⟩ := List.any_eq_true.mp lost
      have unlost := (pointed.unclaimed.of_split newer split) row read unnamed check member
      rw [unlost, Bool.and_false] at both
      cases both
    · have same := (looked.of_split newer split) call row serves last lost missing
      obtain ⟨newer', read, older', isOlder, -, isRead⟩ := split_of_lastRead last
      rw [← same]
      exact pointed.told read (by simp [split, isOlder]) row isRead isNamed

theorem Pointed.tells (pointed : Pointed o calls h) (answers : (effectStore scopesOf).Answers op h.state res c)
    {row : Option RowMap} (read : readOf o.row ⟨tid, op, res⟩ = some row) : pointer (h.state.read o.row) = pointer row ∧
      (pointer row = "" → ∀ check ∈ h.log, loses o check = false) := by
  obtain ⟨rfl, -⟩ := readOf_answers answers read
  refine ⟨rfl, fun unnamed check member => ?_⟩
  by_contra isLost
  exact pointed.lost ⟨check, member, by simpa using isLost⟩ unnamed

/-- What a step has to keep: who has claimed the row keeps it. -/
theorem Pointed.push (pointed : Pointed o calls h) (answers : (effectStore scopesOf).Answers op h.state res c)
    (stable : pointer (h.state.read o.row) ≠ "" → pointer (c.read o.row) = pointer (h.state.read o.row))
    (claimed : ∀ key, claims o key ⟨tid, op, res⟩ → key ≠ "" ∧ pointer (c.read o.row) = key)
    (lost : loses o ⟨tid, op, res⟩ → pointer (h.state.read o.row) ≠ "")
    (served : pointer (h.state.read o.row) = "" → pointer (c.read o.row) ≠ "" →
      ∃ tid call, calls tid = some call ∧ call.operation = o ∧ call.key = pointer (c.read o.row))
    (rows : ∀ key m, c.read (rkEffect key) = some m → o.describes m →
      (∃ m', h.state.read (rkEffect key) = some m' ∧ o.describes m') ∨ key ≠ "" ∧ pointer (c.read o.row) = key)
    (own : ∀ tid call, calls tid = some call → call.operation = o → ∀ m, c.read (rkEffect call.key) = some m → o.describes m)
    (kept : ∀ key, writes (rkEffect key) ⟨tid, op, res⟩ ∨ (∃ m, h.state.read (rkEffect key) = some m) →
      ∃ m, c.read (rkEffect key) = some m) : Pointed o calls (h.push tid op res c) where
  -- what is named stays named: every fact about an older event carries over by `stable`
  claimed key isClaim := by
    obtain ⟨event, member, isClaim⟩ := isClaim
    rcases List.mem_cons.mp member with rfl | member
    · exact claimed key isClaim
    · obtain ⟨some_, same⟩ := pointed.claimed key ⟨event, member, isClaim⟩
      exact ⟨some_, (stable (same ▸ some_)).trans same⟩
  told event member row read isNamed := by
    rcases List.mem_cons.mp member with rfl | member
    · obtain ⟨same, -⟩ := pointed.tells answers read
      exact (stable (same ▸ isNamed)).trans same
    · have same := pointed.told event member row read isNamed
      exact (stable (same ▸ isNamed)).trans same
  lost isLost := by
    obtain ⟨event, member, isLost⟩ := isLost
    have some_ : pointer (h.state.read o.row) ≠ "" := by
      rcases List.mem_cons.mp member with rfl | member
      · exact lost isLost
      · exact pointed.lost ⟨event, member, isLost⟩
    exact fun unnamed => some_ ((stable some_).symm.trans unnamed)
  unclaimed := ⟨fun row read unnamed => (pointed.tells answers read).2 unnamed, pointed.unclaimed⟩
  served isNamed := by
    by_cases unnamed : pointer (h.state.read o.row) = ""
    · exact served unnamed isNamed
    · rw [Hist.push_state, stable unnamed]
      exact pointed.served unnamed
  rows key m found describes := by
    rcases rows key m found describes with ⟨m', found', describes'⟩ | new
    · obtain ⟨some_, same⟩ := pointed.rows key m' found' describes'
      exact ⟨some_, (stable (same ▸ some_)).trans same⟩
    · exact new
  own := own
  kept key isShown := by
    obtain ⟨event, member, isShown⟩ := isShown
    rcases List.mem_cons.mp member with rfl | member
    · rcases isShown with isWrite | ⟨m, read⟩
      · exact kept key (.inl isWrite)
      · exact kept key (.inr ⟨m, (readOf_answers answers read).1⟩)
    · exact kept key (.inr (pointed.kept key ⟨event, member, isShown⟩))

/-- Where nothing that matters is written. -/
theorem Pointed.push_same (pointed : Pointed o calls h) (answers : (effectStore scopesOf).Answers op h.state res c)
    (row : c.read o.row = h.state.read o.row) (effects : ∀ key, writes (rkEffect key) ⟨tid, op, res⟩ = false)
    (unclaimed : ∀ key, claims o key ⟨tid, op, res⟩ = false)
    (lost : loses o ⟨tid, op, res⟩ → pointer (h.state.read o.row) ≠ "") : Pointed o calls (h.push tid op res c) := by
  have same : ∀ key, c.read (rkEffect key) = h.state.read (rkEffect key) := fun key =>
    read_of_not_writes answers (effects key)
  refine pointed.push answers (fun _ => by rw [row]) ?_ lost ?_ ?_ ?_ ?_
  · intro key isClaim
    cases (unclaimed key).symm.trans isClaim
  · intro unnamed isNamed
    exact absurd (row ▸ unnamed) isNamed
  · exact fun key m found describes => .inl ⟨m, same key ▸ found, describes⟩
  · exact fun tid call serves own m found => pointed.own tid call serves own m (same _ ▸ found)
  · rintro key (isWrite | found)
    · cases (effects key).symm.trans isWrite
    · rwa [same]

theorem Pointed.fault (pointed : Pointed o calls h) (failed : (effectStore scopesOf).fault op = some res) :
    Pointed o calls (h.push tid op res h.state) := by
  have answers : (effectStore scopesOf).Answers op h.state res h.state := .fault failed
  obtain rfl : Except.error requestFailed = res := Option.some.inj failed
  refine pointed.push_same answers rfl (fun _ => not_writes_of_error _) (fun key => ?_) fun isLost => ?_
  · cases op <;> rfl
  · cases op <;> cases isLost

theorem accepts_iff_named (cells : RowMap) (seen : ∀ value, cells.get? "effect_key" = some value → value ≠ "" →
    ValueFilter.nonempty.accepts value) : (colHasNonempty "effect_key").accepts cells ↔ gs cells "effect_key" ≠ "" := by
  cases found : cells.get? "effect_key" with
  | none => simp [RowFilter.accepts, colHasNonempty, found, gs]
  | some value =>
    by_cases empty : value = ""
    · simp [RowFilter.accepts, colHasNonempty, found, gs, empty, ValueFilter.accepts]
    · simp [RowFilter.accepts, colHasNonempty, found, gs, empty, seen value found empty]

variable (o tid) in
theorem not_writes_of_spares (spares : Spares op) (res : Reply op) :
    writes o.row ⟨tid, op, res⟩ = false ∧ ∀ key, writes (rkEffect key) ⟨tid, op, res⟩ = false := by
  cases op with
  | readRow | readPrefix | readRange | increment => exact ⟨rfl, fun _ => rfl⟩
  | checkAndMutateRow => exact spares.elim
  | mutateRow key mutations =>
    cases res with
    | error e => exact ⟨rfl, fun _ => rfl⟩
    | ok => exact ⟨decide_eq_false (spares.1 o), fun k => decide_eq_false (spares.2 k)⟩

theorem describes_newEffect {seq : Int} (m : RowMap) :
    o.describes (Mutation.applyAll (newEffect call.request seq call.ts) m) ↔ call.operation = o := by
  cases o
  simp [Operation.describes, newEffect, set, Mutation.apply, gs, Call.operation]

theorem not_of_other {k : String} {predicate : RowFilter} {trueMutations falseMutations : List Mutation} (other : k ≠ o.row)
    (res : Reply (.checkAndMutateRow k predicate trueMutations falseMutations)) (key : String) :
    claims o key ⟨tid, .checkAndMutateRow k predicate trueMutations falseMutations, res⟩ = false ∧
      loses o ⟨tid, .checkAndMutateRow k predicate trueMutations falseMutations, res⟩ = false := by
  match res with
  | .error e => exact ⟨rfl, rfl⟩
  | .ok false => exact ⟨by simp [claims, other], rfl⟩
  | .ok true => exact ⟨rfl, by simp [loses, other]⟩

theorem Pointed.check (pointed : Pointed o calls h) (separate : Separate o calls) (serves : calls tid = some call)
    (keyed : call.operation.businessKey ≠ "")
    (isCheck : op = .checkAndMutateRow call.operation.row (colHasNonempty "effect_key") []
      [set "effect_key" call.key, set "ts" (iv call.ts)])
    (answers : (effectStore scopesOf).Answers op h.state (.ok (op.exec h.state).1) (op.exec h.state).2) :
    Pointed o calls (h.push tid op (.ok (op.exec h.state).1) (op.exec h.state).2) := by
  subst isCheck
  have effects : ∀ key, writes (rkEffect key) ⟨tid, _, (.ok ((Op.checkAndMutateRow call.operation.row
      (colHasNonempty "effect_key") [] [set "effect_key" call.key, set "ts" (iv call.ts)]).exec h.state).1 : Reply _)⟩ = false :=
    fun key => by simp [writes, row_ne_rkEffect]
  -- only a call of the same operation touches the pointer row
  by_cases same : call.operation.row = o.row
  · obtain rfl := separate.rows tid call serves keyed same
    have seen := separate.seen tid call serves rfl
    -- the predicate asks whether the row names an effect, as its reader will
    have decided : (colHasNonempty "effect_key").accepts (h.state.cells call.operation.row) ↔
        pointer (h.state.read call.operation.row) ≠ "" := by
      have names : pointer (h.state.read call.operation.row) = gs (h.state.cells call.operation.row) "effect_key" := by
        unfold pointer Contents.cells
        cases h.state.read call.operation.row <;> rfl
      rw [names]
      refine accepts_iff_named _ fun value found some_ => ?_
      have isNamed : pointer (h.state.read call.operation.row) = value := by rw [names, gs, found, Option.getD_some]
      obtain ⟨tid', call', serves', own, key⟩ := pointed.served (isNamed ▸ some_)
      rw [← isNamed, ← key]
      exact separate.seen tid' call' serves' own
    cases matched : (colHasNonempty "effect_key").accepts (h.state.cells call.operation.row) with
    | true =>
      refine pointed.push_same answers ?_ effects (fun key => ?_) fun _ => decided.mp matched
      · -- the row was named: nothing is written
        simp only [Op.exec, matched, Op.taken, if_pos]
        exact Contents.read_mutate_nil _ _ _
      · simp [claims, Op.exec, matched]
    | false =>
      -- the row was free: the call puts its own key there
      have unnamed : pointer (h.state.read call.operation.row) = "" := by
        by_contra isNamed
        cases matched.symm.trans (decided.mpr isNamed)
      have some_ : call.key ≠ "" := by
        rintro empty
        rw [empty] at seen
        cases seen
      have written : pointer (((Op.checkAndMutateRow call.operation.row (colHasNonempty "effect_key") []
          [set "effect_key" call.key, set "ts" (iv call.ts)]).exec h.state).2.read call.operation.row) = call.key := by
        simp only [Op.exec, matched, Op.taken, Bool.false_eq_true, if_false]
        have left : Mutation.applyAll [set "effect_key" call.key, set "ts" (iv call.ts)]
            (h.state.cells call.operation.row) ≠ [] := List.cons_ne_nil _ _
        rw [Contents.read_mutate_self left]
        simp [pointer, set, Mutation.apply, gs]
      have others : ∀ key, ((Op.checkAndMutateRow call.operation.row (colHasNonempty "effect_key") []
          [set "effect_key" call.key, set "ts" (iv call.ts)]).exec h.state).2.read (rkEffect key) =
            h.state.read (rkEffect key) := fun key => read_of_not_writes answers (effects key)
      refine pointed.push answers (fun isNamed => absurd unnamed isNamed) (fun key isClaim => ?_) (fun isLost => ?_)
        (fun _ _ => ⟨tid, call, serves, rfl, written.symm⟩) ?_ ?_ ?_
      · have key : call.key = key := by
          simpa [claims, Op.exec, matched, pointer, set, Mutation.apply, gs] using isClaim
        exact key ▸ ⟨some_, written⟩
      · simp [loses, Op.exec, matched] at isLost
      · exact fun key m found describes => .inl ⟨m, others key ▸ found, describes⟩
      · exact fun tid call serves own m found => pointed.own tid call serves own m (others _ ▸ found)
      · rintro key (isWrite | found)
        · cases (effects key).symm.trans isWrite
        · rwa [others]
  · refine pointed.push_same answers (Op.read_check_ne same) effects (fun key => ?_) fun isLost => ?_
    · exact (not_of_other same _ key).1
    · rw [(not_of_other same _ "").2] at isLost
      cases isLost

theorem Pointed.create (pointed : Pointed o calls h) (separate : Separate o calls) (looked : Logged (Found o calls) h.log)
    (keyed : o.businessKey ≠ "") (serves : calls tid = some call) {seq : Int}
    (entitled : call.operation.businessKey ≠ "" → Entitled call tid h.log)
    (answers : (effectStore scopesOf).Answers (.mutateRow (rkEffect call.key) (newEffect call.request seq call.ts)) h.state
      (.ok ()) (h.state.mutate (rkEffect call.key) (newEffect call.request seq call.ts))) :
    Pointed o calls (h.push tid (.mutateRow (rkEffect call.key) (newEffect call.request seq call.ts)) (.ok ())
      (h.state.mutate (rkEffect call.key) (newEffect call.request seq call.ts))) := by
  have left : ∀ m, Mutation.applyAll (newEffect call.request seq call.ts) m ≠ [] := fun m => by
    simp [newEffect, set, Mutation.apply, RowMap.set]
  have row : (h.state.mutate (rkEffect call.key) (newEffect call.request seq call.ts)).read o.row = h.state.read o.row :=
    Contents.read_mutate_ne _ _ (row_ne_rkEffect o call.key).symm
  have others : ∀ {key}, key ≠ call.key →
      (h.state.mutate (rkEffect call.key) (newEffect call.request seq call.ts)).read (rkEffect key) =
        h.state.read (rkEffect key) := fun differs =>
    Contents.read_mutate_ne _ _ fun same => differs (rkEffect_injective same).symm
  refine pointed.push answers (fun _ => by rw [row]) (fun _ isClaim => by cases isClaim)
    (fun isLost => by cases isLost) (fun unnamed isNamed => absurd (row ▸ unnamed) isNamed) ?_ ?_ ?_
  · intro key m found describes
    by_cases own : key = call.key
    · subst own
      rw [Contents.read_mutate_self (left _)] at found
      rw [← Option.some.inj found, describes_newEffect] at describes
      have names := pointer_of_entitled pointed looked serves describes (entitled (describes ▸ keyed))
      refine .inr ⟨fun empty => ?_, row ▸ names⟩
      have seen := separate.seen tid call serves describes
      rw [empty] at seen
      cases seen
    · exact .inl ⟨m, others own ▸ found, describes⟩
  · intro tid' call' serves' own' m found
    by_cases own : call'.key = call.key
    · rw [own, Contents.read_mutate_self (left _)] at found
      rw [← Option.some.inj found, describes_newEffect]
      exact separate.keys tid' tid call' call serves' serves own own'
    · exact pointed.own tid' call' serves' own' m (others own ▸ found)
  · rintro key either
    by_cases own : key = call.key
    · subst own
      exact ⟨_, Contents.read_mutate_self (left _)⟩
    · rw [others own]
      refine either.resolve_left fun isWrite => own (rkEffect_injective (of_decide_eq_true isWrite)).symm

end Steps

/-! ## One effect -/

/-- The key of the effect that thread `tid` was returned for the operation. -/
def begun (o : Operation) (c : EffectConfig) (tid : Nat) : Option String :=
  match c.pool[tid]? with
  | some ⟨call, .ret (.ok record)⟩ => if call.operation = o then some record.idempotencyKey else none
  | _ => none

/-- There is one effect of the operation at most, and all who begin it are returned that. -/
def OneEffect (o : Operation) (c : EffectConfig) : Prop :=
  ∃ key, (∀ other m, c.state.read (rkEffect other) = some m → o.describes m → other = key) ∧
    ∀ tid other, begun o c tid = some other → other = key ∧ ∃ m, c.state.read (rkEffect key) = some m ∧ o.describes m

/-- Nobody has begun the operation. -/
structure Unclaimed (o : Operation) (calls : Nat → Option Call) (table : Contents) : Prop where
  row : pointer (table.read o.row) = ""
  effects : ∀ key m, table.read (rkEffect key) = some m → ¬ o.describes m
  own : ∀ tid call, calls tid = some call → call.operation = o → table.read (rkEffect call.key) = none

section OneEffect

variable {scopesOf : String → List String} {o : Operation} {calls : Nat → Option Call} {tid : Nat} {call : Call}
  {h : BigtableHist} {op : Op} {table : Contents} {choices : List (Choice Call)}

theorem Pointed.exec (pointed : Pointed o calls h) (separate : Separate o calls) (looked : Logged (Found o calls) h.log)
    (keyed : o.businessKey ≠ "") (serves : calls tid = some call) (step : Step tid call h op)
    (answers : (effectStore scopesOf).Answers op h.state (.ok (op.exec h.state).1) (op.exec h.state).2) :
    Pointed o calls (h.push tid op (.ok (op.exec h.state).1) (op.exec h.state).2) := by
  cases step with
  | spare spares =>
    obtain ⟨row, effects⟩ := not_writes_of_spares o tid spares (.ok (op.exec h.state).1)
    refine pointed.push_same answers (read_of_not_writes answers row) effects (fun key => ?_) fun isLost => ?_
    · cases op with
      | checkAndMutateRow => exact spares.elim
      | _ => rfl
    · cases op with
      | checkAndMutateRow => exact spares.elim
      | _ => cases isLost
  | check isKeyed => exact pointed.check separate serves isKeyed rfl answers
  | create entitled => exact pointed.create separate looked keyed serves entitled answers

theorem Pointed.initial (unclaimed : Unclaimed o calls table) : Pointed o calls (quiet table).toHist where
  claimed key isClaim := by simp [quiet] at isClaim
  told event member := by simp [quiet] at member
  lost isLost := by simp [quiet] at isLost
  unclaimed := trivial
  served isNamed := absurd unclaimed.row isNamed
  rows key m found describes := absurd describes (unclaimed.effects key m found)
  own tid call serves own m found := by cases (unclaimed.own tid call serves own).symm.trans found
  kept key isShown := by simp [quiet] at isShown

/-- What a call was returned is the effect that the row points to. -/
theorem Pointed.of_given (pointed : Pointed o calls h) (serves : calls tid = some call) (own : call.operation = o) {key : String}
    (given : Given call key h.log) :
    key = pointer (h.state.read o.row) ∧ ∃ m, h.state.read (rkEffect (pointer (h.state.read o.row))) = some m ∧
      o.describes m := by
  obtain ⟨m, found⟩ := pointed.kept key given.shown
  have describes : o.describes m := by
    rcases given.named with rfl | ⟨-, some_, event, member, row, read, rfl⟩
    · exact pointed.own tid call serves own m found
    · rw [own] at read
      have told := pointed.told event member row read some_
      obtain ⟨tid', call', serves', own', same⟩ := pointed.served (told ▸ some_)
      rw [told] at same
      exact pointed.own tid' call' serves' own' m (same ▸ found)
  have names := (pointed.rows key m found describes).2
  rw [names]
  exact ⟨rfl, m, found, describes⟩

/-- **One business operation, one effect**, in every interleaving, with whatever crashes and failures, in which whoever
    loses the row finds the effect of the winner written. -/
theorem one_operation_one_effect (scopesOf : String → List String) (o : Operation) (table : Contents)
    (choices : List (Choice Call)) (keyed : o.businessKey ≠ "")
    (unclaimed : Unclaimed o ((effectStore scopesOf).run (quiet table) choices).callOf table)
    (separate : Separate o ((effectStore scopesOf).run (quiet table) choices).callOf)
    (awaited : (effectStore scopesOf).Along (System.Executes fun tid call h op => Awaited o tid call h op) (quiet table)
      choices) :
    OneEffect o ((effectStore scopesOf).run (quiet table) choices) := by
  have permitted : (effectStore scopesOf).Along (System.Permits (fun _ => True) fun _ _ _ _ => True) (quiet table) choices :=
    System.along_free _ _ _
  have safe := System.run_safe effects_compose (quiet_owned table) (System.poolSafe_of_empty rfl) permitted
  -- the invariant of the pointer row holds of the whole run
  obtain ⟨pointed, -⟩ : Pointed o ((effectStore scopesOf).run (quiet table) choices).callOf
        ((effectStore scopesOf).run (quiet table) choices).toHist ∧
      Logged (Found o ((effectStore scopesOf).run (quiet table) choices).callOf)
        ((effectStore scopesOf).run (quiet table) choices).log := by
    refine System.run_executed (I := fun h => Pointed o ((effectStore scopesOf).run (quiet table) choices).callOf h ∧
      Logged (Found o ((effectStore scopesOf).run (quiet table) choices).callOf) h.log) effects_compose ?_ ?_
      (quiet_owned table) (System.poolSafe_of_empty rfl) ⟨.initial unclaimed, trivial⟩ permitted awaited
    · rintro tid call h op serves isAwaited step ⟨pointed, looked⟩
      exact ⟨pointed.exec separate looked keyed serves step (.exec (S := effectStore scopesOf)),
        found_of_awaited serves isAwaited, looked⟩
    · rintro tid h op res failed ⟨pointed, looked⟩
      exact ⟨pointed.fault failed, found_of_fault failed, looked⟩
  refine ⟨pointer (((effectStore scopesOf).run (quiet table) choices).state.read o.row), fun other m found describes => ?_,
    fun tid other isBegun => ?_⟩
  · -- every effect of the operation is the one the row names
    exact (pointed.rows other m found describes).2.symm
  · unfold begun at isBegun
    split at isBegun
    next call record returned =>
      split at isBegun
      next own =>
        obtain rfl := Option.some.inj isBegun
        have serves : ((effectStore scopesOf).run (quiet table) choices).callOf tid = some call := by
          rw [Config.callOf, returned]
          rfl
        exact pointed.of_given serves own (safe.returned returned record rfl)
      next => cases isBegun
    next => cases isBegun

end OneEffect

/-! ## Two runs -/

/-- A run that pays an invoice. -/
def pay (runId : String) : Call where
  request := { runId, toolName := "pay", connector := "bank", businessKey := "invoice-7" }
  ts := 5

def invoice : Operation := ⟨"bank", "invoice-7"⟩

def serveEffect (tid : Nat) (call : Call) (steps : Nat := 9) : List (Choice Call) :=
  .spawn call :: List.replicate steps (.exec tid)

abbrev payRun (choices : List (Choice Call)) : EffectConfig := (effectStore fun _ => []).run (quiet .empty) choices

theorem unclaimed_empty (o : Operation) (calls : Nat → Option Call) : Unclaimed o calls .empty :=
  ⟨rfl, fun _ _ found => (nomatch found), fun _ _ _ _ => rfl⟩

/-- Calls for one operation tell it from others by themselves. -/
theorem separate_of_single {o : Operation} {c : EffectConfig} (single : ∀ thread ∈ c.pool, thread.call.operation = o)
    (seen : ∀ thread ∈ c.pool, ValueFilter.nonempty.accepts thread.call.key) : Separate o c.callOf := by
  have serves : ∀ tid call, c.callOf tid = some call → ∃ thread ∈ c.pool, thread.call = call := by
    intro tid call serves
    obtain ⟨thread, alive, same⟩ := Option.map_eq_some_iff.mp serves
    exact ⟨thread, List.mem_of_getElem? alive, same⟩
  refine ⟨fun tid tid' call call' _ serves' _ _ => ?_, fun tid call serves' _ _ => ?_, fun tid call serves' _ => ?_⟩
  · obtain ⟨thread, member, rfl⟩ := serves tid' call' serves'
    exact single thread member
  · obtain ⟨thread, member, rfl⟩ := serves tid call serves'
    exact single thread member
  · obtain ⟨thread, member, rfl⟩ := serves tid call serves'
    exact seen thread member

/-- The second run looks when the first has written its effect. -/
def inTurn : List (Choice Call) := serveEffect 0 (pay "a") ++ serveEffect 1 (pay "b")

theorem runs_share_an_effect :
    begun invoice (payRun inTurn) 1 = some "a/decision-0/pay/0" ∧ OneEffect invoice (payRun inTurn) :=
  ⟨by decide +kernel, one_operation_one_effect (fun _ => []) invoice .empty inTurn (by decide) (unclaimed_empty _ _)
    (separate_of_single (by decide +kernel) (by decide +kernel)) (by decide +kernel)⟩

/-- The first run has claimed the row, and the second looks for the effect before it is written. -/
def rivals : List (Choice Call) := serveEffect 0 (pay "a") 3 ++ serveEffect 1 (pay "b") 12 ++ List.replicate 6 (.exec 0)

/-- The first run stops when it has claimed the row. -/
def crashed : List (Choice Call) := serveEffect 0 (pay "a") 3 ++ serveEffect 1 (pay "b") 12 ++ serveEffect 2 (pay "c") 12

/-- Both runs get an effect of their own, and each would pay; and so do all that come after the crash. -/
theorem two_effects : ¬ OneEffect invoice (payRun rivals) ∧ ¬ OneEffect invoice (payRun crashed) := by
  constructor
  · rintro ⟨key, -, given⟩
    have first := (given 0 "a/decision-0/pay/0" (by decide +kernel)).1
    have second := (given 1 "b/decision-0/pay/0" (by decide +kernel)).1
    exact absurd (first.trans second.symm) (by decide)
  · rintro ⟨key, -, given⟩
    have first := (given 1 "b/decision-0/pay/0" (by decide +kernel)).1
    have second := (given 2 "c/decision-0/pay/0" (by decide +kernel)).1
    exact absurd (first.trans second.symm) (by decide)

end Tape.BigtableRunStore.BusinessKey
