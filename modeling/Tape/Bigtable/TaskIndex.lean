import Tape.Bigtable.Registry
import Tape.Bigtable.Scans

/-! # One task for an entry

`create_task` looks in an index row for the task that a journal entry has triggered already.  If it finds none there,
it writes a task row, has the index row name it, and puts it on the list of the pending tasks, where `claim_tasks`
finds it.  Two matchers can both find no task, and the second of them takes the index row from the first; and the
retry of one that stopped before the last write finds a task that is on no list.
-/

namespace Tape.BigtableRunStore.TaskIndex

open Interleave Bigtable Segments

/-! ## Triggers -/

/-- What there is to be one task for: an entry of the journal, and a shard of a reaction. -/
structure Trigger where
  reactionId : String
  shard : Int
  sourceGlobalSeq : Int
  deriving DecidableEq

def Trigger.Ranged (e : Trigger) : Prop := inI32 e.shard ∧ inI64 e.sourceGlobalSeq

instance (e : Trigger) : Decidable e.Ranged := inferInstanceAs (Decidable (_ ∧ _))

def Trigger.idx (e : Trigger) : String := rkTaskidx e.reactionId e.shard e.sourceGlobalSeq

def triggerOf (t : TaskRecord) : Trigger := ⟨t.reactionId, t.shard, t.sourceGlobalSeq⟩

/-- The id that a call gives its task. -/
def idOf (t : TaskRecord) (newId : String) : String := if t.taskId = "" then newId else t.taskId

/-- What `create_task` writes of a new task. -/
def newTask (t : TaskRecord) (created : Int) : List Mutation :=
  [set "reaction_id" t.reactionId, set "shard" (iv t.shard), set "source_run_id" t.sourceRunId,
    set "source_global_seq" (iv t.sourceGlobalSeq), set "subject" t.subject, set "payload_json" t.payloadJson,
    set "status" (iv TaskStatus.pending.code), set "attempts" (iv 0), set "next_attempt_at_ms" (iv 0),
    set "lease_owner" "", set "lease_expires_at_ms" (iv 0), set "last_error" "", set "created_at_ms" (iv created),
    set "trace_id" t.traceId, set "parent_span_id" t.parentSpanId]

/-- And of the row that lists it. -/
def newPending (t : TaskRecord) (taskId : String) (created : Int) : List Mutation :=
  [set "task_id" taskId, set "subject" t.subject, set "created_at_ms" (iv created)]

/-- The columns of a trigger. -/
def triggerColumns : List String := ["reaction_id", "shard", "source_global_seq"]

/-- The trigger of a task row. -/
def triggerIn (m : RowMap) : Trigger := triggerOf (taskFrom "" m)

section Keys

variable {e e' : Trigger} {t : TaskRecord} {m : RowMap} {mutations : List Mutation} {created : Int} {taskId : String}

theorem asI32_of_range {n : Int} (bound : inI32 n) : asI32 n = n := by
  obtain ⟨low, high⟩ := bound
  rw [asI32, Int.bmod_def]
  omega

theorem triggerIn_newTask (ranged : (triggerOf t).Ranged) (m : RowMap) :
    triggerIn (Mutation.applyAll (newTask t created) m) = triggerOf t := by
  obtain ⟨shard, seq⟩ := ranged
  have shard_ : gi (Mutation.applyAll (newTask t created) m) "shard" = t.shard :=
    gi_of_get? (by simp [newTask, set, Mutation.apply]) (inI64_of_inI32 shard)
  have seq_ : gi (Mutation.applyAll (newTask t created) m) "source_global_seq" = t.sourceGlobalSeq :=
    gi_of_get? (by simp [newTask, set, Mutation.apply]) seq
  have reaction : gs (Mutation.applyAll (newTask t created) m) "reaction_id" = t.reactionId := by
    simp [gs, newTask, set, Mutation.apply]
  have same : asI32 t.shard = t.shard := asI32_of_range shard
  simp only [triggerIn, triggerOf, taskFrom, reaction, shard_, seq_, same]

theorem triggerIn_applyAll (spared : triggerColumns.all fun column => mutations.all (Mutation.spares column)) (m : RowMap) :
    triggerIn (Mutation.applyAll mutations m) = triggerIn m := by
  have kept := List.all_eq_true.mp spared
  simp only [triggerIn, triggerOf, taskFrom, gs, gi, Mutation.get?_applyAll_of_spares (kept "reaction_id" (by decide)),
    Mutation.get?_applyAll_of_spares (kept "shard" (by decide)),
    Mutation.get?_applyAll_of_spares (kept "source_global_seq" (by decide))]

theorem segments_taskidx (reactionId : String) (shard : I32) (seq : I64) :
    (RowId.taskidx reactionId shard seq).segments =
      reactionId.toList.splitOn '#' ++ [(pad10 shard).toList, (pad20 seq).toList] := by
  simp [RowId.segments, RowId.fields, RowId.ids, RowId.numbers, pad10, pad20,
    List.splitOn_eq_singleton (hash_not_mem_pad 10 shard), List.splitOn_eq_singleton (hash_not_mem_pad 20 seq)]

/-- The numbers are the last segments of a key, whatever the reaction is called. -/
theorem idx_injective (ranged : e.Ranged) (ranged' : e'.Ranged) (same : e.idx = e'.idx) : e = e' := by
  have keys : (RowId.taskidx e.reactionId ⟨e.shard, ranged.1⟩ ⟨e.sourceGlobalSeq, ranged.2⟩).key =
      (RowId.taskidx e'.reactionId ⟨e'.shard, ranged'.1⟩ ⟨e'.sourceGlobalSeq, ranged'.2⟩).key := same
  have segments := (RowId.key_eq_iff.mp keys).2
  rw [segments_taskidx, segments_taskidx] at segments
  obtain ⟨reaction, numbers⟩ := List.append_inj' segments rfl
  simp only [List.cons.injEq, String.toList_inj, and_true] at numbers
  have shards := pad_injective (inI64_of_inI32 ranged.1) (inI64_of_inI32 ranged'.1) numbers.1
  have seqs := pad_injective ranged.2 ranged'.2 numbers.2
  cases e
  cases e'
  exact Trigger.mk.injEq .. ▸ ⟨String.toList_inj.mp (splitOn_injective reaction), shards, seqs⟩

/-- The id is the last segment of a key, if it is one segment. -/
theorem rkPending_injective {r r' : String} {s s' : Int} {id id' : String} (plain : '#' ∉ id.toList)
    (plain' : '#' ∉ id'.toList) (same : rkPending r s id = rkPending r' s' id') : id = id' := by
  have last : ∀ {r s id}, '#' ∉ id.toList → lastSegment '#' (rkPending r s id).toList = id.toList := by
    intro r s id plain
    have shape : (rkPending r s id).toList = ("pending#" ++ r ++ "#" ++ pad10 s).toList ++ '#' :: id.toList := by
      simp [rkPending]
    rw [shape, lastSegment_append plain]
  have segments := last (r := r) (s := s) plain
  rw [same, last plain'] at segments
  exact String.toList_inj.mp segments.symm

end Keys

/-! ## What the calls do -/

/-- The tasks of a trigger. -/
def tasks (e : Trigger) : Registry where
  index := e.idx
  column := "task_id"
  object := rkTask
  describes m := triggerIn m = e
  makes mutations := ((Mutation.applyAll mutations []).get? "reaction_id").isSome &&
    triggerIn (Mutation.applyAll mutations []) = e
  object_injective _ _ same := TaskLease.rkTask_injective same
  object_ne_index id same := by
    have first := congrArg String.toList same
    simp [rkTask, Trigger.idx, rkTaskidx] at first

/-- A check of the task was won: it was claimed, or completed or given back by who had claimed it. -/
def won (taskId : String) : BigtableEvent → Bool
  | ⟨_, .checkAndMutateRow key _ trueMutations falseMutations, .ok matched⟩ =>
    key = rkTask taskId && !(Op.taken trueMutations falseMutations matched).isEmpty
  | _ => false

/-- What an operation of a call can be. -/
inductive Step (re2 : Re2) (tid : Nat) : TaskCall → BigtableHist → Op → Prop
  | look {call : TaskCall} {h : BigtableHist} (key : String) : Step re2 tid call h (.readRow key)
  | list {call : TaskCall} {h : BigtableHist} (start : String) (limit : Nat) : Step re2 tid call h (.readPrefix start limit)
  | make {t : TaskRecord} {newId : String} {clock created : Int} {h : BigtableHist}
      (missed : (tasks (triggerOf t)).Missed tid h.log) :
      Step re2 tid (.createTask t newId clock) h (.mutateRow (rkTask (idOf t newId)) (newTask t created))
  | name {t : TaskRecord} {newId : String} {clock : Int} {h : BigtableHist}
      (made : ∃ event ∈ h.log, event.tid = tid ∧ (tasks (triggerOf t)).created (idOf t newId) event)
      (missed : (tasks (triggerOf t)).Missed tid h.log) :
      Step re2 tid (.createTask t newId clock) h (.mutateRow (triggerOf t).idx [set "task_id" (idOf t newId)])
  | pend {t : TaskRecord} {newId : String} {clock created : Int} {h : BigtableHist}
      (named : ∃ event ∈ h.log, (tasks (triggerOf t)).names (idOf t newId) event) :
      Step re2 tid (.createTask t newId clock) h
        (.mutateRow (rkPending t.reactionId t.shard (idOf t newId)) (newPending t (idOf t newId) created))
  | claim {reactionId : String} {shard : Int} {owner : String} {leaseMs max nowMs clock : Int} {h : BigtableHist}
      (taskId : String) (leaseExp : Int) (m : RowMap) :
      Step re2 tid (.claimTasks reactionId shard owner leaseMs max nowMs clock) h (claimTaskOp re2 taskId owner leaseExp m)
  | settle {call : TaskCall} {taskId : String} {h : BigtableHist} {predicate : RowFilter} {mutations : List Mutation}
      (settles : TaskLease.settles? call = some taskId)
      (spared : triggerColumns.all fun column => mutations.all (Mutation.spares column)) :
      Step re2 tid call h (.checkAndMutateRow (rkTask taskId) predicate mutations [])
  | unpend {call : TaskCall} {taskId reactionId : String} {shard : Int} {h : BigtableHist}
      (settles : TaskLease.settles? call = some taskId) (settled : ∃ event ∈ h.log, won taskId event) :
      Step re2 tid call h (.mutateRow (rkPending reactionId shard taskId) [.deleteFromRow])

/-- Ids are one segment of a key, and numbers are what they are typed as. -/
def Typed : TaskCall → Prop
  | .createTask t newId _ => idOf t newId ≠ "" ∧ '#' ∉ (idOf t newId).toList ∧ (triggerOf t).Ranged
  | .completeTask taskId .. | .nackTask taskId .. => '#' ∉ taskId.toList
  | .claimTasks .. => True

instance : (call : TaskCall) → Decidable (Typed call)
  | .createTask .. => inferInstanceAs (Decidable (_ ∧ _ ∧ _))
  | .completeTask .. | .nackTask .. => inferInstanceAs (Decidable (_ ∉ _))
  | .claimTasks .. => isTrue trivial

section Steps

variable {re2 : Re2} {e : Trigger} {tid : Nat} {call : TaskCall} {h : BigtableHist} {op : Op} {mutations : List Mutation}

@[simp] theorem tasks_index (e : Trigger) : (tasks e).index = e.idx := rfl

theorem rkTask_ne_idx (taskId : String) (e : Trigger) : rkTask taskId ≠ e.idx := (tasks e).object_ne_index taskId

theorem rkPending_ne_idx (reactionId : String) (shard : Int) (taskId : String) (e : Trigger) :
    rkPending reactionId shard taskId ≠ e.idx := by
  intro same
  have first := congrArg String.toList same
  simp [rkPending, Trigger.idx, rkTaskidx] at first

theorem rkPending_ne_rkTask (reactionId : String) (shard : Int) (taskId other : String) :
    rkPending reactionId shard taskId ≠ rkTask other := by
  intro same
  have first := congrArg String.toList same
  simp [rkPending, rkTask] at first

theorem keeps_of_spared (spared : triggerColumns.all fun column => mutations.all (Mutation.spares column)) :
    (tasks e).Keeps mutations := by
  intro m some_
  refine ⟨Mutation.applyAll_ne_nil (List.all_eq_true.mp spared "reaction_id" (by decide)) some_, fun describes => ?_⟩
  simpa only [tasks, triggerIn_applyAll spared] using describes

/-- Of a pending row nothing is a task. -/
theorem spares_pending {reactionId taskId : String} {shard : Int}
    (nothing : (Mutation.applyAll mutations []).get? "reaction_id" = none) :
    (tasks e).Spares (.mutateRow (rkPending reactionId shard taskId) mutations) :=
  ⟨rkPending_ne_idx _ _ _ _, by simp [tasks, nothing], fun other same => absurd same (rkPending_ne_rkTask _ _ _ other)⟩

theorem spares_check {taskId : String} {predicate : RowFilter}
    (spared : triggerColumns.all fun column => mutations.all (Mutation.spares column)) :
    (tasks e).Spares (.checkAndMutateRow (rkTask taskId) predicate mutations []) :=
  ⟨rkTask_ne_idx _ _, fun _ _ => ⟨keeps_of_spared spared, rfl⟩⟩

theorem makes_newTask {t : TaskRecord} {created : Int} (ranged : (triggerOf t).Ranged) :
    (tasks e).makes (newTask t created) = decide (triggerOf t = e) := by
  have named : ((Mutation.applyAll (newTask t created) []).get? "reaction_id").isSome := by
    simp [newTask, set, Mutation.apply]
  simp only [tasks, triggerIn_newTask ranged, named, Bool.true_and]

theorem newTask_ne_nil {t : TaskRecord} {created : Int} (m : RowMap) : Mutation.applyAll (newTask t created) m ≠ [] := by
  simp [newTask, set, Mutation.apply, RowMap.set]

/-- For the tasks of one trigger, the calls are such as find or create an object. -/
theorem steps_of_step (ranged : e.Ranged) (typed : Typed call) (step : Step re2 tid call h op) : (tasks e).Steps tid h op := by
  cases step with
  | look | list => exact .spare trivial
  | @make t newId clock created _ missed =>
    by_cases own : triggerOf t = e
    · subst own
      exact .create (r := tasks (triggerOf t)) (by simp [makes_newTask typed.2.2]) newTask_ne_nil missed
    · refine .spare ⟨rkTask_ne_idx _ _, by simp [makes_newTask typed.2.2, own], fun _ _ => ⟨?_, fun m some_ => ⟨?_, ?_⟩⟩⟩
      · simp [tasks, triggerIn_newTask typed.2.2, own]
      · exact newTask_ne_nil m
      · simp [tasks, triggerIn_newTask typed.2.2, own]
  | @name t newId clock _ made missed =>
    by_cases own : triggerOf t = e
    · subst own
      exact .name (r := tasks (triggerOf t)) typed.1 made missed
    · refine .spare ⟨fun same => own (idx_injective typed.2.2 ranged same), rfl, fun other same => ?_⟩
      exact absurd same.symm (rkTask_ne_idx other _)
  | pend => exact .spare (spares_pending rfl)
  | claim => exact .spare (spares_check rfl)
  | settle _ spared => exact .spare (spares_check spared)
  | unpend => exact .spare (spares_pending rfl)

end Steps

/-! ## The programs -/

/-- The task was put on the list of the pending tasks of the trigger's shard. -/
def pends (e : Trigger) (taskId : String) : BigtableEvent → Bool
  | ⟨_, .mutateRow key mutations, .ok _⟩ =>
    key = rkPending e.reactionId e.shard taskId && gs (Mutation.applyAll mutations []) "task_id" = taskId
  | _ => false

def isPending (key : String) : Bool := "pending#".toList.isPrefixOf key.toList

/-- The rows of pending tasks that a scan has returned. -/
def listed : BigtableEvent → List (String × RowMap)
  | ⟨_, .readPrefix _ _, .ok rows⟩ => rows.filter fun row => isPending row.1
  | _ => []

/-- The thread has looked up the task that the index row names. -/
def LookedUp (e : Trigger) (tid : Nat) (taskId : String) (log : List BigtableEvent) : Prop :=
  ∃ newer res older row, log = newer ++ ⟨tid, .readRow (rkTask taskId), .ok res⟩ :: older ∧
    lastRead e.idx tid older = some row ∧ (tasks e).named row = taskId ∧ taskId ≠ ""

/-- The task was on a list, and was read. -/
def Handed (task : TaskRecord) (log : List BigtableEvent) : Prop :=
  (∃ event ∈ log, ∃ row ∈ listed event, gs row.2 "task_id" = task.taskId) ∧
    ∃ event ∈ log, ∃ m, readOf (rkTask task.taskId) event = some (some m) ∧ triggerIn m = triggerOf task

/-- What a `create_task` that returned the task leaves behind. -/
def Matched (e : Trigger) (tid : Nat) (taskId : String) (log : List BigtableEvent) : Prop :=
  (∃ event ∈ log, (tasks e).Finds taskId event) ∧ ((∃ event ∈ log, pends e taskId event) ∨ LookedUp e tid taskId log)

def taskPost (tid : Nat) : (call : TaskCall) → call.Out → BigtableHist → Prop
  | .createTask t _ _, .ok task, h => Matched (triggerOf t) tid task.taskId h.log
  | .claimTasks .., .ok out, h => ∀ task ∈ out, Handed task h.log
  | _, _, _ => True

abbrev taskContract (re2 : Re2) (tid : Nat) (call : TaskCall) : Contract Contents Op Reply :=
  (taskStore re2).tracked (fun _ _ _ _ => True) (Step re2) tid call

/-- `create_task` when there is no task yet. -/
def create (t : TaskRecord) (taskId : String) (clock : Int) : BigtableM TaskRecord := do
  let created := if 0 < t.createdAtMs then t.createdAtMs else clock
  writeRow (rkTask taskId) (newTask t created)
  writeRow (triggerOf t).idx [set "task_id" taskId]
  writeRow (rkPending t.reactionId t.shard taskId) (newPending t taskId created)
  match ← readRow (rkTask taskId) with
  | none => throw (.msg "create_task: row vanished after write")
  | some m => return taskFrom taskId m

theorem createTask_eq (t : TaskRecord) (newId : String) (clock : Int) : createTask t newId clock = (do
    let known ← createTask.indexed (← readRow (triggerOf t).idx)
    match known with
    | some existing => return existing
    | none => create t (idOf t newId) clock) := rfl

section Programs

variable {re2 : Re2} {tid : Nat} {h : BigtableHist} {t : TaskRecord} {newId : String} {clock : Int}

theorem safe_create (typed : Typed (.createTask t newId clock)) (missed : (tasks (triggerOf t)).Missed tid h.log) :
    (taskStore re2).Safe (taskContract re2 tid (.createTask t newId clock)) tid (taskPost tid (.createTask t newId clock))
      (create t (idOf t newId) clock).run h := by
  unfold create
  refine safe_perform (fun _ _ => trivial) ?_ ?_
  · exact fun h₁ foreign₁ _ => .make (missed.later (lastRead_foreign foreign₁) foreign₁.suffix)
  intro h₁ _ state₁ foreign₁ _ _
  generalize pushed : h₁.push tid (.mutateRow (rkTask (idOf t newId)) _) (.ok _) state₁ = h₁'
  have missed₁ : (tasks (triggerOf t)).Missed tid h₁'.log := by
    rw [← pushed]
    exact missed.later ((lastRead_push_of_unread rfl).trans (lastRead_foreign foreign₁))
      (foreign₁.suffix.trans (List.suffix_cons _ _))
  have made : ∃ event ∈ h₁'.log, event.tid = tid ∧ (tasks (triggerOf t)).created (idOf t newId) event := by
    rw [← pushed]
    refine ⟨_, List.mem_cons_self, rfl, ?_⟩
    simp only [Registry.created, makes_newTask typed.2.2]
    simp [tasks]
  refine safe_perform (fun _ _ => trivial) ?_ ?_
  · intro h₂ foreign₂ _
    obtain ⟨event, member, facts⟩ := made
    exact .name ⟨event, foreign₂.mem member, facts⟩ (missed₁.later (lastRead_foreign foreign₂) foreign₂.suffix)
  intro h₂ _ state₂ foreign₂ _ _
  have named : (tasks (triggerOf t)).names (idOf t newId)
      (⟨tid, .mutateRow (triggerOf t).idx [set "task_id" (idOf t newId)], .ok ()⟩ : BigtableEvent) := by
    simp [Registry.names, set, Mutation.apply, Registry.named, tasks]
  refine safe_perform (fun _ _ => trivial) ?_ ?_
  · exact fun h₃ foreign₃ _ => .pend ⟨_, foreign₃.mem List.mem_cons_self, named⟩
  intro h₃ _ state₃ foreign₃ _ _
  refine safe_perform (fun _ _ => trivial) (fun _ _ _ => .look _) fun h₄ row state₄ foreign₄ _ _ => ?_
  cases row with
  | none => exact fun _ _ => trivial
  | some m =>
    intro h₅ foreign₅
    refine ⟨⟨_, foreign₅.mem (List.mem_cons_of_mem _ (foreign₄.mem (List.mem_cons_of_mem _ (foreign₃.mem
      List.mem_cons_self)))), .inl named⟩, .inl ⟨_, foreign₅.mem (List.mem_cons_of_mem _ (foreign₄.mem
      List.mem_cons_self)), ?_⟩⟩
    simp [pends, triggerOf, newPending, set, Mutation.apply, gs, taskFrom]

theorem safe_createTask (typed : Typed (.createTask t newId clock)) :
    (taskStore re2).Safe (taskContract re2 tid (.createTask t newId clock)) tid (taskPost tid (.createTask t newId clock))
      (createTask t newId clock).run h := by
  rw [createTask_eq]
  refine safe_perform (fun _ _ => trivial) (fun _ _ _ => .look _) fun h₁ row state foreign _ _ => ?_
  have last : lastRead (triggerOf t).idx tid (h₁.push tid (.readRow (triggerOf t).idx) (.ok row) state).log = some row :=
    lastRead_push_readRow h₁ row state
  have isRead : ∃ own ∈ (h₁.push tid (.readRow (triggerOf t).idx) (.ok row) state).log,
      readOf (triggerOf t).idx own = some row := ⟨_, List.mem_cons_self, readOf_readRow⟩
  generalize h₁.push tid (.readRow (triggerOf t).idx) (.ok row) state = h₁' at last isRead
  refine System.Safe.exceptBind (fun _ _ => trivial) ?_
  cases row with
  | none =>
    intro h₂ foreign₂ known isOk
    cases isOk
    exact safe_create typed ⟨none, (lastRead_foreign foreign₂).trans last, .inl rfl⟩
  | some idx =>
    unfold createTask.indexed
    dsimp only
    split
    next unnamed =>
      intro h₂ foreign₂ known isOk
      cases isOk
      exact safe_create typed ⟨some idx, (lastRead_foreign foreign₂).trans last, .inl unnamed⟩
    next isNamed =>
      refine safe_perform (fun _ _ _ isOk => by cases isOk) (fun _ _ _ => .look _) fun h₂ found state₂ foreign₂ _ _ => ?_
      have last₂ : lastRead (triggerOf t).idx tid h₂.log = some (some idx) := (lastRead_foreign foreign₂).trans last
      intro h₃ foreign₃ known isOk
      cases isOk
      obtain ⟨own, member, read⟩ := isRead
      cases found with
      | none =>
        obtain ⟨newer, grown⟩ := foreign₃.suffix
        refine safe_create typed
          ⟨some idx, ?_, .inr ⟨newer, _, h₂.log, grown.symm, readOf_readRow, own, foreign₂.mem member, read⟩⟩
        rw [tasks_index, lastRead_foreign foreign₃,
          lastRead_push_of_unread (readOf_readRow_ne (rkTask_ne_idx _ _) _), last₂]
      | some m =>
        intro h₄ foreign₄
        obtain ⟨newer, grown⟩ := foreign₃.suffix.trans foreign₄.suffix
        refine ⟨⟨own, ?_, .inr ⟨some idx, read, rfl, isNamed⟩⟩,
          .inr ⟨newer, some m, h₂.log, some idx, grown.symm, last₂, rfl, isNamed⟩⟩
        exact foreign₄.mem (foreign₃.mem (List.mem_cons_of_mem _ (foreign₂.mem member)))

/-- What is handed out so far stays so. -/
theorem Handed.mono {task : TaskRecord} {log log' : List BigtableEvent} (handed : Handed task log) (grown : log <:+ log') :
    Handed task log' := by
  obtain ⟨⟨event, member, facts⟩, event', member', facts'⟩ := handed
  exact ⟨⟨event, grown.mem member, facts⟩, event', grown.mem member', facts'⟩

theorem safe_claimCandidates {reactionId owner : String} {shard leaseMs asked nowMs leaseExp max now : Int}
    (candidates : List (String × RowMap)) {out : List TaskRecord} {h : BigtableHist}
    (isListed : ∀ candidate ∈ candidates, ∃ event ∈ h.log, candidate ∈ listed event)
    (known : ∀ task ∈ out, Handed task h.log) :
    (taskStore re2).Safe (taskContract re2 tid (.claimTasks reactionId shard owner leaseMs asked nowMs clock)) tid
      (taskPost tid (.claimTasks reactionId shard owner leaseMs asked nowMs clock))
      (claimCandidates re2 owner leaseExp max now candidates out).run h := by
  induction candidates generalizing out h with
  | nil => exact fun h' foreign task member => (known task member).mono foreign.suffix
  | cons candidate candidates inductionHypothesis =>
    obtain ⟨key, idx⟩ := candidate
    have further : ∀ {h' : BigtableHist} {out}, h.log <:+ h'.log → (∀ task ∈ out, Handed task h'.log) →
        (taskStore re2).Safe (taskContract re2 tid (.claimTasks reactionId shard owner leaseMs asked nowMs clock)) tid
          (taskPost tid (.claimTasks reactionId shard owner leaseMs asked nowMs clock))
          (claimCandidates re2 owner leaseExp max now candidates out).run h' := by
      intro h' out grown known
      refine inductionHypothesis (fun candidate member => ?_) known
      obtain ⟨event, isLogged, isRow⟩ := isListed candidate (List.mem_cons_of_mem _ member)
      exact ⟨event, grown.mem isLogged, isRow⟩
    unfold claimCandidates
    dsimp only
    split
    next => exact fun h' foreign task member => (known task member).mono foreign.suffix
    next =>
      split
      next => exact further (List.suffix_refl _) known
      next =>
        refine safe_perform (fun _ _ => trivial) (fun _ _ _ => .look _) fun h₁ row state foreign _ _ => ?_
        have grown₁ : h.log <:+ (h₁.push tid (.readRow (rkTask (gs idx "task_id"))) (.ok row) state).log :=
          foreign.suffix.trans (List.suffix_cons _ _)
        generalize h₁.push tid (.readRow (rkTask (gs idx "task_id"))) (.ok row) state = h₁' at grown₁
        have known₁ : ∀ task ∈ out, Handed task h₁'.log := fun task member => (known task member).mono grown₁
        cases row with
        | none => exact further grown₁ known₁
        | some m =>
          dsimp only
          split
          next => exact further grown₁ known₁
          next =>
            refine safe_perform (fun _ _ => trivial) (fun _ _ _ => .claim _ _ _) fun h₂ ok state₂ foreign₂ _ _ => ?_
            have grown₂ : h.log <:+ (h₂.push tid (claimTaskOp re2 (gs idx "task_id") owner leaseExp m) (.ok ok) state₂).log :=
              grown₁.trans (foreign₂.suffix.trans (List.suffix_cons _ _))
            generalize h₂.push tid (claimTaskOp re2 (gs idx "task_id") owner leaseExp m) (.ok ok) state₂ = h₂' at grown₂
            have known₂ : ∀ task ∈ out, Handed task h₂'.log := fun task member => (known task member).mono grown₂
            cases ok with
            | false => exact further grown₂ known₂
            | true =>
              refine safe_perform (fun _ _ => trivial) (fun _ _ _ => .look _) fun h₃ row₃ state₃ foreign₃ _ _ => ?_
              have grown₃ : h.log <:+ (h₃.push tid (.readRow (rkTask (gs idx "task_id"))) (.ok row₃) state₃).log :=
                grown₂.trans (foreign₃.suffix.trans (List.suffix_cons _ _))
              have known₃ := fun task member => (known task member).mono grown₃
              cases row₃ with
              | none => exact further grown₃ known₃
              | some m₂ =>
                refine further grown₃ fun task member => ?_
                rcases List.mem_append.mp member with old | new
                · exact known₃ task old
                · -- it was read last
                  obtain rfl := List.mem_singleton.mp new
                  obtain ⟨event, isLogged, isRow⟩ := isListed _ List.mem_cons_self
                  exact ⟨⟨event, grown₃.mem isLogged, _, isRow, rfl⟩, _, List.mem_cons_self, m₂, readOf_readRow, rfl⟩

theorem pending_start (reactionId : String) (shard : Int) {key : String}
    (within : (Scans.pendingStart reactionId shard).toList.isPrefixOf key.toList) : isPending key := by
  have begins : "pending#".toList <+: (Scans.pendingStart reactionId shard).toList := by
    unfold Scans.pendingStart
    split
    · exact ⟨reactionId.toList ++ ['#'], by simp⟩
    · exact ⟨reactionId.toList ++ '#' :: (pad10 shard).toList ++ ['#'], by simp⟩
  exact List.isPrefixOf_iff_prefix.mpr (begins.trans (List.isPrefixOf_iff_prefix.mp within))

theorem safe_claimTasks {reactionId owner : String} {shard leaseMs asked nowMs : Int} {h : BigtableHist} :
    (taskStore re2).Safe (taskContract re2 tid (.claimTasks reactionId shard owner leaseMs asked nowMs clock)) tid
      (taskPost tid (.claimTasks reactionId shard owner leaseMs asked nowMs clock))
      (claimTasks re2 reactionId shard owner leaseMs asked nowMs clock).run h := by
  unfold claimTasks
  split
  next => exact fun _ _ => trivial
  next =>
    refine safe_perform (fun _ _ => trivial) (fun _ _ _ => .list _ _) fun h₁ rows state foreign _ answers => ?_
    refine safe_claimCandidates rows (fun row member => ⟨_, List.mem_cons_self, List.mem_filter.mpr ⟨member, ?_⟩⟩)
      fun task member => (List.not_mem_nil member).elim
    rcases machine_answers answers with ⟨scanned, -⟩ | ⟨failed, -⟩
    · obtain rfl := Except.ok.inj scanned
      have isRow : row ∈ Scans.firstRows h₁.state (Scans.pendingStart reactionId shard)
          (Max.max ((if 0 < asked then asked else 16) * 8) 64).toNat := member
      exact pending_start reactionId shard (Contents.mem_scan isRow).2
    · cases failed

/-- All the operations of a call that settles a task. -/
theorem settles_run {taskId : String} {call : TaskCall} (settles : TaskLease.settles? call = some taskId)
    {predicate : RowFilter} {mutations : List Mutation} {α : Type} {post : Except StoreError α → BigtableHist → Prop}
    {f : Bool → BigtableM α} (spared : triggerColumns.all fun column => mutations.all (Mutation.spares column))
    (written : mutations ≠ []) (fails : ∀ e h, post (.error e) h)
    (rest : ∀ (h' : BigtableHist) (matched : Bool), (matched → ∃ event ∈ h'.log, won taskId event) →
      (taskStore re2).Safe (taskContract re2 tid call) tid post (f matched).run h') :
    (taskStore re2).Safe (taskContract re2 tid call) tid post
    (checkAndMutate (rkTask taskId) predicate mutations [] >>= f).run h := by
  refine safe_perform fails (fun _ _ _ => .settle settles spared) fun h₁ matched state foreign _ _ => ?_
  refine rest _ matched fun isMatched => ⟨_, List.mem_cons_self, ?_⟩
  have matched_ : matched = true := isMatched
  simp [won, Op.taken, matched_, written]

theorem safe_unpend {taskId reactionId : String} {shard : Int} {call : TaskCall} {α : Type}
    {post : Except StoreError α → BigtableHist → Prop} {f : Option Unit → BigtableM α}
    (settles : TaskLease.settles? call = some taskId) (settled : ∃ event ∈ h.log, won taskId event)
    (fails : ∀ e h, post (.error e) h)
    (rest : ∀ (h' : BigtableHist) value, (taskStore re2).Safe (taskContract re2 tid call) tid post (f value).run h') :
    (taskStore re2).Safe (taskContract re2 tid call) tid post
      (attempt (deleteRow (rkPending reactionId shard taskId)) >>= f).run h := by
  refine System.Safe.exceptBind fails ?_
  intro h₁ foreign permitted res state answers
  obtain ⟨event, member, isWon⟩ := settled
  refine ⟨⟨_, res, state, rfl, answers, trivial, .unpend settles ⟨event, foreign.mem member, isWon⟩⟩, ?_⟩
  exact fun h₂ _ value _ => rest h₂ value

theorem safe_completeTask {taskId owner : String} :
    (taskStore re2).Safe (taskContract re2 tid (.completeTask taskId owner clock)) tid
      (taskPost tid (.completeTask taskId owner clock)) (completeTask re2 taskId owner clock).run h := by
  unfold completeTask
  split
  next => exact fun _ _ => trivial
  next =>
    refine settles_run rfl rfl (List.cons_ne_nil _ _) (fun _ _ => trivial) fun h₁ ok settled => ?_
    cases ok with
    | false => exact fun _ _ => trivial
    | true =>
      obtain ⟨event, member, isWon⟩ := settled rfl
      refine safe_perform (fun _ _ => trivial) (fun _ _ _ => .look _) fun h₂ row state foreign₂ _ _ => ?_
      cases row with
      | none => exact fun _ _ => trivial
      | some m =>
        refine safe_unpend rfl ⟨event, List.mem_cons_of_mem _ (foreign₂.mem member), isWon⟩ (fun _ _ => trivial) ?_
        exact fun _ _ _ _ => trivial

theorem safe_nackTask {taskId owner error : String} {permanent : Bool} {nowMs : Int} :
    (taskStore re2).Safe (taskContract re2 tid (.nackTask taskId owner error permanent nowMs clock)) tid
      (taskPost tid (.nackTask taskId owner error permanent nowMs clock))
      (nackTask re2 taskId owner error permanent nowMs clock).run h := by
  unfold nackTask
  split
  next => exact fun _ _ => trivial
  next =>
    refine safe_perform (fun _ _ => trivial) (fun _ _ _ => .look _) fun h₁ row state foreign₁ _ _ => ?_
    cases row with
    | none => exact fun _ _ => trivial
    | some m =>
      dsimp only
      split
      next => exact fun _ _ => trivial
      next =>
        refine safe_perform (fun _ _ => trivial) (fun _ _ _ => .look _) fun h₂ reaction state₂ foreign₂ _ _ => ?_
        refine settles_run rfl ?_ ?_ (fun _ _ => trivial) fun h₃ ok settled => ?_
        · split <;> rfl
        · split <;> exact List.cons_ne_nil _ _
        cases ok with
        | false => exact fun _ _ => trivial
        | true =>
          obtain ⟨event, member, isWon⟩ := settled rfl
          split
          next => exact fun _ _ => trivial
          next =>
            split
            next =>
              refine safe_unpend rfl ⟨event, member, isWon⟩ (fun _ _ => trivial) fun h₄ _ => ?_
              exact safe_perform (fun _ _ => trivial) (fun _ _ _ => .look _) fun _ _ _ _ _ _ _ _ => trivial
            next => exact safe_perform (fun _ _ => trivial) (fun _ _ _ => .look _) fun _ _ _ _ _ _ _ _ => trivial

theorem tasks_compose :
    System.Compose (taskStore re2) Typed ((taskStore re2).tracked (fun _ _ _ _ => True) (Step re2)) taskPost := by
  refine System.tracked_compose fun {tid call h} typed _ => ?_
  cases call with
  | createTask => exact safe_createTask typed
  | claimTasks => exact safe_claimTasks
  | completeTask => exact safe_completeTask
  | nackTask => exact safe_nackTask

end Programs

/-! ## Lists of tasks -/

/-- No two calls give their tasks the same id. -/
def Distinct (calls : Nat → Option TaskCall) : Prop :=
  ∀ tid tid' t t' newId newId' clock clock', calls tid = some (.createTask t newId clock) →
    calls tid' = some (.createTask t' newId' clock') → idOf t newId = idOf t' newId' → tid = tid'

/-- If a call has drawn this id, it has had the index row name it. -/
def Named (calls : Nat → Option TaskCall) (taskId : String) (log : List BigtableEvent) : Prop :=
  ∀ tid t newId clock, calls tid = some (.createTask t newId clock) → taskId = idOf t newId →
    ∃ event ∈ log, (tasks (triggerOf t)).names taskId event

/-- Only a task that the index row was made to name is on a list, where `calls` are those the threads serve. -/
structure Filed (calls : Nat → Option TaskCall) (h : BigtableHist) : Prop where
  owned : ∀ event ∈ h.log, ∀ e taskId, (tasks e).created taskId event → '#' ∉ taskId.toList ∧
    ∃ t newId clock, calls event.tid = some (.createTask t newId clock) ∧ taskId = idOf t newId ∧ triggerOf t = e
  filed : ∀ key m, isPending key → h.state.read key = some m → Named calls (gs m "task_id") h.log
  told : Logged (fun event older => ∀ row ∈ listed event, Named calls (gs row.2 "task_id") older) h.log

section Filed

variable {re2 : Re2} {calls : Nat → Option TaskCall} {tid : Nat} {call : TaskCall} {h : BigtableHist} {op : Op}
  {res : Reply op} {c : Contents}

theorem Named.mono {taskId : String} {log log' : List BigtableEvent} (named : Named calls taskId log) (grown : log <:+ log') :
    Named calls taskId log' := by
  intro tid t newId clock serves same
  obtain ⟨event, member, facts⟩ := named tid t newId clock serves same
  exact ⟨event, grown.mem member, facts⟩

theorem isPending_rkPending (reactionId : String) (shard : Int) (taskId : String) :
    isPending (rkPending reactionId shard taskId) := by
  refine List.isPrefixOf_iff_prefix.mpr ⟨reactionId.toList ++ '#' :: (pad10 shard).toList ++ '#' :: taskId.toList, ?_⟩
  simp [rkPending]

theorem not_isPending_rkTask (taskId : String) : isPending (rkTask taskId) = false := by
  simp [isPending, rkTask, List.isPrefixOf]

theorem not_isPending_idx (e : Trigger) : isPending e.idx = false := by
  simp [isPending, Trigger.idx, rkTaskidx, List.isPrefixOf]

/-- The lists are written when a task is put on one, and when it is taken off. -/
inductive PendingStep (key : String) (tid : Nat) (h : BigtableHist) : TaskCall → Op → Prop
  | pend {t : TaskRecord} {newId : String} {clock created : Int} (own : rkPending t.reactionId t.shard (idOf t newId) = key)
      (named : ∃ event ∈ h.log, (tasks (triggerOf t)).names (idOf t newId) event) :
      PendingStep key tid h (.createTask t newId clock) (.mutateRow key (newPending t (idOf t newId) created))
  | unpend {call : TaskCall} {taskId reactionId : String} {shard : Int} (own : rkPending reactionId shard taskId = key)
      (settles : TaskLease.settles? call = some taskId) (settled : ∃ event ∈ h.log, won taskId event) :
      PendingStep key tid h call (.mutateRow key [.deleteFromRow])

theorem pending_step {key : String} (isList : isPending key) (step : Step re2 tid call h op)
    (isWrite : writes key ⟨tid, op, res⟩) : PendingStep key tid h call op := by
  cases step with
  | look | list => cases res <;> cases isWrite
  | make => cases (not_isPending_rkTask _).symm.trans (eq_of_writes isWrite ▸ isList)
  | name => cases (not_isPending_idx _).symm.trans (eq_of_writes isWrite ▸ isList)
  | pend named =>
    obtain rfl := eq_of_writes isWrite
    exact .pend rfl named
  | claim => cases (not_isPending_rkTask _).symm.trans (eq_of_writes_check isWrite ▸ isList)
  | settle => cases (not_isPending_rkTask _).symm.trans (eq_of_writes_check isWrite ▸ isList)
  | unpend settles settled =>
    obtain rfl := eq_of_writes isWrite
    exact .unpend rfl settles settled

/-- A task is created by the call that has drawn its id. -/
theorem created_of_step {e : Trigger} {taskId : String} (typed : Typed call) (step : Step re2 tid call h op)
    (isCreated : (tasks e).created taskId ⟨tid, op, res⟩) : '#' ∉ taskId.toList ∧
      ∃ t newId clock, call = .createTask t newId clock ∧ taskId = idOf t newId ∧ triggerOf t = e := by
  have notSpared : ¬ (tasks e).Spares op := fun spares => by
    cases (Registry.not_created_of_spares spares res).symm.trans isCreated
  cases step with
  | look | list => exact absurd trivial notSpared
  | @make t newId clock created _ missed =>
    cases res with
    | error failed => cases isCreated
    | ok =>
      simp only [Registry.created, makes_newTask typed.2.2, Bool.and_eq_true, decide_eq_true_eq] at isCreated
      obtain ⟨same, of⟩ := isCreated
      obtain rfl := TaskLease.rkTask_injective same
      exact ⟨typed.2.1, t, newId, clock, rfl, rfl, of⟩
  | name =>
    cases res with
    | error failed => cases isCreated
    | ok =>
      simp only [Registry.created, Bool.and_eq_true, decide_eq_true_eq] at isCreated
      exact absurd isCreated.1.symm (rkTask_ne_idx _ _)
  | pend => exact absurd (spares_pending rfl) notSpared
  | claim => exact absurd (spares_check rfl) notSpared
  | settle _ spared => exact absurd (spares_check spared) notSpared
  | unpend => exact absurd (spares_pending rfl) notSpared

theorem Filed.push (filed : Filed calls h) (distinct : Distinct calls) (serves : calls tid = some call) (typed : Typed call)
    (step : Step re2 tid call h op) (answers : (taskStore re2).Answers op h.state res c) :
    Filed calls (h.push tid op res c) where
  owned event member e taskId isCreated := by
    rcases List.mem_cons.mp member with rfl | member
    · obtain ⟨plain, t, newId, clock, rfl, same, of⟩ := created_of_step typed step isCreated
      exact ⟨plain, t, newId, clock, serves, same, of⟩
    · exact filed.owned event member e taskId isCreated
  filed key m isList found := by
    cases isWrite : writes key ⟨tid, op, res⟩ with
    | false =>
      rw [Hist.push_state, read_of_not_writes answers isWrite] at found
      exact (filed.filed key m isList found).mono (List.suffix_cons _ _)
    | true =>
      rcases machine_answers answers with ⟨rfl, rfl⟩ | ⟨rfl, rfl⟩
      · cases pending_step isList step isWrite with
        | @pend t newId clock created own named =>
          intro tid' t' newId' clock' serves' same
          have left : Mutation.applyAll (newPending t (idOf t newId) created) (h.state.cells key) ≠ [] := by
            simp [newPending, set, Mutation.apply, RowMap.set]
          have row : (h.state.mutate key (newPending t (idOf t newId) created)).read key = some m := found
          rw [Contents.read_mutate_self left] at row
          obtain rfl := Option.some.inj row
          have names : gs (Mutation.applyAll (newPending t (idOf t newId) created) (h.state.cells key)) "task_id" =
            idOf t newId := by
            simp [newPending, set, Mutation.apply, gs]
          rw [names] at same ⊢
          -- the id is this call's
          obtain rfl := distinct tid tid' t t' newId newId' clock clock' serves serves' same
          cases serves.symm.trans serves'
          obtain ⟨event, member, isNaming⟩ := named
          exact ⟨event, List.mem_cons_of_mem _ member, isNaming⟩
        | unpend =>
          have row : (h.state.mutate key [.deleteFromRow]).read key = some m := found
          simp [Contents.mutate, Contents.read_write, Mutation.apply] at row
      · cases (not_writes_of_error _).symm.trans isWrite
  told := by
    refine ⟨fun row member => ?_, filed.told⟩
    cases op with
    | readPrefix start limit =>
      rcases machine_answers answers with ⟨rfl, -⟩ | ⟨rfl, -⟩
      · obtain ⟨isRow, isList⟩ := List.mem_filter.mp member
        have scanned : row ∈ Scans.firstRows h.state start limit := isRow
        exact filed.filed row.1 row.2 isList (Contents.mem_scan scanned).1
      · cases member
    | _ => cases member

/-- No row of a list names an id that a call draws. -/
theorem Filed.initial (empty : h.log = []) (nothing : ∀ key m, isPending key → h.state.read key = some m →
    ∀ tid t newId clock, calls tid = some (.createTask t newId clock) → gs m "task_id" ≠ idOf t newId) : Filed calls h where
  owned event member := by simp [empty] at member
  filed key m isList found tid t newId clock serves same := absurd same (nothing key m isList found tid t newId clock serves)
  told := by simp [empty, Logged]

/-- What was handed out had a name. -/
theorem Filed.names_of_handed (filed : Filed calls h) {task : TaskRecord} (registered : (tasks (triggerOf task)).Registered h)
    (handed : Handed task h.log) : ∃ event ∈ h.log, (tasks (triggerOf task)).names task.taskId event := by
  obtain ⟨⟨event, member, row, isRow, isTask⟩, reading, member', m, read, same⟩ := handed
  obtain ⟨newer, older, split⟩ := List.append_of_mem member
  obtain ⟨newer', older', split'⟩ := List.append_of_mem member'
  obtain ⟨creation, isLogged, isCreated⟩ :=
    (registered.told.of_split newer' split').found task.taskId m read (by simpa [tasks] using same)
  obtain ⟨-, t, newId, clock, serves, drawn, of⟩ := filed.owned creation (by simp [split', isLogged]) _ _ isCreated
  obtain ⟨naming, isLogged', isNaming⟩ := filed.told.of_split newer split row isRow creation.tid t newId clock serves
    (isTask.trans drawn)
  rw [isTask, of] at isNaming
  exact ⟨naming, by simp [split, isLogged'], isNaming⟩

end Filed

/-! ## Tasks that wait -/

/-- A check of the task was won. -/
def Taken (taskId : String) (log : List BigtableEvent) : Prop := ∃ event ∈ log, won taskId event

/-- A task as it was written. -/
def Fresh (m : RowMap) : Prop := m.get? "status" = some (iv TaskStatus.pending.code) ∧ gi m "next_attempt_at_ms" = 0

/-- Until it is taken, a task waits on the list it was put on. -/
structure Waiting (e : Trigger) (h : BigtableHist) : Prop where
  row : ∀ taskId, '#' ∉ taskId.toList → (∃ event ∈ h.log, pends e taskId event) → Taken taskId h.log ∨
    ∃ m, h.state.read (rkPending e.reactionId e.shard taskId) = some m ∧ gs m "task_id" = taskId
  task : ∀ taskId, (∃ event ∈ h.log, (tasks e).created taskId event) → Taken taskId h.log ∨
    ∃ m, h.state.read (rkTask taskId) = some m ∧ Fresh m

section Waiting

variable {re2 : Re2} {e : Trigger} {tid : Nat} {call : TaskCall} {h : BigtableHist} {op : Op} {res : Reply op} {c : Contents}
  {taskId : String}

theorem Taken.mono {log log' : List BigtableEvent} (taken : Taken taskId log) (grown : log <:+ log') : Taken taskId log' := by
  obtain ⟨event, member, isWon⟩ := taken
  exact ⟨event, grown.mem member, isWon⟩

theorem writes_of_pends {event : BigtableEvent} (isPend : pends e taskId event) :
    writes (rkPending e.reactionId e.shard taskId) event := by
  unfold pends at isPend
  split at isPend
  next => exact (Bool.and_eq_true_iff.mp isPend).1
  next => cases isPend

theorem writes_of_created {event : BigtableEvent} (isCreated : (tasks e).created taskId event) :
    writes (rkTask taskId) event := by
  unfold Registry.created at isCreated
  split at isCreated
  next => exact (Bool.and_eq_true_iff.mp isCreated).1
  next => cases isCreated

theorem plain_of_settles (typed : Typed call) (settles : TaskLease.settles? call = some taskId) : '#' ∉ taskId.toList := by
  cases call with
  | createTask | claimTasks => cases settles
  | completeTask | nackTask =>
    obtain rfl := Option.some.inj settles
    exact typed

theorem row_step (typed : Typed call) (step : Step re2 tid call h op) (answers : (taskStore re2).Answers op h.state res c)
    (plain : '#' ∉ taskId.toList) (isWrite : writes (rkPending e.reactionId e.shard taskId) ⟨tid, op, res⟩) :
    Taken taskId h.log ∨ ∃ m, c.read (rkPending e.reactionId e.shard taskId) = some m ∧ gs m "task_id" = taskId := by
  rcases machine_answers answers with ⟨rfl, rfl⟩ | ⟨rfl, rfl⟩
  · cases pending_step (isPending_rkPending _ _ _) step isWrite with
    | @pend t newId clock created own named =>
      have left : ∀ m, Mutation.applyAll (newPending t (idOf t newId) created) m ≠ [] := fun m => by
        simp [newPending, set, Mutation.apply, RowMap.set]
      obtain rfl := rkPending_injective typed.2.1 plain own
      refine .inr ⟨_, Contents.read_mutate_self (left _), ?_⟩
      simp [newPending, set, Mutation.apply, gs]
    | unpend own settles settled =>
      obtain rfl := rkPending_injective (plain_of_settles typed settles) plain own
      exact .inl settled
  · cases (not_writes_of_error _).symm.trans isWrite

theorem task_step (step : Step re2 tid call h op) (answers : (taskStore re2).Answers op h.state res c)
    (isWrite : writes (rkTask taskId) ⟨tid, op, res⟩) :
    won taskId ⟨tid, op, res⟩ ∨ ∃ m, c.read (rkTask taskId) = some m ∧ Fresh m := by
  rcases machine_answers answers with ⟨rfl, rfl⟩ | ⟨rfl, rfl⟩
  · cases step with
    | look | list => cases isWrite
    | @make t newId clock created _ missed =>
      have same := of_decide_eq_true isWrite
      rw [same]
      refine .inr ⟨_, Contents.read_mutate_self (newTask_ne_nil _), ?_, ?_⟩
      · simp [newTask, set, Mutation.apply]
      · exact gi_of_get? (by simp [newTask, set, Mutation.apply]) (by decide)
    | name => exact absurd (eq_of_writes isWrite).symm (rkTask_ne_idx _ _)
    | pend => exact absurd (eq_of_writes isWrite) (rkPending_ne_rkTask _ _ _ _)
    | claim => exact .inl isWrite
    | settle => exact .inl isWrite
    | unpend => exact absurd (eq_of_writes isWrite) (rkPending_ne_rkTask _ _ _ _)
  · cases (not_writes_of_error _).symm.trans isWrite

theorem Waiting.push (waiting : Waiting e h) (typed : Typed call) (step : Step re2 tid call h op)
    (answers : (taskStore re2).Answers op h.state res c) : Waiting e (h.push tid op res c) where
  row taskId plain isPend := by
    cases isWrite : writes (rkPending e.reactionId e.shard taskId) ⟨tid, op, res⟩ with
    | true => exact (row_step typed step answers plain isWrite).imp_left fun taken => taken.mono (List.suffix_cons _ _)
    | false =>
      rw [Hist.push_state, read_of_not_writes answers isWrite]
      obtain ⟨event, member, pended⟩ := isPend
      rcases List.mem_cons.mp member with rfl | member
      · cases isWrite.symm.trans (writes_of_pends pended)
      · exact (waiting.row taskId plain ⟨event, member, pended⟩).imp_left fun taken => taken.mono (List.suffix_cons _ _)
  task taskId isCreated := by
    cases isWrite : writes (rkTask taskId) ⟨tid, op, res⟩ with
    | true => exact (task_step step answers isWrite).imp_left fun isWon => ⟨_, List.mem_cons_self, isWon⟩
    | false =>
      rw [Hist.push_state, read_of_not_writes answers isWrite]
      obtain ⟨event, member, made⟩ := isCreated
      rcases List.mem_cons.mp member with rfl | member
      · cases isWrite.symm.trans (writes_of_created made)
      · exact (waiting.task taskId ⟨event, member, made⟩).imp_left fun taken => taken.mono (List.suffix_cons _ _)

theorem Waiting.initial (empty : h.log = []) : Waiting e h where
  row taskId plain isPend := by simp [empty] at isPend
  task taskId isCreated := by simp [empty] at isCreated

end Waiting

/-! ## What is claimed -/

/-- Whoever claims all the tasks of the reaction, or of the shard, gets this one. -/
def Offered (re2 : Re2) (table : Contents) (e : Trigger) (taskId : String) : Prop :=
  ∀ shard owner leaseMs max nowMs clock, owner ≠ "" → shard < 0 ∨ shard = e.shard → 0 ≤ RunStore.claimTime nowMs clock →
    ((Scans.firstRows table (Scans.pendingStart e.reactionId shard) 0).length : Int) ≤ max →
      ∃ found, Scans.result (claimTasks re2 e.reactionId shard owner leaseMs max nowMs clock) table = .ok found ∧
        ∃ task ∈ found, task.taskId = taskId

section Offered

variable {re2 : Re2} {e : Trigger} {table : Contents} {taskId : String}

theorem pendingStart_rkPending {shard : Int} (own : shard < 0 ∨ shard = e.shard) :
    (Scans.pendingStart e.reactionId shard).toList.isPrefixOf (rkPending e.reactionId e.shard taskId).toList := by
  refine List.isPrefixOf_iff_prefix.mpr ?_
  unfold Scans.pendingStart
  split
  · exact ⟨(pad10 e.shard).toList ++ '#' :: taskId.toList, by simp [rkPending]⟩
  next some_ =>
    obtain rfl := own.resolve_left some_
    exact ⟨taskId.toList, by simp [rkPending]⟩

theorem claimable_of_fresh {m : RowMap} (fresh : Fresh m) {now : Int} (due : 0 ≤ now) :
    claimable now m ∧ m.get? "status" = some (iv (gi m "status")) := by
  have status : gi m "status" = TaskStatus.pending.code := gi_of_get? fresh.1 (by decide)
  refine ⟨?_, by rw [status, fresh.1]⟩
  simp [claimable, status, fresh.2, due]

/-- A task that waits on its list is found there. -/
theorem offered_of_fresh (quotes : Quotes re2) (identified : taskId ≠ "") {p m : RowMap}
    (isListed : table.read (rkPending e.reactionId e.shard taskId) = some p) (names : gs p "task_id" = taskId)
    (found : table.read (rkTask taskId) = some m) (fresh : Fresh m) : Offered re2 table e taskId := by
  intro shard owner leaseMs max nowMs clock named own due enough
  obtain ⟨isClaimable, printed⟩ := claimable_of_fresh fresh due
  have isRow : (rkPending e.reactionId e.shard taskId, p) ∈ Scans.firstRows table (Scans.pendingStart e.reactionId shard) 0 :=
    Contents.mem_scan_all.mpr ⟨isListed, pendingStart_rkPending own⟩
  have some_ := List.length_pos_of_mem isRow
  have pos : 0 < max := by omega
  -- the scan reads more rows than are asked for
  have whole : Scans.firstRows table (Scans.pendingStart e.reactionId shard) (Max.max (max * 8) 64).toNat =
      Scans.firstRows table (Scans.pendingStart e.reactionId shard) 0 := Contents.scan_of_le (by
    have enough : ((Scans.firstRows table (Scans.pendingStart e.reactionId shard) 0).length : Int) ≤ max := enough
    unfold Scans.firstRows at enough
    omega)
  have room : (([] : List TaskRecord).length + (Scans.firstRows table (Scans.pendingStart e.reactionId shard) 0).length : Int) ≤
      max := by simpa using enough
  obtain ⟨out, same, task, member, isTask⟩ := Scans.result_candidates_of_row owner
    (addI64 (RunStore.claimTime nowMs clock) (claimTtlMs leaseMs)) (c := table) quotes _ room
    (.inr ⟨_, isRow, names, names ▸ identified, m, names ▸ found, isClaimable, printed⟩)
  refine ⟨out, ?_, task, member, isTask⟩
  unfold claimTasks
  rw [if_neg named]
  dsimp only
  rw [if_pos pos]
  show Scans.result (claimCandidates re2 owner _ max _
    (Scans.firstRows table (Scans.pendingStart e.reactionId shard) (Max.max (max * 8) 64).toNat) []) table = _
  rw [whole]
  exact same

end Offered

/-- Who looks up the task that the index row names finds it on its list, or taken from there. -/
def Pended (e : Trigger) (tid : Nat) (h : BigtableHist) : Op → Prop
  | .readRow key => (lastRead e.idx tid h.log).all fun row =>
    (tasks e).named row = "" || key ≠ rkTask ((tasks e).named row) || h.log.any (pends e ((tasks e).named row))
  | _ => True

instance (e : Trigger) (tid : Nat) (h : BigtableHist) : (op : Op) → Decidable (Pended e tid h op)
  | .readRow _ => inferInstanceAs (Decidable (_ = true))
  | .readPrefix .. | .readRange .. | .mutateRow .. | .checkAndMutateRow .. | .increment _ => isTrue trivial

/-- The task was on its list before the event, if that looks it up. -/
def Looked (e : Trigger) (event : BigtableEvent) (older : List BigtableEvent) : Prop :=
  ∀ taskId res row, event = ⟨event.tid, .readRow (rkTask taskId), .ok res⟩ → lastRead e.idx event.tid older = some row →
    (tasks e).named row = taskId → taskId ≠ "" → ∃ pend ∈ older, pends e taskId pend

section Looked

variable {re2 : Re2} {e : Trigger} {tid : Nat} {h : BigtableHist} {op : Op} {taskId : String}

theorem looked_of_pended {res : Reply op} (pended : Pended e tid h op) : Looked e ⟨tid, op, res⟩ h.log := by
  rintro _ found row same last rfl isNamed
  cases same
  have known : (lastRead e.idx tid h.log).all fun row => (tasks e).named row = "" ||
      rkTask ((tasks e).named row) ≠ rkTask ((tasks e).named row) || h.log.any (pends e ((tasks e).named row)) := by
    rw [last]
    rw [Pended, last] at pended
    simpa using pended
  rw [last] at known
  simpa [isNamed] using known

theorem looked_of_fault {res : Reply op} (failed : (taskStore re2).fault op = some res) : Looked e ⟨tid, op, res⟩ h.log := by
  rintro _ found row same - - -
  obtain rfl : Except.error requestFailed = res := Option.some.inj failed
  cases same

theorem Matched.pended {log : List BigtableEvent} (matched : Matched e tid taskId log) (looked : Logged (Looked e) log) :
    ∃ event ∈ log, pends e taskId event := by
  rcases matched.2 with pended | ⟨newer, res, older, row, rfl, last, isNamed, some_⟩
  · exact pended
  · obtain ⟨pend, member, isPend⟩ := (looked.of_split newer rfl) taskId res row rfl last isNamed some_
    exact ⟨pend, by simp [member], isPend⟩

end Looked

/-! ## One task -/

/-- The task that thread `tid` was returned for the trigger. -/
def matched (e : Trigger) (c : TaskConfig) (tid : Nat) : Option String :=
  match c.pool[tid]? with
  | some ⟨.createTask t _ _, .ret (.ok task)⟩ => if triggerOf t = e then some task.taskId else none
  | _ => none

/-- The tasks for the trigger that thread `tid` has claimed. -/
def handedOut (e : Trigger) (c : TaskConfig) (tid : Nat) : List String :=
  match c.pool[tid]? with
  | some ⟨.claimTasks .., .ret (.ok out)⟩ => (out.filter fun task => triggerOf task = e).map TaskRecord.taskId
  | _ => []

/-- All who create a task for the trigger are returned one task, and no other one is handed out. -/
def OneTask (e : Trigger) (c : TaskConfig) : Prop :=
  ∃ taskId, (∀ tid other, matched e c tid = some other → other = taskId) ∧ ∀ tid, ∀ other ∈ handedOut e c tid, other = taskId

/-- The task that was returned is there to be claimed, or was. -/
def NoneLost (re2 : Re2) (e : Trigger) (c : TaskConfig) : Prop :=
  ∀ tid taskId, matched e c tid = some taskId → Taken taskId c.log ∨ Offered re2 c.state e taskId

/-- No task has been created for the trigger, and no list is of a task that is yet to come. -/
structure Untriggered (e : Trigger) (calls : Nat → Option TaskCall) (table : Contents) : Prop where
  row : (tasks e).named (table.read e.idx) = ""
  tasks : ∀ taskId m, table.read (rkTask taskId) = some m → triggerIn m ≠ e
  lists : ∀ key m, isPending key → table.read key = some m → ∀ tid t newId clock,
    calls tid = some (.createTask t newId clock) → gs m "task_id" ≠ idOf t newId

section OneTask

variable {re2 : Re2} {e : Trigger} {tid : Nat} {table : Contents} {choices : List (Choice TaskCall)}

theorem post_of_matched {c : TaskConfig} {taskId : String}
    (safe : (taskStore re2).PoolSafe (taskContract re2) taskPost c) (isMatched : matched e c tid = some taskId) :
    Matched e tid taskId c.log := by
  unfold matched at isMatched
  split at isMatched
  next t newId clock task returned =>
    split at isMatched
    next own =>
      obtain rfl := Option.some.inj isMatched
      obtain rfl := own
      exact safe.returned returned
    next => cases isMatched
  next => cases isMatched

theorem post_of_handedOut {c : TaskConfig} {taskId : String}
    (safe : (taskStore re2).PoolSafe (taskContract re2) taskPost c) (isHanded : taskId ∈ handedOut e c tid) :
    ∃ task : TaskRecord, task.taskId = taskId ∧ triggerOf task = e ∧ Handed task c.log := by
  unfold handedOut at isHanded
  split at isHanded
  next reactionId shard owner leaseMs max nowMs clock out returned =>
    obtain ⟨task, member, isTask⟩ := List.mem_map.mp isHanded
    obtain ⟨isReturned, own⟩ := List.mem_filter.mp member
    exact ⟨task, isTask, of_decide_eq_true own, safe.returned returned task isReturned⟩
  next => cases isHanded

/-- The calls of a run are typed. -/
theorem typed_of_serves {call : TaskCall}
    (typed : (taskStore re2).Along (System.Permits Typed fun _ _ _ _ => True) (quietTasks table) choices)
    (serves : ((taskStore re2).run (quietTasks table) choices).callOf tid = some call) : Typed call := by
  obtain ⟨thread, alive, rfl⟩ := Option.map_eq_some_iff.mp serves
  exact System.run_admitted (by simp [quietTasks]) typed thread (List.mem_of_getElem? alive)

variable (re2 e table choices) in
/-- What holds of every run of the calls. -/
theorem known_of_run (ranged : e.Ranged)
    (untriggered : Untriggered e ((taskStore re2).run (quietTasks table) choices).callOf table)
    (distinct : Distinct ((taskStore re2).run (quietTasks table) choices).callOf)
    (typed : (taskStore re2).Along (System.Permits Typed fun _ _ _ _ => True) (quietTasks table) choices) :
    (tasks e).Registered ((taskStore re2).run (quietTasks table) choices).toHist ∧
      Filed ((taskStore re2).run (quietTasks table) choices).callOf ((taskStore re2).run (quietTasks table) choices).toHist ∧
        Waiting e ((taskStore re2).run (quietTasks table) choices).toHist := by
  refine System.run_tracked (I := fun h => (tasks e).Registered h ∧
    Filed ((taskStore re2).run (quietTasks table) choices).callOf h ∧ Waiting e h) tasks_compose ?_ (quietTasks_owned table)
    (System.poolSafe_of_empty rfl) ⟨?_, ?_, .initial rfl⟩ typed
  · rintro tid call h op res state serves answers - step ⟨registered, filed, waiting⟩
    have typed := typed_of_serves typed serves
    refine ⟨?_, filed.push distinct serves typed step answers, waiting.push typed step answers⟩
    rcases machine_answers answers with ⟨rfl, rfl⟩ | ⟨rfl, rfl⟩
    · exact registered.exec (steps_of_step ranged typed step) answers
    · have failed : (taskStore re2).fault op = some (.error requestFailed) := rfl
      exact registered.fault failed
  · exact .initial rfl untriggered.row fun taskId m found describes =>
      untriggered.tasks taskId m found (of_decide_eq_true describes)
  · exact .initial rfl untriggered.lists

/-- What was returned was created, and put on its list. -/
theorem waits_of_matched {c : TaskConfig} {taskId : String} (quotes : Quotes re2) (registered : (tasks e).Registered c.toHist)
    (filed : Filed c.callOf c.toHist) (waiting : Waiting e c.toHist)
    (typed : ∀ tid call, c.callOf tid = some call → Typed call)
    (looked : Logged (Looked e) c.log) (matched : Matched e tid taskId c.log) :
    Taken taskId c.log ∨ Offered re2 c.state e taskId := by
  obtain ⟨event, member, finds⟩ := matched.1
  obtain ⟨creation, isLogged, isCreated⟩ := registered.created_of_finds member finds
  obtain ⟨plain, t, newId, clock, serves, rfl, -⟩ := filed.owned creation isLogged e taskId isCreated
  rcases waiting.row _ plain (matched.pended looked) with taken | ⟨p, isListed, names⟩
  · exact .inl taken
  · rcases waiting.task _ ⟨creation, isLogged, isCreated⟩ with taken | ⟨m, found, fresh⟩
    · exact .inl taken
    · exact .inr (offered_of_fresh quotes (typed _ _ serves).1 isListed names found fresh)

/-- **One entry, one task**, in every interleaving, with whatever crashes and failures.  All calls come to one task where
    none has it named by an index row that was written since the call has read it; and no task is lost where none looks
    a task up before it is on its list. -/
theorem one_entry_one_task (re2 : Re2) (quotes : Quotes re2) (e : Trigger) (table : Contents) (choices : List (Choice TaskCall))
    (ranged : e.Ranged) (untriggered : Untriggered e ((taskStore re2).run (quietTasks table) choices).callOf table)
    (distinct : Distinct ((taskStore re2).run (quietTasks table) choices).callOf)
    (typed : (taskStore re2).Along (System.Permits Typed fun _ _ _ _ => True) (quietTasks table) choices) :
    ((taskStore re2).Along (System.Executes fun tid _ h op => (tasks e).Calm tid h op) (quietTasks table) choices →
        OneTask e ((taskStore re2).run (quietTasks table) choices)) ∧
      ((taskStore re2).Along (System.Executes fun tid _ h op => Pended e tid h op) (quietTasks table) choices →
        NoneLost re2 e ((taskStore re2).run (quietTasks table) choices)) := by
  have safe := System.run_safe tasks_compose (quietTasks_owned table) (System.poolSafe_of_empty rfl) typed
  obtain ⟨registered, filed, waiting⟩ := known_of_run re2 e table choices ranged untriggered distinct typed
  constructor
  · intro isCalm
    -- calm calls name one task at most, and every task that is found was named
    obtain ⟨-, -, single⟩ : (tasks e).Registered ((taskStore re2).run (quietTasks table) choices).toHist ∧
        Bigtable.Standing e.idx ((taskStore re2).run (quietTasks table) choices).toHist ∧
          Registry.Single (tasks e).names ((taskStore re2).run (quietTasks table) choices).log := by
      refine System.run_executed (I := fun h => (tasks e).Registered h ∧ Bigtable.Standing e.idx h ∧
        Registry.Single (tasks e).names h.log) tasks_compose ?_ ?_ (quietTasks_owned table) (System.poolSafe_of_empty rfl)
        ⟨?_, .initial rfl, ?_⟩ typed isCalm
      · rintro tid call h op serves isCalm step ⟨registered, standing, single⟩
        have steps := steps_of_step ranged (typed_of_serves typed serves) step
        exact ⟨registered.exec steps (.exec (S := taskStore re2)), standing.push (.exec (S := taskStore re2)),
          Registry.single_names registered standing steps isCalm single⟩
      · rintro tid h op res failed ⟨registered, standing, single⟩
        exact ⟨registered.fault failed, standing.push (.fault (S := taskStore re2) failed),
          Registry.single_of_fault (fun _ => Registry.names_of_error) failed single⟩
      · exact .initial rfl untriggered.row fun taskId m found describes =>
          untriggered.tasks taskId m found (of_decide_eq_true describes)
      · exact fun _ _ _ member => absurd member (List.not_mem_nil)
    obtain ⟨taskId, unique⟩ := single.unique
    refine ⟨taskId, fun tid other isMatched => ?_, fun tid other isHanded => ?_⟩
    · obtain ⟨event, member, finds⟩ := (post_of_matched safe isMatched).1
      obtain ⟨naming, isLogged, isNaming⟩ := registered.names_of_finds member finds
      exact unique other naming isLogged isNaming
    · obtain ⟨task, rfl, rfl, handed⟩ := post_of_handedOut safe isHanded
      obtain ⟨naming, isLogged, isNaming⟩ := filed.names_of_handed registered handed
      exact unique _ naming isLogged isNaming
  · intro isPended tid taskId isMatched
    -- whoever looks a task up finds it on its list already
    have looked : Logged (Looked e) ((taskStore re2).run (quietTasks table) choices).log := by
      refine System.run_hist_of_execs (I := fun h => Logged (Looked e) h.log) ?_ ?_ trivial isPended
      · exact fun tid call h op _ pended known => ⟨looked_of_pended pended, known⟩
      · exact fun tid h op res failed known => ⟨looked_of_fault failed, known⟩
    exact waits_of_matched quotes registered filed waiting (fun _ _ => typed_of_serves typed) looked
      (post_of_matched safe isMatched)

end OneTask

/-! ## Two matchers -/

/-- The task that a matcher has for an entry. -/
def entryTask : TaskRecord := { taskFrom "" [] with reactionId := "r", sourceRunId := "run", sourceGlobalSeq := 7 }

def matchEntry (newId : String) : TaskCall := .createTask entryTask newId 5

def serveTask (tid : Nat) (call : TaskCall) (steps : Nat := 5) : List (Choice TaskCall) :=
  .spawn call :: List.replicate steps (.exec tid)

abbrev matchRun (choices : List (Choice TaskCall)) : TaskConfig := (taskStore TaskLease.quoting).run (quietTasks .empty) choices

/-- The id that a call has drawn. -/
def drawn : TaskCall → Option String
  | .createTask t newId _ => some (idOf t newId)
  | _ => none

theorem distinct_of_drawn {calls : Nat → Option TaskCall} {n : Nat} (served : ∀ tid, (calls tid).isSome → tid < n)
    (apart : ∀ tid < n, ∀ tid' < n, ((calls tid).bind drawn).isSome → (calls tid).bind drawn = (calls tid').bind drawn →
      tid = tid') : Distinct calls := by
  intro tid tid' t t' newId newId' clock clock' serves serves' same
  refine apart tid (served tid (by simp [serves])) tid' (served tid' (by simp [serves'])) ?_ ?_
  · simp [serves, drawn]
  · simp [serves, serves', drawn, same]

theorem served_of_pool {c : TaskConfig} (tid : Nat) (serves : (c.callOf tid).isSome) : tid < c.pool.length := by
  obtain ⟨call, serves⟩ := Option.isSome_iff_exists.mp serves
  obtain ⟨thread, alive, -⟩ := Option.map_eq_some_iff.mp serves
  exact (List.getElem?_eq_some_iff.mp alive).1

theorem untriggered_empty (e : Trigger) (calls : Nat → Option TaskCall) : Untriggered e calls .empty :=
  ⟨rfl, fun _ _ found => (nomatch found), fun _ _ _ found => (nomatch found)⟩

/-- The second matcher comes when the first is done. -/
def inTurn : List (Choice TaskCall) := serveTask 0 (matchEntry "t1") ++ serveTask 1 (matchEntry "t2")

theorem matchers_share_a_task : matched (triggerOf entryTask) (matchRun inTurn) 1 = some "t1" ∧
    OneTask (triggerOf entryTask) (matchRun inTurn) ∧ NoneLost TaskLease.quoting (triggerOf entryTask) (matchRun inTurn) := by
  have both := one_entry_one_task TaskLease.quoting TaskLease.quoting_quotes (triggerOf entryTask) .empty inTurn
    (by decide +kernel) (untriggered_empty _ _) (distinct_of_drawn served_of_pool (by decide +kernel)) (by decide +kernel)
  exact ⟨by decide +kernel, both.1 (by decide +kernel), both.2 (by decide +kernel)⟩

/-- Both matchers look for the task before either of them has created one. -/
def rivals : List (Choice TaskCall) :=
  [.spawn (matchEntry "t1"), .spawn (matchEntry "t2"), .exec 0, .exec 1] ++ List.replicate 4 (.exec 0) ++
    List.replicate 4 (.exec 1) ++ serveTask 2 (.claimTasks "r" 0 "A" 1000 16 9 9) 7

/-- The first matcher stops when the index row names its task. -/
def stopped : List (Choice TaskCall) := serveTask 0 (matchEntry "t1") 3 ++ serveTask 1 (matchEntry "t2")

/-- Both tasks of the two matchers are handed out; and the one that stopped leaves the other a task that no claim finds. -/
theorem two_tasks_or_none :
    handedOut (triggerOf entryTask) (matchRun rivals) 2 = ["t1", "t2"] ∧ ¬ OneTask (triggerOf entryTask) (matchRun rivals) ∧
      ¬ NoneLost TaskLease.quoting (triggerOf entryTask) (matchRun stopped) := by
  have handed : handedOut (triggerOf entryTask) (matchRun rivals) 2 = ["t1", "t2"] := by decide +kernel
  refine ⟨handed, ?_, fun noneLost => ?_⟩
  · rintro ⟨taskId, -, same⟩
    have first := same 2 "t1" (by simp [handed])
    have second := same 2 "t2" (by simp [handed])
    exact absurd (first.trans second.symm) (by decide)
  · rcases noneLost 1 "t1" (by decide +kernel) with ⟨event, member, isWon⟩ | offered
    · have none_ : (matchRun stopped).log.any (won "t1") = false := by decide +kernel
      exact List.any_eq_false.mp none_ event member isWon
    · obtain ⟨found, same, task, member, -⟩ :=
        offered 0 "A" 1000 16 9 9 (by decide) (.inr rfl) (by decide) (by decide +kernel)
      have nothing : (Scans.result (claimTasks TaskLease.quoting (triggerOf entryTask).reactionId 0 "A" 1000 16 9 9)
        (matchRun stopped).state).toOption.map List.length = some 0 := by decide +kernel
      rw [same] at nothing
      simp only [Except.toOption, Option.map_some, Option.some.injEq, List.length_eq_zero_iff] at nothing
      simp [nothing] at member

end Tape.BigtableRunStore.TaskIndex
