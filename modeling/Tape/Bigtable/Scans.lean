import Tape.Bigtable.Runs
import Tape.Bigtable.TaskLease

/-! # Bounded scans

The methods that list what there is to do read so many rows, in the order of their keys, and look for work among
them.  Work that comes after these rows is not found, whatever the rows hold.
-/

namespace Tape.BigtableRunStore

open Interleave Bigtable

namespace Scans

/-- What a method comes to when nobody else runs and no request fails. -/
def result {α : Type} (program : BigtableM α) (table : Contents) : Except StoreError α := (bigtable.alone program.run table).1

/-- The method finds something. -/
def Finds {α : Type} (program : BigtableM (List α)) (table : Contents) : Prop :=
  ∃ first rest, result program table = .ok (first :: rest)

/-- The rows whose keys begin with `start`, as many as the scan may read. -/
def firstRows (table : Contents) (start : String) (limit : Nat) : List (String × RowMap) :=
  table.scan (fun key => start.toList.isPrefixOf key.toList) limit

/-! ## Runs -/

/-- The run waits for a gate whose signal has come and has not been taken. -/
def Signalled (table : Contents) (runId : String) : Prop :=
  ∃ gate s, table.read (rkSignal runId gate) = some s ∧ gi s "delivered" = 1 ∧ gi s "consumed" = 0

/-- The run can be taken up: nobody runs it, or the lease on it has run out, or its signal has come. -/
def Recoverable (table : Contents) (nowMs : Int) (runId : String) : Prop :=
  ∃ m, table.read (rkRun runId) = some m ∧
    (asI32 (gi m "status") = RunStatus.runnable.code ∨
      asI32 (gi m "status") = RunStatus.running.code ∧ gi m "lease_exp" < nowMs ∨
      asI32 (gi m "status") = RunStatus.waiting.code ∧ Signalled table runId)

/-- What `list_runs_to_recover` asks of a row: of the signals of a run it reads a thousand. -/
def recoverableRow (table : Contents) (nowMs : Int) (row : String × RowMap) : Bool :=
  let st := asI32 (gi row.2 "status")
  if st = RunStatus.runnable.code then true
  else if st = RunStatus.running.code then gi row.2 "lease_exp" < nowMs
  else if st = RunStatus.waiting.code then
    (firstRows table ("sig#" ++ trimKey "r#" row.1 ++ "#") 1000).any fun s => gi s.2 "delivered" = 1 && gi s.2 "consumed" = 0
  else false

section Alone

variable {α β : Type} {s s' : Contents}

theorem alone_readRow (key : String) (f : Option RowMap → BigtableM α) :
    bigtable.alone (readRow key >>= f).run s = bigtable.alone (f (s.read key)).run s := rfl

/-- A property of the result, from the result of what follows the request. -/
theorem of_perform (op : Op) {f : op.Res → BigtableM α} (P : Except StoreError α → Prop)
    (rest : P (bigtable.alone (f (op.exec s).1).run (op.exec s).2).1) : P (bigtable.alone (perform op >>= f).run s).1 := rest

theorem alone_bind_ok {program : BigtableM α} {f : α → BigtableM β} {value : α}
    (first : bigtable.alone program.run s = (.ok value, s')) :
    bigtable.alone (program >>= f).run s = bigtable.alone (f value).run s' := by
  show bigtable.alone (program.run.bind _) s = _
  rw [System.alone_bind, first]
  rfl

end Alone

section Runs

variable {table : Contents} {nowMs limit : Int}

theorem alone_isRecoverable (row : String × RowMap) :
    bigtable.alone (listRunsToRecover.isRecoverable nowMs (trimKey "r#" row.1) row.2).run table =
      (.ok (recoverableRow table nowMs row), table) := by
  unfold listRunsToRecover.isRecoverable recoverableRow
  dsimp only
  split
  next => rfl
  next =>
    split
    next => rfl
    next =>
      split
      next => rfl
      next => rfl

variable (table nowMs limit) in
/-- The loop finds something more exactly if one of the rows is recoverable. -/
theorem result_recoverable (rows : List (String × RowMap)) (out : List RunState) :
    ∃ found, result (listRunsToRecover.recoverable nowMs limit rows out) table = .ok (out ++ found) ∧
      (found ≠ [] ↔ ∃ row ∈ rows, recoverableRow table nowMs row) := by
  induction rows generalizing out with
  | nil => exact ⟨[], by simp [listRunsToRecover.recoverable]; rfl, by simp⟩
  | cons row rows inductionHypothesis =>
    unfold listRunsToRecover.recoverable result
    rw [alone_bind_ok (alone_isRecoverable row)]
    cases isRecoverable : recoverableRow table nowMs row with
    | false =>
      obtain ⟨found, same, iff_⟩ := inductionHypothesis out
      exact ⟨found, same, by simpa [isRecoverable] using iff_⟩
    | true =>
      simp only [if_pos]
      split
      next => exact ⟨[runFrom (trimKey "r#" row.1) row.2], rfl, by simp [isRecoverable]⟩
      next =>
        obtain ⟨found, same, -⟩ := inductionHypothesis (out ++ [runFrom (trimKey "r#" row.1) row.2])
        exact ⟨runFrom (trimKey "r#" row.1) row.2 :: found, by simpa [result] using same, by simp [isRecoverable]⟩

theorem finds_run_iff : Finds (listRunsToRecover nowMs limit) table ↔
    ∃ row ∈ firstRows table "r#" (mulI64 (max limit 1) 8).toNat, recoverableRow table nowMs row := by
  obtain ⟨found, same, iff_⟩ := result_recoverable table nowMs limit
    (firstRows table "r#" (mulI64 (max limit 1) 8).toNat) []
  have whole : result (listRunsToRecover nowMs limit) table = .ok found := same
  rw [← iff_, Finds, whole]
  cases found <;> simp

end Runs

/-! ## Effects -/

/-- An effect can be dispatched. -/
def DispatchDue (table : Contents) (now : Int) (connector : String) (key : String) : Prop :=
  ∃ m, table.read (rkEffect key) = some m ∧ awaitsDispatch now connector (effectFrom key m)

def Unsettled (table : Contents) (olderThanMs : Int) (includePending includeUnknown : Bool) (key : String) : Prop :=
  ∃ m, table.read (rkEffect key) = some m ∧ unsettled olderThanMs includePending includeUnknown m

section Effects

variable {α : Type} {table : Contents} {limit : Int}

theorem take_ne_nil_iff {found : List α} {cap : Int} (pos : 0 < cap) : found.take cap.toNat ≠ [] ↔ found ≠ [] := by
  simp only [ne_eq, List.take_eq_nil_iff, not_or, and_iff_right_iff_imp]
  omega

theorem insertionSort_ne_nil_iff {r : α → α → Prop} [DecidableRel r] {found : List α} :
    found.insertionSort r ≠ [] ↔ found ≠ [] := by
  rw [← List.length_pos_iff, List.length_insertionSort, List.length_pos_iff]

theorem finds_ok {program : BigtableM (List α)} {found : List α} (same : result program table = .ok found) :
    Finds program table ↔ found ≠ [] := by
  rw [Finds, same]
  cases found <;> simp

theorem finds_dispatch_iff {nowMs clock : Int} {connector : String} :
    Finds (listEffectsToDispatch nowMs connector limit clock) table ↔
    ∃ row ∈ firstRows table "e#" (satMulI64 (if 0 < limit then limit else 200) 32).toNat,
      awaitsDispatch (RunStore.claimTime nowMs clock) connector (effectFrom (trimKey "e#" row.1) row.2) := by
  have pos : 0 < if 0 < limit then limit else 200 := by split <;> omega
  rw [finds_ok (rfl : result (listEffectsToDispatch nowMs connector limit clock) table = .ok _), insertionSort_ne_nil_iff,
    take_ne_nil_iff pos]
  simp [List.filter_eq_nil_iff, firstRows, Op.exec]

theorem finds_pending_iff {olderThanMs : Int} {includePending includeUnknown : Bool} :
    Finds (listPendingEffects olderThanMs includePending includeUnknown limit) table ↔
      ∃ row ∈ firstRows table "e#" (mulI64 (max limit 1) 32).toNat,
        unsettled olderThanMs includePending includeUnknown row.2 := by
  rw [finds_ok (rfl : result (listPendingEffects olderThanMs includePending includeUnknown limit) table = .ok _),
    take_ne_nil_iff (by omega), insertionSort_ne_nil_iff]
  simp [List.filter_eq_nil_iff, firstRows, Op.exec]

end Effects

/-! ## Tasks -/

/-- A task of the reaction, and of the shard if there is one asked for, can be claimed. -/
def Claimable (table : Contents) (reactionId : String) (shard now : Int) (taskId : String) : Prop :=
  ∃ m, table.read (rkTask taskId) = some m ∧ gs m "reaction_id" = reactionId ∧ (shard < 0 ∨ asI32 (gi m "shard") = shard) ∧
    claimable now m

/-- What `claim_tasks` asks of a row of the index: the status of the task that it names is written as it is printed. -/
def ClaimableRow (table : Contents) (now : Int) (row : String × RowMap) : Prop :=
  gs row.2 "task_id" ≠ "" ∧ ∃ m, table.read (rkTask (gs row.2 "task_id")) = some m ∧ claimable now m ∧
    m.get? "status" = some (iv (gi m "status"))

section Tasks

variable {re2 : Re2} {owner : String} {leaseExp max now : Int} {table c : Contents}

/-- The loop keeps what it has. -/
theorem result_candidates_of_found (rows : List (String × RowMap)) (out : List TaskRecord) (c : Contents) :
    ∃ found, result (claimCandidates re2 owner leaseExp max now rows out) c = .ok found ∧ out <+: found := by
  induction rows generalizing out c with
  | nil => exact ⟨out, rfl, List.prefix_refl out⟩
  | cons row rows inductionHypothesis =>
    obtain ⟨key, idx⟩ := row
    unfold claimCandidates result
    dsimp only
    split
    next => exact ⟨out, rfl, List.prefix_refl out⟩
    next =>
      split
      next => exact inductionHypothesis out c
      next =>
        rw [alone_readRow]
        split
        next => exact inductionHypothesis out c
        next m found =>
          split
          next => exact inductionHypothesis out c
          next =>
            refine of_perform (claimTaskOp re2 (gs idx "task_id") owner leaseExp m)
              (fun returned => ∃ found, returned = .ok found ∧ out <+: found) ?_
            split
            next =>
              rw [alone_readRow]
              split
              next => exact inductionHypothesis out _
              next m' again =>
                obtain ⟨all, same, isPrefix⟩ := inductionHypothesis (out ++ [taskFrom (gs idx "task_id") m']) _
                exact ⟨all, same, (List.prefix_append _ _).trans isPrefix⟩
            next => exact inductionHypothesis out _

variable (owner leaseExp) in
/-- A claim of a task that was just read is won if the status of the task is written as it is printed. -/
theorem exec_claim (quotes : Quotes re2) {taskId : String} {m : RowMap} (isClaimable : claimable now m)
    (present : c.read (rkTask taskId) = some m) :
    ((claimTaskOp re2 taskId owner leaseExp m).exec c).1 = decide (m.get? "status" = some (iv (gi m "status"))) ∧
      ((claimTaskOp re2 taskId owner leaseExp m).exec c).2 = c.mutate (rkTask taskId)
        (if m.get? "status" = some (iv (gi m "status")) then claimTaskMutations owner leaseExp (gi m "attempts") else []) := by
  have decided : (predicateQualifierEquals re2 "status" (iv (gi m "status"))).accepts (c.cells (rkTask taskId)) =
      decide (m.get? "status" = some (iv (gi m "status"))) := by
    rw [Contents.cells_of_read present, Bool.eq_iff_iff, TaskLease.accepts_status quotes isClaimable m, decide_eq_true_iff]
  refine ⟨decided, ?_⟩
  show c.mutate _ (Op.taken _ _ ((predicateQualifierEquals re2 "status" (iv (gi m "status"))).accepts _)) = _
  rw [decided]
  by_cases status : m.get? "status" = some (iv (gi m "status")) <;> simp [Op.taken, status]

theorem ClaimableRow.congr {row : String × RowMap} (isClaimable : ClaimableRow c now row)
    (same : table.read (rkTask (gs row.2 "task_id")) = c.read (rkTask (gs row.2 "task_id"))) : ClaimableRow table now row := by
  obtain ⟨named, m, found, facts⟩ := isClaimable
  exact ⟨named, m, same.trans found, facts⟩

variable (owner leaseExp) in
/-- A claim that asks for enough returns every task that it can. -/
theorem result_candidates_of_row (quotes : Quotes re2) {taskId : String} (rows : List (String × RowMap))
    {out : List TaskRecord} (enough : (out.length + rows.length : Int) ≤ max)
    (either : (∃ task ∈ out, task.taskId = taskId) ∨ ∃ row ∈ rows, gs row.2 "task_id" = taskId ∧ ClaimableRow c now row) :
    ∃ found, result (claimCandidates re2 owner leaseExp max now rows out) c = .ok found ∧
      ∃ task ∈ found, task.taskId = taskId := by
  induction rows generalizing out c with
  | nil =>
    refine ⟨out, rfl, either.resolve_right ?_⟩
    rintro ⟨row, member, -⟩
    cases member
  | cons row rows inductionHypothesis =>
    obtain ⟨key, idx⟩ := row
    have room : (out.length + rows.length : Int) + 1 ≤ max := by simpa [add_assoc] using enough
    -- where the row is passed over, it is not the one
    have further (c' : Contents) (same : ∀ key, c'.read key = c.read key) (other : ¬ ClaimableRow c now (key, idx)) :
        ∃ found, result (claimCandidates re2 owner leaseExp max now rows out) c' = .ok found ∧
          ∃ task ∈ found, task.taskId = taskId := by
      refine inductionHypothesis (by omega) (either.imp_right ?_)
      rintro ⟨row, member, named, isClaimable⟩
      rcases List.mem_cons.mp member with rfl | member
      · exact absurd isClaimable other
      · exact ⟨row, member, named, isClaimable.congr (same _)⟩
    unfold claimCandidates
    dsimp only
    rw [if_neg (by omega)]
    split
    next unnamed => exact further c (fun _ => rfl) fun isClaimable => isClaimable.1 unnamed
    next named =>
      unfold result
      rw [alone_readRow]
      split
      next absent => exact further c (fun _ => rfl) fun ⟨_, m, found, _⟩ => by simp [absent] at found
      next m present =>
        split
        next not_ =>
          refine further c (fun _ => rfl) fun ⟨_, m', found, isClaimable, _⟩ => ?_
          obtain rfl := Option.some.inj (present.symm.trans found)
          simp [isClaimable] at not_
        next yes =>
          obtain ⟨matched, state⟩ := exec_claim owner leaseExp quotes (by simpa using yes) present
          refine of_perform (claimTaskOp re2 (gs idx "task_id") owner leaseExp m)
            (fun returned => ∃ found : List TaskRecord, returned = .ok found ∧ ∃ task ∈ found, task.taskId = taskId) ?_
          rw [matched, state]
          by_cases status : m.get? "status" = some (iv (gi m "status"))
          · have kept : Mutation.applyAll (claimTaskMutations owner leaseExp (gi m "attempts"))
                (c.cells (rkTask (gs idx "task_id"))) ≠ [] := List.cons_ne_nil _ _
            simp only [status, decide_true, if_pos]
            rw [alone_readRow, Contents.read_mutate_self kept]
            refine inductionHypothesis (by simp only [List.length_append, List.length_singleton]; omega) ?_
            by_cases own : gs idx "task_id" = taskId
            · exact .inl ⟨_, List.mem_append_right _ List.mem_cons_self, own⟩
            · refine either.imp (fun ⟨task, member, same⟩ => ⟨task, List.mem_append_left _ member, same⟩) ?_
              rintro ⟨row, member, isNamed, isClaimable⟩
              rcases List.mem_cons.mp member with rfl | member
              · exact absurd isNamed own
              · refine ⟨row, member, isNamed, isClaimable.congr (Contents.read_mutate_ne c _ fun same => own ?_)⟩
                exact (TaskLease.rkTask_injective same).trans isNamed
          · simp only [status, decide_false, Bool.false_eq_true, if_false]
            refine further _ (fun other => Contents.read_mutate_nil _ _ _) fun ⟨_, m', found, _, printed⟩ => ?_
            obtain rfl := Option.some.inj (present.symm.trans found)
            exact status printed

variable (owner leaseExp now) in
/-- As long as it has nothing, nothing has changed. -/
theorem result_candidates (quotes : Quotes re2) (pos : 0 < max) (rows : List (String × RowMap))
    (same : ∀ key, c.read key = table.read key) :
    ∃ found, result (claimCandidates re2 owner leaseExp max now rows []) c = .ok found ∧
      (found ≠ [] ↔ ∃ row ∈ rows, ClaimableRow table now row) := by
  induction rows generalizing c with
  | nil => exact ⟨[], rfl, by simp⟩
  | cons row rows inductionHypothesis =>
    -- a candidate that is passed over leaves everything as it was
    have further (c' : Contents) (same : ∀ key, c'.read key = table.read key) (other : ¬ ClaimableRow table now row) :
        ∃ found, result (claimCandidates re2 owner leaseExp max now rows []) c' = .ok found ∧
          (found ≠ [] ↔ ∃ other ∈ row :: rows, ClaimableRow table now other) := by
      obtain ⟨found, returned, iff_⟩ := inductionHypothesis same
      exact ⟨found, returned, by simpa [other] using iff_⟩
    obtain ⟨key, idx⟩ := row
    unfold claimCandidates
    dsimp only
    rw [if_neg (by simpa using pos)]
    split
    next unnamed => exact further c same fun isClaimable => isClaimable.1 unnamed
    next named =>
      unfold result
      rw [alone_readRow]
      split
      next absent =>
        rw [same] at absent
        exact further c same fun ⟨_, m, found, _⟩ => by simp [absent] at found
      next m present =>
        have stored := present
        rw [same] at stored
        split
        next not_ =>
          refine further c same fun ⟨_, m', found, isClaimable, _⟩ => ?_
          obtain rfl := Option.some.inj (stored.symm.trans found)
          simp [isClaimable] at not_
        next yes =>
          have isClaimable : claimable now m := by simpa using yes
          obtain ⟨matched, state⟩ := exec_claim owner leaseExp quotes isClaimable present
          refine of_perform (claimTaskOp re2 (gs idx "task_id") owner leaseExp m) (fun returned => ∃ found, returned = .ok found ∧
            (found ≠ [] ↔ ∃ other ∈ (key, idx) :: rows, ClaimableRow table now other)) ?_
          rw [matched, state]
          by_cases status : m.get? "status" = some (iv (gi m "status"))
          · -- the CAS won: the row is read again, and `found` only grows from here
            have kept : Mutation.applyAll (claimTaskMutations owner leaseExp (gi m "attempts"))
                (c.cells (rkTask (gs idx "task_id"))) ≠ [] := List.cons_ne_nil _ _
            simp only [status, decide_true, if_pos]
            rw [alone_readRow, Contents.read_mutate_self kept]
            obtain ⟨all, returned, isPrefix⟩ := result_candidates_of_found rows [taskFrom (gs idx "task_id")
              (Mutation.applyAll (claimTaskMutations owner leaseExp (gi m "attempts")) (c.cells (rkTask (gs idx "task_id"))))] _
            refine ⟨all, returned, iff_of_true ?_ ⟨(key, idx), List.mem_cons_self, named, m, stored, isClaimable, status⟩⟩
            rintro rfl
            simp at isPrefix
          · simp only [status, decide_false, Bool.false_eq_true, if_false]
            -- the status is not printed as the CAS prints it, so the CAS never matches
            refine further _ (fun other => (Contents.read_mutate_nil _ _ _).trans (same other))
              fun ⟨_, m', found, _, printed⟩ => ?_
            obtain rfl := Option.some.inj (stored.symm.trans found)
            exact status printed

/-- The prefix of the index rows that `claim_tasks` scans. -/
def pendingStart (reactionId : String) (shard : Int) : String :=
  if shard < 0 then "pending#" ++ reactionId ++ "#" else "pending#" ++ reactionId ++ "#" ++ pad10 shard ++ "#"

theorem finds_task_iff (quotes : Quotes re2) (named : owner ≠ "") {reactionId : String} {shard leaseMs nowMs clock : Int} :
    Finds (claimTasks re2 reactionId shard owner leaseMs max nowMs clock) table ↔
      ∃ row ∈ firstRows table (pendingStart reactionId shard) (Max.max ((if 0 < max then max else 16) * 8) 64).toNat,
        ClaimableRow table (RunStore.claimTime nowMs clock) row := by
  have pos : 0 < if 0 < max then max else 16 := by split <;> omega
  obtain ⟨found, same, iff_⟩ := result_candidates owner (addI64 (RunStore.claimTime nowMs clock) (claimTtlMs leaseMs))
    (RunStore.claimTime nowMs clock) quotes pos
    (firstRows table (pendingStart reactionId shard) (Max.max ((if 0 < max then max else 16) * 8) 64).toNat)
    (fun key => (rfl : table.read key = table.read key))
  have whole : result (claimTasks re2 reactionId shard owner leaseMs max nowMs clock) table = .ok found := by
    unfold claimTasks
    rw [if_neg named]
    exact same
  rw [finds_ok whole, iff_]

end Tasks

/-! ## What is found -/

/-- Where there is work of a kind, the method that lists it finds some. -/
structure FindsWork (re2 : Re2) (table : Contents) (limit : Int) : Prop where
  runs : ∀ nowMs, (∃ runId, Recoverable table nowMs runId) → Finds (listRunsToRecover nowMs limit) table
  dispatch : ∀ nowMs connector clock, (∃ key, DispatchDue table (RunStore.claimTime nowMs clock) connector key) →
    Finds (listEffectsToDispatch nowMs connector limit clock) table
  pending : ∀ olderThanMs includePending includeUnknown,
    (∃ key, Unsettled table olderThanMs includePending includeUnknown key) →
      Finds (listPendingEffects olderThanMs includePending includeUnknown limit) table
  tasks : ∀ reactionId shard owner leaseMs nowMs clock, owner ≠ "" →
    (∃ taskId, Claimable table reactionId shard (RunStore.claimTime nowMs clock) taskId) →
      Finds (claimTasks re2 reactionId shard owner leaseMs limit nowMs clock) table

/-- Where there is work of a kind, there is some among the first rows of the scan. -/
structure WithinReach (table : Contents) (limit : Int) : Prop where
  runs : ∀ nowMs, (∃ runId, Recoverable table nowMs runId) →
    ∃ row ∈ firstRows table "r#" (mulI64 (max limit 1) 8).toNat, recoverableRow table nowMs row
  dispatch : ∀ now connector, (∃ key, DispatchDue table now connector key) →
    ∃ row ∈ firstRows table "e#" (satMulI64 (if 0 < limit then limit else 200) 32).toNat,
      awaitsDispatch now connector (effectFrom (trimKey "e#" row.1) row.2)
  pending : ∀ olderThanMs includePending includeUnknown,
    (∃ key, Unsettled table olderThanMs includePending includeUnknown key) →
      ∃ row ∈ firstRows table "e#" (mulI64 (max limit 1) 32).toNat, unsettled olderThanMs includePending includeUnknown row.2
  tasks : ∀ reactionId shard now, (∃ taskId, Claimable table reactionId shard now taskId) →
    ∃ row ∈ firstRows table (pendingStart reactionId shard) (max ((if 0 < limit then limit else 16) * 8) 64).toNat,
      ClaimableRow table now row

/-- **A bounded scan finds work exactly where some is within its bound.** -/
theorem findsWork_iff (re2 : Re2) (quotes : Quotes re2) (table : Contents) (limit : Int) :
    FindsWork re2 table limit ↔ WithinReach table limit := by
  constructor
  · intro finds
    refine ⟨fun nowMs some_ => finds_run_iff.mp (finds.runs nowMs some_), ?_, ?_, ?_⟩
    · intro now connector some_
      exact finds_dispatch_iff.mp (finds.dispatch 0 connector now some_)
    · intro olderThanMs includePending includeUnknown some_
      exact finds_pending_iff.mp (finds.pending olderThanMs includePending includeUnknown some_)
    · intro reactionId shard now some_
      have named : "dispatcher" ≠ "" := by decide
      exact (finds_task_iff quotes named).mp (finds.tasks reactionId shard "dispatcher" 0 0 now named some_)
  · intro reach
    refine ⟨fun nowMs some_ => finds_run_iff.mpr (reach.runs nowMs some_), ?_, ?_, ?_⟩
    · intro nowMs connector clock some_
      exact finds_dispatch_iff.mpr (reach.dispatch _ connector some_)
    · intro olderThanMs includePending includeUnknown some_
      exact finds_pending_iff.mpr (reach.pending olderThanMs includePending includeUnknown some_)
    · intro reactionId shard owner leaseMs nowMs clock named some_
      exact (finds_task_iff quotes named).mpr (reach.tasks reactionId shard _ some_)

/-- A table with one task, and its row in the index. -/
def oneTask : Contents :=
  (Contents.empty.write "task#t" [("reaction_id", "r"), ("status", "1")]).write "pending#r#0000000000#t" [("task_id", "t")]

theorem read_oneTask {key : String} {m : RowMap} (found : oneTask.read key = some m) :
    key = "task#t" ∧ m = [("reaction_id", "r"), ("status", "1")] ∨ key = "pending#r#0000000000#t" ∧ m = [("task_id", "t")] := by
  simp only [oneTask, Contents.read_write, List.cons_ne_nil, if_false] at found
  split at found
  next same => exact .inr ⟨same.symm, (Option.some.inj found).symm⟩
  next =>
    split at found
    next same => exact .inl ⟨same.symm, (Option.some.inj found).symm⟩
    next => cases found

/-- Whoever asks for the tasks of the reaction gets it. -/
theorem findsWork_oneTask : FindsWork TaskLease.quoting oneTask 1 := by
  refine (findsWork_iff TaskLease.quoting TaskLease.quoting_quotes oneTask 1).mpr ⟨?_, ?_, ?_, ?_⟩
  · rintro nowMs ⟨runId, m, found, -⟩
    rcases read_oneTask found with ⟨same, -⟩ | ⟨same, -⟩ <;> simp [rkRun, ← String.toList_inj] at same
  · rintro now connector ⟨key, m, found, -⟩
    rcases read_oneTask found with ⟨same, -⟩ | ⟨same, -⟩ <;> simp [rkEffect, ← String.toList_inj] at same
  · rintro olderThanMs includePending includeUnknown ⟨key, m, found, -⟩
    rcases read_oneTask found with ⟨same, -⟩ | ⟨same, -⟩ <;> simp [rkEffect, ← String.toList_inj] at same
  · rintro reactionId shard now ⟨taskId, m, found, rfl, own, isClaimable⟩
    rcases read_oneTask found with ⟨same, rfl⟩ | ⟨same, -⟩
    · obtain rfl : taskId = "t" := TaskLease.rkTask_injective (show rkTask taskId = rkTask "t" from same)
      have indexed : ("pending#r#0000000000#t", [("task_id", "t")]) ∈ firstRows oneTask (pendingStart "r" shard) 64 := by
        rcases own with any | rfl
        · rw [pendingStart, if_pos any]
          decide +kernel
        · decide +kernel
      exact ⟨_, indexed, by decide, _, found, isClaimable, by decide⟩
    · simp [rkTask, ← String.toList_inj] at same

/-- Eight runs that have ended, and then one that can be taken up. -/
def endedRuns : Contents :=
  (["0", "1", "2", "3", "4", "5", "6", "7"].foldl (fun c n => c.write ("r#" ++ n) [("status", "4")]) Contents.empty).write "r#8"
    [("status", "1")]

/-- The runs that have ended are all that is looked at. -/
theorem not_findsWork : ¬ FindsWork TaskLease.quoting endedRuns 1 := by
  intro finds
  have recoverable : Recoverable endedRuns 0 "8" := ⟨[("status", "1")], by decide +kernel, .inl (by decide +kernel)⟩
  obtain ⟨first, rest, same⟩ := finds.runs 0 ⟨"8", recoverable⟩
  have nothing : (result (listRunsToRecover 0 1) endedRuns).toOption.map List.length = some 0 := by decide +kernel
  rw [same] at nothing
  simp [Except.toOption] at nothing

end Scans

end Tape.BigtableRunStore
