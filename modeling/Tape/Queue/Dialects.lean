import Mathlib.Data.Prod.Lex
import Tape.Rules
import Tape.Sql.Window

/-! # Two dialects of `claim_tasks`

Postgres claims in one statement, an `UPDATE` of the rows a CTE has picked, and SQLite in a loop: a
`SELECT` of the candidates and a conditional `UPDATE` for each.  The Postgres statement numbers its
parameters as if the shard were always bound, and the vector of parameters leaves it out for `shard < 0`.
Every integer is bound as an `i64`, whatever the type that the statement gives the parameter; whether the
driver takes it for a `SMALLINT` and an `INTEGER` is its own affair.
-/

namespace Tape.Queue

open Sql Interleave

/-- The arguments of `claim_tasks`, and the clock. -/
structure ClaimRequest where
  reactionId : String
  shard : Int
  owner : String
  leaseMs : Int
  max : Int
  nowMs : Int
  clock : Int

namespace ClaimRequest

variable (r : ClaimRequest)

def limit : Int := if 0 < r.max then r.max else 16

def now : Int := RunStore.claimTime r.nowMs r.clock

def leaseExp : Int := addI64 r.now (if 0 < r.leaseMs then r.leaseMs else 60000)

theorem limit_pos : 0 < r.limit := by
  unfold limit
  split <;> omega

end ClaimRequest

/-- `(next_attempt_at_ms, created_at_ms)`. -/
def dueKey (row : Task) : Int ×ₗ Int := toLex (row.nextAttemptAtMs, row.createdAtMs)

/-- A database's way to `ORDER BY next_attempt_at_ms, created_at_ms`.  Rows that agree in both come in an
    order of the database's own. -/
structure TieBreak where
  sort : List Task → List Task
  perm : ∀ rows, (sort rows).Perm rows
  sorted : ∀ rows, (sort rows).Pairwise fun a b => dueKey a ≤ dueKey b

/-! ## The Postgres statement -/

inductive Val where
  | int (n : Int)
  | text (s : String)
  deriving DecidableEq, Repr

/-- The parameter vector; `?n` is its `n`-th entry. -/
def claimParams (r : ClaimRequest) : List Val :=
  [.text r.reactionId, .int TaskStatus.pending.code, .int r.now, .int TaskStatus.claimed.code, .int r.limit,
    .text r.owner] ++ (if 0 ≤ r.shard then [.int r.shard] else []) ++ [.int r.leaseExp]

/-- The integer types of `tape_tasks`. -/
inductive PgType where
  | int2
  | int4
  | int8
  deriving DecidableEq, Repr

def unbound (n : Nat) : StoreError := .msg ("there is no parameter $" ++ toString n)

def wrongType (n : Nat) : StoreError := .msg ("error serializing parameter " ++ toString (n - 1))

/-- A parameter of the type `type`; `binds` are the types that the driver takes an `i64` for. -/
def intParam (binds : PgType → Bool) (params : List Val) (type : PgType) (n : Nat) : Except StoreError Int :=
  match params[n - 1]? with
  | some (.int value) => if binds type then .ok value else .error (wrongType n)
  | _ => .error (unbound n)

def textParam (params : List Val) (n : Nat) : Except StoreError String :=
  match params[n - 1]? with
  | some (.text value) => .ok value
  | _ => .error (unbound n)

/-- What the statement's parameters stand for. -/
structure Bindings where
  reactionId : String
  pending : Int
  now : Int
  claimed : Int
  limit : Int
  owner : String
  shard : Option Int
  leaseExp : Int

/-- The parameters the statement refers to, of the types of the columns they are compared with or written to; `?7` only
    where it has a clause on the shard. -/
def bindings (binds : PgType → Bool) (r : ClaimRequest) : Except StoreError Bindings := do
  let params := claimParams r
  let reactionId ← textParam params 1
  let pending ← intParam binds params .int2 2
  let now ← intParam binds params .int8 3
  let claimed ← intParam binds params .int2 4
  let limit ← intParam binds params .int8 5
  let owner ← textParam params 6
  let shard ← if r.shard < 0 then pure none else some <$> intParam binds params .int4 7
  let leaseExp ← intParam binds params .int8 8
  return { reactionId, pending, now, claimed, limit, owner, shard, leaseExp }

namespace Bindings

variable (b : Bindings)

/-- The `WHERE` of the CTE. -/
def selects (row : Task) : Bool :=
  row.reactionId = b.reactionId &&
    ((row.status = b.pending && row.nextAttemptAtMs ≤ b.now) ||
      (row.status = b.claimed && row.leaseExpiresAtMs < b.now)) &&
    b.shard.all fun shard => row.shard = shard

/-- The `SET` of the `UPDATE`. -/
def claim : Update Task.pk where
  apply row :=
    { row with
      status := b.claimed, leaseOwner := b.owner, leaseExpiresAtMs := b.leaseExp, attempts := row.attempts + 1 }
  key_apply _ := rfl

end Bindings

def ownerRequired : StoreError := .msg "claim_tasks: owner is required"

/-- The Postgres path, with nobody else on the table. -/
def postgresClaim (binds : PgType → Bool) (order : TieBreak) (r : ClaimRequest) (w : World) :
    Except StoreError (List Task) × World :=
  if r.owner.isEmpty then (.error ownerRequired, w)
  else match bindings binds r with
    | .error e => (.error e, w)
    | .ok b =>
      let picked := (limitRows b.limit (order.sort (w.tasks.rows.filter b.selects))).map Task.taskId
      let isPicked (row : Task) : Bool := row.taskId ∈ picked
      match w.tasks.update? isPicked b.claim with
      | some tasks => (.ok ((w.tasks.rows.filter isPicked).map b.claim.apply), { w with tasks })
      | none => (.error (constraintFailed "tape_tasks"), w)

/-! ## The SQLite loop -/

/-- The `WHERE` of the candidates. -/
def eligible (r : ClaimRequest) (row : Task) : Bool :=
  row.reactionId = r.reactionId && TaskStmt.claimable r.now row && (r.shard < 0 || row.shard = r.shard)

/-- The rows that the `SELECT` picks. -/
def picked (order : TieBreak) (r : ClaimRequest) (w : World) : List Task :=
  limitRows r.limit (order.sort (w.tasks.rows.filter (eligible r)))

/-- The SQLite path, with nobody else on the table. -/
def sqliteClaim (order : TieBreak) (r : ClaimRequest) (w : World) : Except StoreError (List Task) × World :=
  if r.owner.isEmpty then (.error ownerRequired, w)
  else tape.alone (RunStore.claimCandidates r.owner r.leaseExp r.now ((picked order r w).map Task.taskId)).run w

/-- Ties in the order of the table. -/
def inTableOrder : TieBreak where
  sort := orderBy₂ Task.nextAttemptAtMs Task.createdAtMs
  perm rows := List.perm_insertionSort _ rows
  sorted rows := by
    have same : ∀ a b : Task, (a.nextAttemptAtMs < b.nextAttemptAtMs ∨
        (a.nextAttemptAtMs = b.nextAttemptAtMs ∧ a.createdAtMs ≤ b.createdAtMs)) ↔ dueKey a ≤ dueKey b :=
      fun a b => by simp only [dueKey, Prod.Lex.toLex_le_toLex]
    simp only [orderBy₂, same]
    apply List.pairwise_insertionSort

/-- The store's own method is the loop with ties in the order of the table. -/
theorem sqliteClaim_inTableOrder (r : ClaimRequest) (w : World) :
    sqliteClaim inTableOrder r w =
      tape.alone (RunStore.claimTasks r.reactionId r.shard r.owner r.leaseMs r.max r.nowMs r.clock).run w := by
  unfold sqliteClaim RunStore.claimTasks
  split
  next => rfl
  next => rfl

/-! ## What each of them leaves -/

/-- A row as either path claims it. -/
def taken (r : ClaimRequest) (row : Task) : Task :=
  { row with
    status := TaskStatus.claimed.code, leaseOwner := r.owner, leaseExpiresAtMs := r.leaseExp
    attempts := row.attempts + 1 }

/-- The rows with these ids claimed, and nothing else. -/
structure Claims (r : ClaimRequest) (ids : List String) (w : World) (tasks : List Task) (w' : World) : Prop where
  returned : ∀ task, task ∈ tasks ↔ ∃ row ∈ w.tasks.rows, row.taskId ∈ ids ∧ task = taken r row
  rows : w'.tasks.rows = w.tasks.rows.map fun row => if row.taskId ∈ ids then taken r row else row

/-- The bindings where the shard is bound. -/
def boundTo (r : ClaimRequest) : Bindings where
  reactionId := r.reactionId
  pending := TaskStatus.pending.code
  now := r.now
  claimed := TaskStatus.claimed.code
  limit := r.limit
  owner := r.owner
  shard := some r.shard
  leaseExp := r.leaseExp

theorem bindings_of_bound {binds : PgType → Bool} (every : ∀ type, binds type) {r : ClaimRequest} (bound : 0 ≤ r.shard) :
    bindings binds r = .ok (boundTo r) := by
  simp [bindings, claimParams, textParam, intParam, every, bound, not_lt.mpr bound]
  rfl

/-- Without the shard there are seven parameters, and the lease expiry is `?8`. -/
theorem bindings_of_any {binds : PgType → Bool} (every : ∀ type, binds type) {r : ClaimRequest} (any : r.shard < 0) :
    bindings binds r = .error (unbound 8) := by
  simp [bindings, claimParams, textParam, intParam, every, any, not_le.mpr any]
  rfl

/-- The first integer is a status, and `status` is a `SMALLINT`. -/
theorem bindings_of_smallint {binds : PgType → Bool} (refused : binds .int2 = false) (r : ClaimRequest) :
    bindings binds r = .error (wrongType 2) := by
  simp [bindings, claimParams, textParam, intParam, refused]
  rfl

theorem selects_boundTo {r : ClaimRequest} (bound : 0 ≤ r.shard) (row : Task) :
    (boundTo r).selects row = eligible r row := by
  simp [Bindings.selects, eligible, boundTo, TaskStmt.claimable, not_lt.mpr bound]
  rfl

theorem postgres_claims {binds : PgType → Bool} (every : ∀ type, binds type) (order : TieBreak) {r : ClaimRequest}
    {w : World} (named : r.owner ≠ "") (bound : 0 ≤ r.shard) :
    ∃ tasks w', postgresClaim binds order r w = (.ok tasks, w') ∧ Claims r ((picked order r w).map Task.taskId) w tasks w' := by
  have ids : limitRows (boundTo r).limit (order.sort (w.tasks.rows.filter (boundTo r).selects)) = picked order r w := by
    simp only [picked, funext (selects_boundTo bound)]
    rfl
  obtain ⟨tasks, updated, table⟩ := UniqueTable.update?_of_index (t := w.tasks) (u := (boundTo r).claim)
    (fun row => decide (row.taskId ∈ (picked order r w).map Task.taskId)) fun _ => rfl
  have executed : postgresClaim binds order r w =
      (.ok ((w.tasks.rows.filter fun row => decide (row.taskId ∈ (picked order r w).map Task.taskId)).map
        (boundTo r).claim.apply), { w with tasks }) := by
    have unnamed : ¬ r.owner.isEmpty := by simpa using named
    simp only [postgresClaim, if_neg unnamed, bindings_of_bound every bound, ids, updated]
  refine ⟨_, _, executed, fun task => ?_, ?_⟩
  · simp only [List.mem_map (f := (boundTo r).claim.apply), List.mem_filter, decide_eq_true_eq]
    constructor
    · rintro ⟨row, ⟨member, isPicked⟩, rfl⟩
      exact ⟨row, member, isPicked, rfl⟩
    · rintro ⟨row, member, isPicked, rfl⟩
      exact ⟨row, ⟨member, isPicked⟩, rfl⟩
  · simp only [table, Table.update, decide_eq_true_eq]
    rfl

/-- The row with this id claimed. -/
def First (r : ClaimRequest) (taskId : String) (w w₁ : World) : Prop :=
  w₁.tasks.rows = w.tasks.rows.map fun other => if other.taskId = taskId then taken r other else other

theorem First.mem_iff {r : ClaimRequest} {taskId : String} {w w₁ : World} (first : First r taskId w w₁) {other : Task}
    (differs : other.taskId ≠ taskId) : other ∈ w₁.tasks.rows ↔ other ∈ w.tasks.rows := by
  rw [first, List.mem_map]
  constructor
  · rintro ⟨before, member, isOther⟩
    split at isOther
    next isFirst =>
      have own : (taken r before).taskId = other.taskId := congrArg Task.taskId isOther
      exact absurd (own ▸ isFirst) differs
    next => exact isOther ▸ member
  · exact fun member => ⟨other, member, if_neg differs⟩

/-- One row claimed, and then the rest. -/
theorem Claims.cons {r : ClaimRequest} {ids : List String} {w w₁ w₂ : World} {tasks : List Task} {row : Task}
    (member : row ∈ w.tasks.rows) (fresh : row.taskId ∉ ids) (first : First r row.taskId w w₁)
    (rest : Claims r ids w₁ tasks w₂) : Claims r (row.taskId :: ids) w (taken r row :: tasks) w₂ where
  returned task := by
    have same : ∀ other : Task, other.taskId ∈ ids → (other ∈ w₁.tasks.rows ↔ other ∈ w.tasks.rows) :=
      fun other listed => first.mem_iff fun isRow => fresh (isRow ▸ listed)
    rw [List.mem_cons, rest.returned]
    constructor
    · rintro (rfl | ⟨other, memberOther, listed, rfl⟩)
      · exact ⟨row, member, List.mem_cons_self, rfl⟩
      · exact ⟨other, (same other listed).mp memberOther, List.mem_cons_of_mem _ listed, rfl⟩
    · rintro ⟨other, memberOther, listed, rfl⟩
      rcases List.mem_cons.mp listed with isRow | listed
      · rw [List.inj_on_of_nodup_map w.tasks.nodup memberOther member isRow]
        exact .inl rfl
      · exact .inr ⟨other, (same other listed).mpr memberOther, listed, rfl⟩
  rows := by
    rw [rest.rows, first, List.map_map]
    apply List.map_congr_left
    intro other _
    by_cases isRow : other.taskId = row.taskId
    · simp [isRow, taken, fresh]
    · simp [isRow]

/-- One turn of the loop, on a row that is claimable. -/
theorem candidate_claimed {r : ClaimRequest} {w : World} {row : Task} (member : row ∈ w.tasks.rows)
    (claimable : TaskStmt.claimable r.now row) (ids : List String) :
    ∃ w₁, First r row.taskId w w₁ ∧
      tape.alone (RunStore.claimCandidates r.owner r.leaseExp r.now (row.taskId :: ids)).run w =
        tape.alone (do
          let claimed ← RunStore.claimCandidates r.owner r.leaseExp r.now ids
          return taken r row :: claimed : StoreM (List Task)).run w₁ := by
  let claim : TaskStmt := .claimTask row.taskId r.owner r.leaseExp r.now
  have selected : claim.selects row := by
    simp [claim, TaskStmt.selects, claimable]
  -- only a coalescing UPDATE can be refused
  obtain ⟨updated, executed, table⟩ : ∃ updated, TaskStmt.exec.update claim w = (.ok (w.tasks.count claim.selects), updated) ∧
      updated.toTable = w.tasks.toTable.update claim.selects claim.set := by
    rcases TaskStmt.update_cases claim w with done | refused
    · exact done
    · obtain ⟨updated, done⟩ := TaskStmt.update_of_not_coalesce (w := w) (s := claim) rfl
      rw [refused] at done
      cases done
  refine ⟨{ w with tasks := updated }, ?_, ?_⟩
  · show updated.rows = _
    rw [table]
    refine List.map_congr_left fun other memberOther => ?_
    by_cases isRow : other.taskId = row.taskId
    · obtain rfl := List.inj_on_of_nodup_map w.tasks.nodup memberOther member isRow
      rw [if_pos selected, if_pos rfl]
      rfl
    · simp [claim, TaskStmt.selects, isRow]
  · have found : w.tasks.find? row.taskId = some row := Table.find?_key_of_mem member
    have changed : w.tasks.count claim.selects ≠ 0 := (Table.count_pos_of_find? found selected).ne'
    -- what the loop reads back is the row as claimed
    have readBack : updated.find? row.taskId = some (taken r row) := by
      rw [table, Table.find?_update, found, Option.map_some, if_pos selected]
      rfl
    rw [RunStore.claimCandidates]
    refine (alone_query (s := .task claim) (congrArg Prod.fst executed)).trans ?_
    have left : ((Stmt.task claim).exec w).2 = { w with tasks := updated } := by
      show { w with tasks := (TaskStmt.exec.update claim w).2 } = _
      rw [executed]
    rw [left, if_neg changed]
    refine (alone_query (s := .task (.getTask row.taskId)) (congrArg Except.ok readBack)).trans ?_
    rfl

/-- The loop over candidates that are all claimable claims all of them. -/
theorem candidates_claims {r : ClaimRequest} (ids : List String) (distinct : ids.Nodup) (w : World)
    (claimable : ∀ id ∈ ids, ∃ row ∈ w.tasks.rows, row.taskId = id ∧ TaskStmt.claimable r.now row) :
    ∃ tasks w', tape.alone (RunStore.claimCandidates r.owner r.leaseExp r.now ids).run w = (.ok tasks, w') ∧
      Claims r ids w tasks w' := by
  induction ids generalizing w with
  | nil => exact ⟨[], w, rfl, by simp, by simp⟩
  | cons id ids inductionHypothesis =>
    obtain ⟨row, member, rfl, due⟩ := claimable id List.mem_cons_self
    obtain ⟨fresh, distinct⟩ := List.nodup_cons.mp distinct
    obtain ⟨w₁, first, isFirst⟩ := candidate_claimed member due ids
    have rest : ∀ id ∈ ids, ∃ other ∈ w₁.tasks.rows, other.taskId = id ∧ TaskStmt.claimable r.now other := by
      intro id listed
      obtain ⟨other, memberOther, rfl, dueOther⟩ := claimable id (List.mem_cons_of_mem _ listed)
      have differs : other.taskId ≠ row.taskId := fun isRow => fresh (isRow ▸ listed)
      exact ⟨other, (first.mem_iff differs).mpr memberOther, rfl, dueOther⟩
    obtain ⟨tasks, w', done, claims⟩ := inductionHypothesis distinct w₁ rest
    refine ⟨taken r row :: tasks, w', ?_, claims.cons member fresh first⟩
    rw [isFirst, alone_seq done]
    rfl

/-- Picked rows are eligible rows of the table. -/
theorem mem_of_picked {order : TieBreak} {r : ClaimRequest} {w : World} {row : Task} (isPicked : row ∈ picked order r w) :
    row ∈ w.tasks.rows ∧ eligible r row :=
  List.mem_filter.mp ((order.perm _).mem_iff.mp (mem_of_mem_limitRows isPicked))

theorem picked_eq_take (order : TieBreak) (r : ClaimRequest) (w : World) :
    picked order r w = (order.sort (w.tasks.rows.filter (eligible r))).take r.limit.toNat := by
  rw [picked, limitRows, if_neg (not_lt.mpr r.limit_pos.le)]

theorem sqlite_claims (order : TieBreak) {r : ClaimRequest} {w : World} (named : r.owner ≠ "") :
    ∃ tasks w', sqliteClaim order r w = (.ok tasks, w') ∧ Claims r ((picked order r w).map Task.taskId) w tasks w' := by
  have unnamed : ¬ r.owner.isEmpty := by simpa using named
  rw [sqliteClaim, if_neg unnamed]
  refine candidates_claims _ ?_ w fun id listed => ?_
  · -- no task is picked twice
    have sorted : ((order.sort (w.tasks.rows.filter (eligible r))).map Task.taskId).Nodup :=
      ((order.perm _).map _).nodup_iff.mpr (w.tasks.nodup.sublist (List.filter_sublist.map _))
    rw [picked_eq_take]
    exact sorted.sublist ((List.take_sublist _ _).map _)
  · obtain ⟨row, isPicked, rfl⟩ := List.mem_map.mp listed
    obtain ⟨member, due⟩ := mem_of_picked isPicked
    simp only [eligible, Bool.and_eq_true] at due
    exact ⟨row, member, rfl, due.1.2⟩

/-! ## Where they agree -/

/-- Both fail and leave the same table, or both return the same tasks and leave the same table. -/
def Agree (postgres sqlite : Except StoreError (List Task) × World) : Prop :=
  ((∃ tasks tasks', postgres.1 = .ok tasks ∧ sqlite.1 = .ok tasks' ∧ ∀ task, task ∈ tasks ↔ task ∈ tasks') ∨
    ∃ e e', postgres.1 = .error e ∧ sqlite.1 = .error e') ∧
  postgres.2.tasks.rows = sqlite.2.tasks.rows

/-- The limit falls between eligible tasks that are due and created at the same times: fewer than the limit
    come before such a task, and more than the limit come before it or with it. -/
def TieAtLimit (r : ClaimRequest) (w : World) : Prop :=
  ∃ row ∈ w.tasks.rows, eligible r row ∧
    (w.tasks.rows.filter (eligible r)).countP (fun other => dueKey other < dueKey row) < r.limit.toNat ∧
    r.limit.toNat < (w.tasks.rows.filter (eligible r)).countP fun other => dueKey other ≤ dueKey row

/-- Of a row of the table, the claims tell whether its id is among those claimed. -/
theorem Claims.mem_iff {r : ClaimRequest} {ids : List String} {w w' : World} {tasks : List Task}
    (claims : Claims r ids w tasks w') {row : Task} (member : row ∈ w.tasks.rows) :
    taken r row ∈ tasks ↔ row.taskId ∈ ids := by
  rw [claims.returned]
  constructor
  · rintro ⟨other, -, listed, same⟩
    have own : (taken r row).taskId = (taken r other).taskId := congrArg Task.taskId same
    exact (own ▸ listed : (taken r row).taskId ∈ ids)
  · exact fun listed => ⟨row, member, listed, rfl⟩

theorem mem_map_picked {order : TieBreak} {r : ClaimRequest} {w : World} {row : Task} (member : row ∈ w.tasks.rows) :
    row.taskId ∈ (picked order r w).map Task.taskId ↔ row ∈ picked order r w := by
  rw [List.mem_map]
  constructor
  · rintro ⟨other, isPicked, same⟩
    rw [← List.inj_on_of_nodup_map w.tasks.nodup (mem_of_picked isPicked).1 member same]
    exact isPicked
  · exact fun isPicked => ⟨row, isPicked, rfl⟩

/-- The paths agree exactly if they pick the same rows. -/
theorem agree_iff_picked {binds : PgType → Bool} (every : ∀ type, binds type) {order order' : TieBreak}
    {r : ClaimRequest} {w : World} (named : r.owner ≠ "") (bound : 0 ≤ r.shard) :
    Agree (postgresClaim binds order r w) (sqliteClaim order' r w) ↔
      ∀ row ∈ w.tasks.rows, row ∈ picked order r w ↔ row ∈ picked order' r w := by
  obtain ⟨tasks, w₁, postgres, left⟩ := postgres_claims every order (w := w) named bound
  obtain ⟨tasks', w₂, sqlite, right⟩ := sqlite_claims order' (w := w) named
  simp only [Agree, postgres, sqlite, Except.ok.injEq, exists_and_left, exists_eq_left', reduceCtorEq, false_and,
    exists_false, or_false]
  constructor
  · rintro ⟨same, -⟩ row member
    rw [← mem_map_picked member, ← mem_map_picked member, ← left.mem_iff member, ← right.mem_iff member]
    exact same _
  · intro same
    have ids : ∀ row ∈ w.tasks.rows, row.taskId ∈ (picked order r w).map Task.taskId ↔
        row.taskId ∈ (picked order' r w).map Task.taskId := fun row member => by
      rw [mem_map_picked member, mem_map_picked member, same row member]
    refine ⟨fun task => ?_, ?_⟩
    · rw [left.returned, right.returned]
      constructor
      · rintro ⟨row, member, listed, rfl⟩
        exact ⟨row, member, (ids row member).mp listed, rfl⟩
      · rintro ⟨row, member, listed, rfl⟩
        exact ⟨row, member, (ids row member).mpr listed, rfl⟩
    · rw [left.rows, right.rows]
      apply List.map_congr_left
      intro row member
      simp only [ids row member]

/-- Off a tie at the limit, whether a row is picked does not depend on how ties are ordered. -/
theorem picked_of_no_tie {order order' : TieBreak} {r : ClaimRequest} {w : World} (noTie : ¬ TieAtLimit r w) {row : Task}
    (isPicked : row ∈ picked order r w) : row ∈ picked order' r w := by
  obtain ⟨member, due⟩ := mem_of_picked isPicked
  have among : ∀ order : TieBreak, row ∈ order.sort (w.tasks.rows.filter (eligible r)) := fun order =>
    (order.perm _).mem_iff.mpr (List.mem_filter.mpr ⟨member, due⟩)
  rw [picked_eq_take] at isPicked ⊢
  refine mem_take_of_countP_le dueKey (order'.sorted _) (among order') ?_
  rw [(order'.perm _).countP_eq]
  by_contra! many
  refine noTie ⟨row, member, due, ?_, many⟩
  by_contra! full
  refine not_mem_take_of_le_countP dueKey (order.sorted _) ?_ isPicked
  rwa [(order.perm _).countP_eq]

/-- Ties in the order of `rank`. -/
def TieBreak.byRank (rank : Task → Nat) : TieBreak where
  sort rows := rows.insertionSort fun a b => toLex (dueKey a, rank a) ≤ toLex (dueKey b, rank b)
  perm rows := List.perm_insertionSort _ rows
  sorted rows := by
    have ordered : (rows.insertionSort fun a b => toLex (dueKey a, rank a) ≤ toLex (dueKey b, rank b)).Pairwise
        fun a b => toLex (dueKey a, rank a) ≤ toLex (dueKey b, rank b) := by
      apply List.pairwise_insertionSort
    exact ordered.imp fun le => ((Prod.Lex.toLex_le_toLex.mp le).elim le_of_lt fun tie => tie.1.le)

theorem TieBreak.byRank_sorted (rank : Task → Nat) (rows : List Task) :
    ((TieBreak.byRank rank).sort rows).Pairwise fun a b => toLex (dueKey a, rank a) ≤ toLex (dueKey b, rank b) := by
  apply List.pairwise_insertionSort

/-- At a tie the row is picked if it comes first among those it ties with, and not if it comes last. -/
theorem picked_of_tie {r : ClaimRequest} {w : World} (tie : TieAtLimit r w) :
    ∃ row ∈ w.tasks.rows, (∃ order, row ∈ picked order r w) ∧ ∃ order, row ∉ picked order r w := by
  obtain ⟨row, member, due, before, upTo⟩ := tie
  have once : (w.tasks.rows.filter (eligible r)).countP (fun other => other.taskId = row.taskId) ≤ 1 :=
    countP_eq_le_one (w.tasks.nodup.sublist (List.filter_sublist.map _)) row.taskId
  let first (other : Task) : Nat := if other.taskId = row.taskId then 0 else 1
  let last (other : Task) : Nat := if other.taskId = row.taskId then 1 else 0
  refine ⟨row, member, ⟨.byRank first, ?_⟩, .byRank last, ?_⟩
  · rw [picked_eq_take]
    refine mem_take_of_countP_le (fun other => toLex (dueKey other, first other)) (TieBreak.byRank_sorted first _)
      (((TieBreak.byRank first).perm _).mem_iff.mpr (List.mem_filter.mpr ⟨member, due⟩)) ?_
    rw [((TieBreak.byRank first).perm _).countP_eq]
    -- only the row itself comes with it
    have split : (w.tasks.rows.filter (eligible r)).countP
        (fun other => decide (toLex (dueKey other, first other) ≤ toLex (dueKey row, first row))) ≤
          (w.tasks.rows.filter (eligible r)).countP (fun other => decide (dueKey other < dueKey row)) +
            (w.tasks.rows.filter (eligible r)).countP fun other => decide (other.taskId = row.taskId) := by
      refine countP_le_add fun other le => ?_
      simp only [decide_eq_true_eq] at le ⊢
      refine (Prod.Lex.toLex_le_toLex.mp le).imp id fun tied => ?_
      by_contra differs
      simp [first, differs] at tied
    omega
  · rw [picked_eq_take]
    refine not_mem_take_of_le_countP (fun other => toLex (dueKey other, last other)) (TieBreak.byRank_sorted last _) ?_
    rw [((TieBreak.byRank last).perm _).countP_eq]
    -- all but the row itself come before it
    have split : (w.tasks.rows.filter (eligible r)).countP (fun other => decide (dueKey other ≤ dueKey row)) ≤
          (w.tasks.rows.filter (eligible r)).countP
            (fun other => decide (toLex (dueKey other, last other) < toLex (dueKey row, last row))) +
            (w.tasks.rows.filter (eligible r)).countP fun other => decide (other.taskId = row.taskId) := by
      refine countP_le_add fun other le => ?_
      simp only [decide_eq_true_eq] at le ⊢
      by_cases isRow : other.taskId = row.taskId
      · exact .inr isRow
      · refine .inl (Prod.Lex.toLex_lt_toLex.mpr ?_)
        simpa [last, isRow] using le.lt_or_eq
    omega

/-- Where the bindings fail the Postgres path does, and the SQLite path does not. -/
theorem not_agree_of_unbound {binds : PgType → Bool} {order order' : TieBreak} {r : ClaimRequest} {w : World}
    {e : StoreError} (named : r.owner ≠ "") (fails : bindings binds r = .error e) :
    ¬ Agree (postgresClaim binds order r w) (sqliteClaim order' r w) := by
  have unnamed : ¬ r.owner.isEmpty := by simpa using named
  have failed : postgresClaim binds order r w = (.error e, w) := by
    simp only [postgresClaim, if_neg unnamed, fails]
  obtain ⟨tasks, w', sqlite, -⟩ := sqlite_claims order' (w := w) named
  rw [failed, sqlite]
  rintro ⟨⟨_, _, ok, -⟩ | ⟨_, _, -, failed⟩, -⟩
  · cases ok
  · cases failed

theorem agree_of_unnamed (binds : PgType → Bool) (order order' : TieBreak) {r : ClaimRequest} (w : World)
    (unnamed : r.owner = "") : Agree (postgresClaim binds order r w) (sqliteClaim order' r w) := by
  simp [Agree, postgresClaim, sqliteClaim, unnamed]

/-- With a driver that takes an `i64` for every integer type the two paths would agree, however the two databases order
    ties, exactly if neither gets to its statement, or the shard is bound and no tie falls on the limit. -/
theorem agree_iff_of_binds {binds : PgType → Bool} (every : ∀ type, binds type) (r : ClaimRequest) (w : World) :
    (∀ order order', Agree (postgresClaim binds order r w) (sqliteClaim order' r w)) ↔
      r.owner = "" ∨ (0 ≤ r.shard ∧ ¬ TieAtLimit r w) := by
  by_cases named : r.owner = ""
  · exact ⟨fun _ => .inl named, fun _ order order' => agree_of_unnamed binds order order' w named⟩
  · constructor
    · intro agree
      have bound : 0 ≤ r.shard := by
        by_contra! any
        exact not_agree_of_unbound named (bindings_of_any every any) (agree inTableOrder inTableOrder)
      refine .inr ⟨bound, fun tie => ?_⟩
      obtain ⟨row, member, ⟨order, isPicked⟩, order', notPicked⟩ := picked_of_tie tie
      exact notPicked (((agree_iff_picked every named bound).mp (agree order order') row member).mp isPicked)
    · rintro (unnamed | ⟨bound, noTie⟩) order order'
      · exact absurd unnamed named
      · exact (agree_iff_picked every named bound).mpr fun row _ => ⟨picked_of_no_tie noTie, picked_of_no_tie noTie⟩

/-- The driver takes an `i64` for a `BIGINT` only.  So the two paths agree exactly if neither gets to its statement. -/
theorem claim_tasks_agree_iff (binds : PgType → Bool) (documented : ∀ type, binds type ↔ type = .int8)
    (order order' : TieBreak) (r : ClaimRequest) (w : World) :
    Agree (postgresClaim binds order r w) (sqliteClaim order' r w) ↔ r.owner = "" := by
  have smallint : binds .int2 = false := by simpa using (documented .int2).not
  refine ⟨fun agree => ?_, fun unnamed => agree_of_unnamed binds order order' w unnamed⟩
  by_contra named
  exact not_agree_of_unbound named (bindings_of_smallint smallint r) agree

/-! ## What the dispatcher of the SDK asks for -/

def onlyBigint (type : PgType) : Bool := type = .int8

/-- Up to 16 tasks, of any shard. -/
def anyShard : ClaimRequest where
  reactionId := "r"
  shard := -1
  owner := "dispatcher"
  leaseMs := 60000
  max := 16
  nowMs := 0
  clock := 1000

theorem sdk_claim_refused_by_postgres : ¬ Agree (postgresClaim onlyBigint inTableOrder anyShard .empty)
    (sqliteClaim inTableOrder anyShard .empty) :=
  not_agree_of_unbound (by decide) (bindings_of_smallint rfl anyShard)

/-- A claim without an owner is refused by both. -/
theorem unnamed_claims_agree : Agree (postgresClaim onlyBigint inTableOrder { anyShard with owner := "" } .empty)
    (sqliteClaim inTableOrder { anyShard with owner := "" } .empty) :=
  (claim_tasks_agree_iff onlyBigint (fun _ => decide_eq_true_iff) inTableOrder inTableOrder _ _).mpr rfl

end Tape.Queue
