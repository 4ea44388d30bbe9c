import Tape.Embedded.GoCompact
import Tape.Embedded.Retention

/-! # What a compaction deletes

Obligations that are still open or stuck, and timers that have not fired, survive every
compaction, and so do the effects that open obligations of their session name.  A row of
its own is pruned only in a terminal status, but a session is archived with whatever
effects it has: whether one of them is pending or unknown is not asked.
-/

namespace Tape.Embedded

open Sql Interleave

/-- Of what was in the store, only settled rows are missing afterwards. -/
structure DeletesSettled (s left : Store) : Prop where
  effects : ∀ row ∈ s.effects.rows, row ∉ left.effects.rows → row.status.isTerminal
  unreferenced : ∀ row ∈ s.effects.rows, row ∉ left.effects.rows →
    ∀ o ∈ s.obligations.rows, o.session = row.session → o.effectKey = row.idempotencyKey → o.status.isActive = false
  obligations : ∀ o ∈ s.obligations.rows, o ∉ left.obligations.rows → o.status = .compensated
  timers : ∀ t ∈ s.timers.rows, t ∉ left.timers.rows → t.fired

section Compact

variable {groups : List SessionKey → List SessionKey} {policy : CompactionPolicy} {nowMs clock : Int} {s : Store}

/-- An effect that a compaction deletes has its session archived, or is pruned on its own. -/
theorem deleted_effect {row : StorageEffect} (member : row ∈ s.effects.rows)
    (deleted : row ∉ (leaves (compactOnce groups policy nowMs clock s) s).effects.rows) :
    row.session ∈ archivedSessions groups policy nowMs clock s ∨ row.status.isTerminal ∧ pinned s row = false := by
  rw [compactOnce_leaves] at deleted
  by_cases archived : row.session ∈ archivedSessions groups policy nowMs clock s
  · exact .inl archived
  · right
    have kept : row ∈ (settledStore groups policy nowMs clock s).effects.rows := by
      simp [settledStore, mem_delete, member, archived]
    simp only [mem_delete, kept, true_and, Bool.not_eq_false, prunableEffect, pinned_settledStore, Bool.and_eq_true,
      Bool.not_eq_true'] at deleted
    exact ⟨deleted.1.1, deleted.2⟩

theorem deleted_archived {row : StorageEffect} (archived : row.session ∈ archivedSessions groups policy nowMs clock s) :
    row ∉ (leaves (compactOnce groups policy nowMs clock s) s).effects.rows := by
  rw [compactOnce_leaves]
  simp [settledStore, mem_delete, archived]

/-- Of an archived session nothing is open. -/
theorem not_active_of_archived {o : StorageObligation} (member : o ∈ s.obligations.rows)
    (archived : o.session ∈ archivedSessions groups policy nowMs clock s) : o.status.isActive = false := by
  have dead := not_isLive_of_archived archived
  simp only [isLive, Bool.or_eq_false_iff, List.any_eq_false, Bool.and_eq_true, decide_eq_true_eq, Bool.or_eq_true,
    not_and, not_or] at dead
  simpa using (dead.1 o member rfl).1

/-- A compaction deletes settled rows only, exactly if the sessions it archives have no
    effect that is pending or unknown. -/
theorem deletesSettled_iff : DeletesSettled s (leaves (compactOnce groups policy nowMs clock s) s) ↔
    ∀ row ∈ s.effects.rows, row.session ∈ archivedSessions groups policy nowMs clock s → row.status.isTerminal := by
  constructor
  · intro settled row member archived
    exact settled.effects row member (deleted_archived archived)
  · intro terminal
    constructor
    case effects =>
      intro row member deleted
      cases deleted_effect member deleted with
      -- the archive of a session takes all its effects, whatever their status
      | inl archived => exact terminal row member archived
      -- pruning by age takes settled ones
      | inr pruned => exact pruned.1
    case unreferenced =>
      intro row member deleted o isObligation sameSession sameKey
      cases deleted_effect member deleted with
      | inl archived => exact not_active_of_archived isObligation (sameSession ▸ archived)
      | inr pruned =>
        by_contra active
        have names : pinned s row := List.any_eq_true.mpr ⟨o, isObligation, by simpa [sameSession, sameKey] using active⟩
        rw [pruned.2] at names
        cases names
    case obligations =>
      intro o member deleted
      rw [compactOnce_leaves] at deleted
      -- what is not compensated keeps its session from being archived, and is not pruned
      cases status : o.status with
      | compensated => rfl
      | pending | committed =>
        have kept := (obligation_survives_iff groups policy nowMs clock (.inl (by rw [status]; rfl))).mpr member
        exact absurd kept deleted
      | stuck =>
        have kept := (obligation_survives_iff groups policy nowMs clock (.inr status)).mpr member
        exact absurd kept deleted
    case timers =>
      intro t member deleted
      rw [compactOnce_leaves] at deleted
      by_contra unfired
      exact deleted ((timer_survives_iff groups policy nowMs clock (by simpa using unfired)).mpr member)

end Compact

end Tape.Embedded

/-! ## The Go compactor, alone -/

namespace Tape.Embedded.Go.Compaction

open Sql Interleave

section Alone

variable {dialect : Dialect} {s : Shared}

theorem alone_query {α : Type} {stmt : Stmt} {value : stmt.Value} {f : stmt.Value → GoM α} {s' : Shared}
    (executed : stmt.exec s = (.ok value, s')) :
    (service dialect).alone (query stmt >>= f).run s = (service dialect).alone (f value).run s' :=
  System.alone_exceptBind _ executed

theorem alone_read {α : Type} {stmt : Stmt} {value : stmt.Value} {f : stmt.Value → GoM α}
    (executed : stmt.exec s = (.ok value, s)) :
    (service dialect).alone (query stmt >>= f).run s = (service dialect).alone (f value).run s :=
  alone_query executed

theorem count_pos_iff_mem {κ ρ : Type} [DecidableEq κ] {pk : ρ → κ} {t : Table pk} {cond : ρ → Bool} :
    0 < t.count cond ↔ t.rows.any cond := by
  simp [Table.count, List.length_pos_iff_exists_mem]

/-- The three counts together say whether the session is live. -/
theorem isLive_iff {s : Store} {session : SessionKey} : isLive s session ↔
    0 < s.obligations.count (fun o => o.session = session && o.status.isActive) ∨
      0 < s.obligations.count (fun o => o.session = session && o.status = .stuck) ∨
        0 < s.timers.count fun t => t.session = session && !t.fired := by
  simp only [isLive, count_pos_iff_mem, Bool.or_eq_true, List.any_eq_true, Bool.and_or_distrib_left, and_or_left,
    exists_or, or_assoc]

theorem alone_keepArchivable (candidates : List SessionKey) :
    (service dialect).alone (keepArchivable candidates).run s =
      (.ok (candidates.filter fun session => !isLive s.store session), s) := by
  induction candidates with
  | nil => rfl
  | cons c candidates inductionHypothesis =>
    have counts : isLive s.store c ↔ _ := isLive_iff
    refine (alone_read rfl).trans ?_
    by_cases active : 0 < s.store.obligations.count fun o => o.session = c && o.status.isActive
    · have live := counts.mpr (.inl active)
      simpa [active, live] using inductionHypothesis
    rw [if_neg active]
    refine (alone_read rfl).trans ?_
    by_cases stuck : 0 < s.store.obligations.count fun o => o.session = c && o.status = .stuck
    · have live := counts.mpr (.inr (.inl stuck))
      simpa [stuck, live] using inductionHypothesis
    rw [if_neg stuck]
    refine (alone_read rfl).trans ?_
    by_cases unfired : 0 < s.store.timers.count fun t => t.session = c && !t.fired
    · have live := counts.mpr (.inr (.inr unfired))
      simpa [unfired, live] using inductionHypothesis
    rw [if_neg unfired]
    have dead : isLive s.store c = false := by
      rw [← Bool.not_eq_true, counts]
      simp only [active, stuck, unfired, or_self, not_false_eq_true]
    refine (System.alone_exceptBind _ inductionHypothesis).trans ?_
    simp only [List.filter_cons, dead, Bool.not_false, if_true]
    rfl

/-- The deletes, session by session, are those of the Python compactor. -/
theorem alone_archive (archivable : List SessionKey) (result : CompactionResult) :
    (service dialect).alone (archive archivable result).run s =
      (.ok (archivable.foldl archiveSession (result, s.store)).1,
        { s with store := (archivable.foldl archiveSession (result, s.store)).2 }) := by
  induction archivable generalizing result s with
  | nil => rfl
  | cons sess archivable inductionHypothesis =>
    refine (alone_query rfl).trans ?_
    refine (alone_query rfl).trans ?_
    refine (alone_query rfl).trans ?_
    exact inductionHypothesis _

theorem alone_pruneObligations (policy : CompactionPolicy) (cutoff : Int) (result : CompactionResult) :
    (service dialect).alone (pruneObligations policy cutoff result).run s =
      let pruned := if policy.archiveTerminalObligations then Embedded.pruneObligations cutoff (result, s.store)
        else (result, s.store)
      (.ok pruned.1, { s with store := pruned.2 }) := by
  rw [pruneObligations]
  cases policy.archiveTerminalObligations with
  | false => rfl
  | true => exact alone_query rfl

theorem alone_pruneTimers (policy : CompactionPolicy) (cutoff : Int) (result : CompactionResult) :
    (service dialect).alone (pruneTimers policy cutoff result).run s =
      let pruned := if policy.archiveFiredTimers then Embedded.pruneTimers cutoff (result, s.store) else (result, s.store)
      (.ok pruned.1, { s with store := pruned.2 }) := by
  rw [pruneTimers]
  cases policy.archiveFiredTimers with
  | false => rfl
  | true => exact alone_query rfl

/-- The Python policy that comes to the cutoffs of the Go compactor. -/
def asPolicy (policy : CompactionPolicy) (now : Int) : CompactionPolicy :=
  { policy with
    effectTtlMs := now - addI64 now (-policy.effectTtlMs)
    sessionTtlMs := now - addI64 now (-policy.sessionTtlMs)
    maxPerTick := maxPerTick policy }

theorem alone_compactUnderLock (groups : GroupOrder) (policy : CompactionPolicy) (nowMs clock : Int) :
    let now := orNow nowMs clock
    ∃ result left, Embedded.compactOnce groups.order (asPolicy policy now) nowMs clock s.store = .ok (result, left) ∧
      (service dialect).alone (compactUnderLock groups policy (addI64 now (-policy.sessionTtlMs))
        (addI64 now (-policy.effectTtlMs))).run s = (.ok result, { s with store := left }) := by
  refine ⟨_, _, rfl, ?_⟩
  have candidates : (service dialect).alone (findArchivableSessions groups
      (addI64 (orNow nowMs clock) (-policy.sessionTtlMs)) (maxPerTick policy)).run s =
        (.ok (Embedded.findArchivableSessions groups.order (addI64 (orNow nowMs clock) (-policy.sessionTtlMs))
          (maxPerTick policy) s.store), s) := by
    exact (alone_read rfl).trans (alone_keepArchivable _)
  refine (System.alone_exceptBind _ candidates).trans ?_
  refine (System.alone_exceptBind _ (alone_archive ..)).trans ?_
  refine (System.alone_exceptBind _ (alone_pruneObligations ..)).trans ?_
  refine (System.alone_exceptBind _ (alone_pruneTimers ..)).trans ?_
  refine (alone_query rfl).trans ?_
  simp only [asPolicy, sub_sub_cancel]
  rfl

/-- A Go compaction that runs alone answers and leaves what a Python compaction does. -/
theorem alone_compactOnce (groups : GroupOrder) (policy : CompactionPolicy) (nowMs clock : Int) :
    ∃ result left,
      Embedded.compactOnce groups.order (asPolicy policy (orNow nowMs clock)) nowMs clock s.store = .ok (result, left) ∧
      ((service dialect).alone (compactOnce dialect groups policy nowMs clock).run s).1 = .ok result ∧
      ((service dialect).alone (compactOnce dialect groups policy nowMs clock).run s).2.store = left := by
  cases dialect with
  | postgres =>
    obtain ⟨result, left, python, go⟩ := @alone_compactUnderLock .postgres s groups policy nowMs clock
    exact ⟨result, left, python, congrArg Prod.fst go, congrArg (fun answer => answer.2.store) go⟩
  | sqlite =>
    obtain ⟨result, left, python, go⟩ :=
      @alone_compactUnderLock .sqlite { s with casMu := true } groups policy nowMs clock
    have locked : (service .sqlite).alone (compactOnce .sqlite groups policy nowMs clock).run s =
        (.ok result, { s with store := left, casMu := false }) := by
      refine ((service .sqlite).alone_bind (compactUnderLock ..).run _ _).trans ?_
      have taken : ((service .sqlite).exec .lock s).2 = { s with casMu := true } := rfl
      rw [taken, go]
      rfl
    exact ⟨result, left, python, congrArg Prod.fst locked, congrArg (fun answer => answer.2.store) locked⟩

end Alone

end Tape.Embedded.Go.Compaction

/-! ## Both compactors -/

namespace Tape.Embedded

open Go.Compaction (GroupOrder service maxPerTick asPolicy alone_compactOnce)

/-- The sessions that a compaction looks at: the latest effect is older than the cutoff. -/
def staleSessions (groups : List SessionKey → List SessionKey) (sessionCutoff limit : Int) (s : Store) : List SessionKey :=
  limitRows limit ((groups (s.effects.rows.map StorageEffect.session).dedup).filter (isStale sessionCutoff s))

/-- Of these sessions, those without an open or stuck obligation and without an unfired
    timer have confirmed and failed effects only. -/
def ArchivesSettled (sessions : List SessionKey) (s : Store) : Prop :=
  ∀ session ∈ sessions, isLive s session = false → ∀ row ∈ s.effects.rows, row.session = session → row.status.isTerminal

theorem archivesSettled_iff {groups : List SessionKey → List SessionKey} {policy : CompactionPolicy} {nowMs clock : Int}
    {s : Store} : ArchivesSettled (staleSessions groups (orNow nowMs clock - policy.sessionTtlMs) policy.maxPerTick s) s ↔
      ∀ row ∈ s.effects.rows, row.session ∈ archivedSessions groups policy nowMs clock s → row.status.isTerminal := by
  have archived : ∀ session, session ∈ archivedSessions groups policy nowMs clock s ↔
      session ∈ staleSessions groups (orNow nowMs clock - policy.sessionTtlMs) policy.maxPerTick s ∧
        isLive s session = false := by
    intro session
    rw [archivedSessions, findArchivableSessions, List.mem_filter, staleSessions]
    simp
  constructor
  · intro settled row member isArchived
    obtain ⟨stale, dead⟩ := (archived row.session).mp isArchived
    exact settled row.session stale dead row member rfl
  · intro terminal session stale dead row member same
    subst same
    exact terminal row member ((archived row.session).mpr ⟨stale, dead⟩)

/-- **A compaction deletes settled history only, exactly if the sessions that it archives
    have no pending and no unknown effect**: the Python compactor, and the Go compactor
    where nothing else runs. -/
theorem compaction_settled_iff (policy : CompactionPolicy) (nowMs clock : Int) :
    (∀ groups s, DeletesSettled s (leaves (compactOnce groups policy nowMs clock s) s) ↔
      ArchivesSettled (staleSessions groups (orNow nowMs clock - policy.sessionTtlMs) policy.maxPerTick s) s) ∧
    ∀ dialect (groups : GroupOrder) s,
      DeletesSettled s.store
        ((service dialect).alone (Go.Compaction.compactOnce dialect groups policy nowMs clock).run s).2.store ↔
      ArchivesSettled (staleSessions groups.order (addI64 (orNow nowMs clock) (-policy.sessionTtlMs)) (maxPerTick policy)
        s.store) s.store := by
  constructor
  · intro groups s
    rw [deletesSettled_iff, archivesSettled_iff]
  · intro dialect groups s
    obtain ⟨result, left, python, -, go⟩ := @alone_compactOnce dialect s groups policy nowMs clock
    have same : left = leaves (Embedded.compactOnce groups.order (asPolicy policy (orNow nowMs clock)) nowMs clock s.store)
        s.store := by rw [python, leaves_ok]
    rw [go, same, deletesSettled_iff, ← archivesSettled_iff]
    simp only [asPolicy, sub_sub_cancel]

/-! ## A payment that is forgotten -/

/-- A wire that the outbox has yet to send. -/
def wire : BeginEffect where
  session := ⟨"app", "user", "s"⟩
  invocationId := "inv"
  toolName := "bank.wire"
  semantics := .nonIdempotent
  dispatchMode := .outbox
  businessKey := some "order-1"
  connector := some "bank.wire"

/-- The effect was begun, and nothing has happened since. -/
def begunWire : Store := leaves (beginEffect wire 1 .empty) .empty

/-- Thirty-one days later. -/
def compactedWire : Store := leaves (compactOnce id {} 0 (31 * 24 * 60 * 60 * 1000) begunWire) begunWire

/-- The default policy archives the session, and the pending effect with it. -/
theorem pending_wire_archived : begunWire.effects.rows.map StorageEffect.status = [.pending] ∧
    compactedWire.effects.rows.map StorageEffect.status = [] ∧ ¬ DeletesSettled begunWire compactedWire := by
  have begun : begunWire.effects.rows.map StorageEffect.status = [.pending] := by decide +kernel
  have compacted : compactedWire.effects.rows.map StorageEffect.status = [] := by decide +kernel
  refine ⟨begun, compacted, fun settled => ?_⟩
  obtain ⟨row, isRow, status⟩ := List.map_eq_singleton_iff.mp begun
  have terminal := settled.effects row (by simp [isRow]) (by simp [List.map_eq_nil_iff.mp compacted])
  rw [status] at terminal
  cases terminal

end Tape.Embedded
