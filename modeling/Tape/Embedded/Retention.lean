import Mathlib.Data.List.Dedup
import Tape.Embedded.Compact
import Tape.Embedded.Ledger

/-! # Rows that come and go

`begin_effect` adds a row, `compact_once` and `continue_as_new` delete rows, and `take_snapshot`
captures what they were.  Each is described by what it leaves under one key: of the live row, and of
the snapshot's entry.
-/

namespace Tape.Embedded

open Sql

inductive RetentionCall where
  | begin_ (request : BeginEffect) (now : Int)
  | snapshot (session : SessionKey) (upToTsMs clock now : Int)
  | compact (groups : List SessionKey → List SessionKey) (policy : CompactionPolicy) (nowMs clock : Int)
  | continueAsNew (session : SessionKey) (oldInvocationId newInvocationId : String) (carriedState : Json)
      (pruneOld : Bool) (now : Int)

/-- The store after the call. -/
def RetentionCall.serve (s : Store) : RetentionCall → Store
  | begin_ r now => leaves (beginEffect r now s) s
  | snapshot session upToTsMs clock now => leaves (takeSnapshot session upToTsMs clock now s) s
  | compact groups policy nowMs clock => leaves (compactOnce groups policy nowMs clock s) s
  | continueAsNew session old new carriedState pruneOld now =>
    leaves (Embedded.continueAsNew session old new carriedState pruneOld now s) s

variable {s : Store} {session session' : SessionKey} {key : String} {row : StorageEffect}

/-! ## Snapshots -/

theorem pk_of_effect (found : s.effect session key = some row) : row.pk = (session, key) := Table.key_of_find? found

theorem session_of_effect (found : s.effect session key = some row) : row.session = session :=
  congrArg Prod.fst (pk_of_effect found)

theorem key_of_effect (found : s.effect session key = some row) : row.idempotencyKey = key :=
  congrArg Prod.snd (pk_of_effect found)

/-- A session's rows have different idempotency keys. -/
theorem capturedRows_nodup (session : SessionKey) (watermark : Int) (s : Store) :
    ((capturedRows session watermark s).map CapturedEffect.pk).Nodup := by
  have keys : (s.effects.rows.map StorageEffect.pk).Nodup := s.effects.nodup
  rw [capturedRows, List.map_map]
  refine (List.nodup_map_iff_inj_on (keys.of_map.filter _)).mpr ?_
  intro a isA b isB same
  simp only [List.mem_filter, Bool.and_eq_true, decide_eq_true_eq] at isA isB
  apply List.inj_on_of_nodup_map keys isA.1 isB.1
  exact Prod.ext (isA.2.1.1.trans isB.2.1.1.symm) same

/-- The terminal row that the watermark covers is captured; other entries stay. -/
theorem captured_takeSnapshot (session : SessionKey) (upToTsMs clock now : Int) (s : Store) (session' : SessionKey)
    (key : String) : (leaves (takeSnapshot session upToTsMs clock now s) s).captured session' key =
      if session = session' then
        (((s.effect session' key).filter fun row => row.status.isTerminal && row.tsMs ≤ orNow upToTsMs clock).map
          StorageEffect.capture).or (s.captured session' key)
      else s.captured session' key := by
  simp only [takeSnapshot, leaves_ok, Store.captured, Table.find?_put]
  by_cases same : session = session'
  · subst same
    have isKey : StorageEffectSnapshot.pk (mergedSnapshot session (orNow upToTsMs clock) now
        (capturedRows session (orNow upToTsMs clock) s) (s.snapshots.find? session)) = session := rfl
    rw [if_pos isKey, if_pos rfl, Option.bind_some]
    have old : ((((s.snapshots.find? session).map StorageEffectSnapshot.effectsJson).getD .empty).find? key) =
        (s.snapshots.find? session).bind fun snap => snap.effectsJson.find? key := by
      cases s.snapshots.find? session <;> rfl
    have nodup := capturedRows_nodup session (orNow upToTsMs clock) s
    simp only [mergedSnapshot]
    cases live : (s.effect session key).filter fun row => row.status.isTerminal && row.tsMs ≤ orNow upToTsMs clock with
    | some row =>
      obtain ⟨found, covered⟩ := Option.filter_eq_some_iff.mp live
      have member : row.capture ∈ capturedRows session (orNow upToTsMs clock) s := by
        refine List.mem_map_of_mem (List.mem_filter.mpr ⟨Table.mem_of_find? found, ?_⟩)
        simpa [session_of_effect found] using covered
      have put := Table.find?_putAll_of_mem
        (((s.snapshots.find? session).map StorageEffectSnapshot.effectsJson).getD .empty) nodup member
      rw [show row.capture.pk = key from key_of_effect found] at put
      rw [put]
      rfl
    | none =>
      rw [Table.find?_putAll_of_absent, old]
      · rfl
      · -- a captured row with the key would be the live one
        intro captured member same
        obtain ⟨row, isRow, rfl⟩ := List.mem_map.mp member
        obtain ⟨isLive, covered⟩ := List.mem_filter.mp isRow
        simp only [Bool.and_eq_true, decide_eq_true_eq] at covered
        have found : s.effect session key = some row := by
          have byKey := Table.find?_key_of_mem isLive
          rwa [show row.pk = (session, key) from Prod.ext covered.1.1 same] at byKey
        rw [found, Option.filter_some] at live
        simp only [covered.1.2, covered.2, decide_true, Bool.and_self, if_true, reduceCtorEq] at live
  · have ne : StorageEffectSnapshot.pk (mergedSnapshot session (orNow upToTsMs clock) now
        (capturedRows session (orNow upToTsMs clock) s) (s.snapshots.find? session)) ≠ session' := same
    rw [if_neg ne, if_neg same]

/-! ## Compaction -/

theorem mem_delete {κ ρ : Type} [DecidableEq κ] {pk : ρ → κ} {t : Table pk} {cond : ρ → Bool} {r : ρ} :
    r ∈ (t.delete cond).rows ↔ r ∈ t.rows ∧ cond r = false := by
  simp [Table.delete]

/-- Sessions that are archived one after the other. -/
theorem foldl_archiveSession (sessions : List SessionKey) (state : CompactionResult × Store) :
    (sessions.foldl archiveSession state).2 = { state.2 with
      effects := state.2.effects.delete fun row => row.session ∈ sessions
      obligations := state.2.obligations.delete fun o => o.session ∈ sessions
      timers := state.2.timers.delete fun t => t.session ∈ sessions } := by
  induction sessions generalizing state with
  | nil => simp [Table.delete]
  | cons session sessions inductionHypothesis =>
    rw [List.foldl_cons, inductionHypothesis]
    simp [archiveSession, Table.delete, List.filter_filter, Bool.and_comm]

/-- The sessions that one tick archives. -/
def archivedSessions (groups : List SessionKey → List SessionKey) (policy : CompactionPolicy) (nowMs clock : Int)
    (s : Store) : List SessionKey :=
  findArchivableSessions groups (orNow nowMs clock - policy.sessionTtlMs) policy.maxPerTick s

theorem not_isLive_of_archived {groups : List SessionKey → List SessionKey} {policy : CompactionPolicy}
    {nowMs clock : Int} (archived : session ∈ archivedSessions groups policy nowMs clock s) : isLive s session = false := by
  simp only [archivedSessions, findArchivableSessions, List.mem_filter] at archived
  simpa using archived.2

/-- The store before the effects are pruned. -/
def settledStore (groups : List SessionKey → List SessionKey) (policy : CompactionPolicy) (nowMs clock : Int) (s : Store) :
    Store :=
  let archived := archivedSessions groups policy nowMs clock s
  let cutoff := orNow nowMs clock - policy.effectTtlMs
  { s with
    effects := s.effects.delete fun row => row.session ∈ archived
    obligations := s.obligations.delete fun o =>
      o.session ∈ archived || policy.archiveTerminalObligations && prunableObligation cutoff o
    timers := s.timers.delete fun t => t.session ∈ archived || policy.archiveFiredTimers && prunableTimer cutoff t }

theorem compactOnce_leaves (groups : List SessionKey → List SessionKey) (policy : CompactionPolicy) (nowMs clock : Int)
    (s : Store) : leaves (compactOnce groups policy nowMs clock s) s =
      let settled := settledStore groups policy nowMs clock s
      { settled with
        effects := settled.effects.delete (prunableEffect (orNow nowMs clock - policy.effectTtlMs) settled) } := by
  have archived := foldl_archiveSession (archivedSessions groups policy nowMs clock s) ({}, s)
  simp only [archivedSessions] at archived
  cases obligations : policy.archiveTerminalObligations <;> cases timers : policy.archiveFiredTimers <;>
    simp [compactOnce, pruneEffects, pruneObligations, pruneTimers, settledStore, archivedSessions, obligations, timers,
      archived, Table.delete, List.filter_filter, Bool.and_comm]

section Compact

variable (groups : List SessionKey → List SessionKey) (policy : CompactionPolicy) (nowMs clock : Int)

/-- An open or stuck obligation survives: its session is not archived, and it is not pruned. -/
theorem obligation_survives_iff {o : StorageObligation} (kept : o.status.isActive ∨ o.status = .stuck) :
    o ∈ (settledStore groups policy nowMs clock s).obligations.rows ↔ o ∈ s.obligations.rows := by
  simp only [settledStore, mem_delete, and_iff_left_iff_imp]
  intro member
  have live : isLive s o.session := by
    rw [isLive, Bool.or_eq_true, List.any_eq_true]
    exact .inl ⟨o, member, by simpa using kept⟩
  have session : o.session ∉ archivedSessions groups policy nowMs clock s := by
    intro archived
    rw [not_isLive_of_archived archived] at live
    cases live
  have settled : o.status ≠ .compensated := by
    intro compensated
    simp [compensated, ObligationStatus.isActive] at kept
  simp [session, prunableObligation, settled]

theorem timer_survives_iff {t : StorageTimer} (unfired : t.fired = false) :
    t ∈ (settledStore groups policy nowMs clock s).timers.rows ↔ t ∈ s.timers.rows := by
  simp only [settledStore, mem_delete, and_iff_left_iff_imp]
  intro member
  have live : isLive s t.session := by
    rw [isLive, Bool.or_eq_true, List.any_eq_true, List.any_eq_true]
    exact .inr ⟨t, member, by simp [unfired]⟩
  have session : t.session ∉ archivedSessions groups policy nowMs clock s := by
    intro archived
    rw [not_isLive_of_archived archived] at live
    cases live
  simp [session, prunableTimer, unfired]

/-- What pins an effect survives, so that it can be looked for before or after. -/
theorem pinned_settledStore (row : StorageEffect) : pinned (settledStore groups policy nowMs clock s) row = pinned s row := by
  rw [Bool.eq_iff_iff]
  simp only [pinned, List.any_eq_true, Bool.and_eq_true]
  refine exists_congr fun o => and_congr_left fun names => ?_
  exact obligation_survives_iff groups policy nowMs clock (.inl names.2)

/-- The session is as live afterwards as before. -/
theorem isLive_settledStore (session : SessionKey) :
    isLive (settledStore groups policy nowMs clock s) session = isLive s session := by
  rw [Bool.eq_iff_iff]
  simp only [isLive, Bool.or_eq_true, List.any_eq_true, Bool.and_eq_true]
  apply or_congr
  · refine exists_congr fun o => and_congr_left fun kept => ?_
    exact obligation_survives_iff groups policy nowMs clock (by simpa using kept.2)
  · refine exists_congr fun t => and_congr_left fun kept => ?_
    exact timer_survives_iff groups policy nowMs clock (by simpa using kept.2)

/-- A row goes with its session, or on its own. -/
theorem effect_compactOnce (session : SessionKey) (key : String) :
    (leaves (compactOnce groups policy nowMs clock s) s).effect session key =
      (s.effect session key).filter fun row => session ∉ archivedSessions groups policy nowMs clock s &&
        !prunableEffect (orNow nowMs clock - policy.effectTtlMs) s row := by
  rw [compactOnce_leaves]
  simp only [Store.effect, settledStore, Table.find?_delete, Option.filter_filter]
  cases found : s.effects.find? (session, key) with
  | none => rfl
  | some row =>
    have same := pinned_settledStore (s := s) groups policy nowMs clock row
    rw [settledStore] at same
    have isSession : row.session = session := session_of_effect found
    simp [Option.filter_some, prunableEffect, same, isSession]

@[simp] theorem captured_compactOnce :
    (leaves (compactOnce groups policy nowMs clock s) s).captured = s.captured := by
  rw [compactOnce_leaves]
  rfl

end Compact

/-! ## Continue as new -/

theorem effect_continueAsNew (session : SessionKey) (old new : String) (carriedState : Json) (pruneOld : Bool) (now : Int)
    (s : Store) (session' : SessionKey) (key : String) :
    (leaves (continueAsNew session old new carriedState pruneOld now s) s).effect session' key =
      (s.effect session' key).filter fun row => !(pruneOld && retired session old s row) := by
  cases pruneOld with
  | false =>
    simp only [continueAsNew, leaves_ok, Store.effect, Bool.false_and, Bool.not_false, Bool.false_eq_true, if_false]
    cases s.effects.find? (session', key) <;> rfl
  | true => simp [continueAsNew, Store.effect, Table.find?_delete]

/-! ## One call -/

/-- A live row was live before, or its key was neither live nor captured. -/
theorem effect_serve_cases (call : RetentionCall) (found : (call.serve s).effect session key = some row) :
    s.effect session key = some row ∨ s.effect session key = none ∧ s.captured session key = none := by
  cases call with
  | begin_ r now =>
    simp only [RetentionCall.serve] at found
    cases beginEffect_cases r now s with
    | inl same => exact .inl (by rwa [same] at found)
    | inr added =>
      obtain ⟨inserted, isInsert, absent, uncaptured, -, answer⟩ := added
      rw [answer, leaves_ok, Store.effect, Table.find?_insert isInsert] at found
      split at found
      next isKey =>
        obtain ⟨rfl, rfl⟩ := Prod.mk.inj isKey
        exact .inr ⟨absent, uncaptured⟩
      next => exact .inl found
  | snapshot => exact .inl found
  | compact groups policy nowMs clock =>
    rw [RetentionCall.serve, effect_compactOnce] at found
    exact .inl (Option.filter_eq_some_iff.mp found).1
  | continueAsNew =>
    rw [RetentionCall.serve, effect_continueAsNew] at found
    exact .inl (Option.filter_eq_some_iff.mp found).1

/-- An entry stays as it is, or is that of the terminal row that is live. -/
theorem captured_serve_cases (call : RetentionCall) (s : Store) (session : SessionKey) (key : String) :
    (call.serve s).captured session key = s.captured session key ∨
      ∃ row, s.effect session key = some row ∧ row.status.isTerminal ∧
        (call.serve s).captured session key = some row.capture := by
  cases call with
  | begin_ r now =>
    simp only [RetentionCall.serve]
    cases beginEffect_cases r now s with
    | inl same => exact .inl (by rw [same])
    | inr added =>
      obtain ⟨_, _, _, _, _, answer⟩ := added
      exact .inl (by rw [answer]; rfl)
  | snapshot session' upToTsMs clock now =>
    simp only [RetentionCall.serve, captured_takeSnapshot]
    split
    · cases live : (s.effect session key).filter fun row =>
          row.status.isTerminal && row.tsMs ≤ orNow upToTsMs clock with
      | none => exact .inl rfl
      | some row =>
        obtain ⟨found, covered⟩ := Option.filter_eq_some_iff.mp live
        rw [Bool.and_eq_true] at covered
        exact .inr ⟨row, found, covered.1, rfl⟩
    · exact .inl rfl
  | compact => exact .inl (by rw [RetentionCall.serve, captured_compactOnce])
  | continueAsNew => exact .inl rfl

/-- What pins an effect, and keeps a session live, outlasts every call. -/
theorem pinned_serve (call : RetentionCall) (s : Store) (row : StorageEffect) (session : SessionKey) :
    pinned (call.serve s) row = pinned s row ∧ isLive (call.serve s) session = isLive s session := by
  cases call with
  | begin_ r now =>
    simp only [RetentionCall.serve]
    cases beginEffect_cases r now s with
    | inl same => simp [same]
    | inr added =>
      obtain ⟨_, _, _, _, _, answer⟩ := added
      rw [answer]
      exact ⟨rfl, rfl⟩
  | snapshot => exact ⟨rfl, rfl⟩
  | compact groups policy nowMs clock =>
    rw [RetentionCall.serve, compactOnce_leaves]
    exact ⟨pinned_settledStore groups policy nowMs clock row, isLive_settledStore groups policy nowMs clock session⟩
  | continueAsNew => exact ⟨rfl, rfl⟩

/-- An effect that is pinned, in a session that is live, is not deleted. -/
theorem effect_serve_of_pinned (call : RetentionCall) (found : s.effect session key = some row) (isPinned : pinned s row)
    (live : isLive s session) : (call.serve s).effect session key = some row := by
  cases call with
  | begin_ r now => exact effect_beginEffect found r now
  | snapshot => exact found
  | compact groups policy nowMs clock =>
    have stays : session ∉ archivedSessions groups policy nowMs clock s := by
      intro archived
      rw [not_isLive_of_archived archived] at live
      cases live
    rw [RetentionCall.serve, effect_compactOnce, found, Option.filter_some]
    simp [stays, prunableEffect, isPinned]
  | continueAsNew =>
    rw [RetentionCall.serve, effect_continueAsNew, found, Option.filter_some]
    simp [retired, isPinned]

/-- Any other terminal effect can be deleted. -/
theorem exists_deletion (found : s.effect session key = some row) (terminal : row.status.isTerminal)
    (free : ¬(pinned s row ∧ isLive s session)) :
    ∃ policy clock, (leaves (compactOnce id policy 0 clock s) s).effect session key = none := by
  by_cases isPinned : pinned s row
  · -- every session is stale after the latest row of all
    let latest := (s.effects.rows.map StorageEffect.tsMs).foldl max 0
    let policy : CompactionPolicy := { sessionTtlMs := 0, maxPerTick := -1 }
    refine ⟨policy, latest + 1, ?_⟩
    have isSession := session_of_effect found
    have member : row ∈ s.effects.rows := Table.mem_of_find? found
    have stale : isStale (latest + 1) s session := by
      simp only [isStale, Bool.and_eq_true, List.any_eq_true, List.all_eq_true, decide_eq_true_eq, Bool.or_eq_true]
      refine ⟨⟨row, member, isSession⟩, fun other isOther => .inr ?_⟩
      have bound : other.tsMs ≤ latest := le_foldl_max (.inl (List.mem_map_of_mem isOther))
      omega
    have dead : isLive s session = false := by simpa [isPinned] using free
    have archived : session ∈ archivedSessions id policy 0 (latest + 1) s := by
      simp only [archivedSessions, findArchivableSessions, orNow, limitRows, policy, id, if_true, Int.sub_zero,
        List.mem_filter, List.mem_dedup, List.mem_map, Int.reduceNeg, Int.reduceLT]
      exact ⟨⟨⟨row, member, isSession⟩, stale⟩, by simp [dead]⟩
    rw [effect_compactOnce, found, Option.filter_some]
    rw [decide_eq_false (not_not.mpr archived)]
    rfl
  · refine ⟨{ effectTtlMs := 0 }, row.tsMs + 1, ?_⟩
    rw [effect_compactOnce, found, Option.filter_some]
    have early : row.tsMs < row.tsMs + 1 := by omega
    simp [prunableEffect, orNow, terminal, isPinned, early]

end Tape.Embedded
