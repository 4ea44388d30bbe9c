import Tape.Embedded.Duplicate
import Tape.Sql.Poll

/-! # Effects behind others in the reconciler's window

A tick reads the oldest `limit` effects and skips those that have no connector, or whose connector
raises.  A skipped effect keeps its age, so it is read again by every later tick; an effect whose
answer is recorded becomes the youngest.
-/

namespace Tape.Embedded

open Sql Tape.Sequential

abbrev Older (a b : StorageEffect) : Prop := a.tsMs ≤ b.tsMs

instance : Std.Total Older := ⟨fun a b => Int.le_total a.tsMs b.tsMs⟩

instance : IsTrans StorageEffect Older := ⟨fun _ _ _ => Int.le_trans⟩

theorem listed_eq {limit : Int} (some_ : 1 ≤ limit) (rows : List StorageEffect) :
    limitRows limit (orderBy StorageEffect.tsMs rows) = window Older limit.toNat rows :=
  if_neg (by omega)

namespace Reconciler

/-! ## What a tick reads -/

/-- The rows that a tick at `clock` is after. -/
def hot (settings : Settings) (clock : Int) : StorageEffect → Bool :=
  isHot (if 0 < settings.stalePendingMs then clock - settings.stalePendingMs else 0) (0 < settings.stalePendingMs) true

theorem window_eq {settings : Settings} (some_ : 1 ≤ settings.limit) (clock : Int) (s : Store) :
    window settings clock s = Sql.window Older settings.limit.toNat (s.effects.rows.filter (hot settings clock)) :=
  listed_eq some_ _

theorem hot_unknown (settings : Settings) (clock : Int) {row : StorageEffect} (unknown : row.status = .unknown) :
    hot settings clock row := by
  simp [hot, isHot, unknown]

/-! ## One tick -/

/-- One tick and what it reads of the clock. -/
structure Tick where
  settings : Settings
  clock : Int
  recordAt : StorageEffect → Int

section Tick

variable {ε : Type} {record : Recorder ε} {made : Observation → Int → StorageEffect → Option StorageEffect}

/-- The body of the loop, and whether the tick goes on. -/
def takesUp (record : Recorder ε) (t : Tick) (eff : StorageEffect) (s s' : Store) (goesOn : Bool) : Prop :=
  ∃ answer, reconcileOne record t.settings (t.recordAt eff) eff s = (answer, s') ∧ answer.isOk = goesOn

theorem pass_reconcileEach (t : Tick) (effects : List StorageEffect) (s : Store) :
    Pass (takesUp record t) effects s (reconcileEach record t.settings t.recordAt effects s).2 := by
  induction effects generalizing s with
  | nil => exact .nil s
  | cons eff effects inductionHypothesis =>
    cases one : reconcileOne record t.settings (t.recordAt eff) eff s with
    | mk answer left =>
      cases answer with
      | error e =>
        rw [reconcileEach_error one]
        exact .ends ⟨_, one, rfl⟩
      | ok audit =>
        rw [reconcileEach_ok one]
        exact .next ⟨_, one, rfl⟩ (inductionHypothesis left)

/-- A tick that skips all that it reads leaves the store. -/
theorem reconcileEach_silent {settings : Settings} {recordAt : StorageEffect → Int} {effects : List StorageEffect} {s : Store}
    (silent : ∀ eff ∈ effects, settings.answer eff = none) : (reconcileEach record settings recordAt effects s).2 = s := by
  induction effects with
  | nil => rfl
  | cons eff effects inductionHypothesis =>
    obtain ⟨audit, skipped⟩ := @reconcileOne_skips _ record _ (recordAt eff) _ s (silent eff List.mem_cons_self)
    rw [reconcileEach_ok skipped]
    exact inductionHypothesis fun other member => silent other (List.mem_cons_of_mem eff member)

/-- What is in front of `eff` does not keep a tick from it: fewer effects that it skips are as old than it reads,
    no answer about one as old is refused, and the clock has moved on since `eff` was written. -/
structure GetsTo (t : Tick) (eff : StorageEffect) (s : Store) : Prop where
  few : (s.effects.rows.countP fun row =>
    hot t.settings t.clock row && ((t.settings.answer row).isNone && row.tsMs ≤ eff.tsMs)) < t.settings.limit.toNat
  allowed : ∀ row ∈ s.effects.rows, hot t.settings t.clock row → row.tsMs ≤ eff.tsMs →
    ∀ o, t.settings.answer row = some o → known o ∧ refusedWith s o row = false
  later : ∀ row, eff.tsMs < t.recordAt row

/-- A window of effects that the tick skips is older than `eff`, and the clock has moved on since `eff` was written. -/
structure IsBehind (t : Tick) (eff : StorageEffect) (s : Store) : Prop where
  full : t.settings.limit.toNat ≤ s.effects.rows.countP fun row =>
    hot t.settings t.clock row && ((t.settings.answer row).isNone && row.tsMs < eff.tsMs)
  later : ∀ row, eff.tsMs < t.recordAt row

/-- The answers about `eff` and what is as old are not refused. -/
def Allowed (t : Tick) (eff : StorageEffect) (s : Store) : Prop :=
  ∀ row, s.effects.find? row.pk = some row → hot t.settings t.clock row → row.tsMs ≤ eff.tsMs →
    ∀ o, t.settings.answer row = some o → known o ∧ refusedWith s o row = false

/-- An observation of the effect was recorded. -/
def Observed (made : Observation → Int → StorageEffect → Option StorageEffect) (t : Tick) (old new : StorageEffect) : Prop :=
  ∃ o, t.settings.answer old = some o ∧ made o (t.recordAt old) old = some new

/-- A recorded observation is stamped with the clock. -/
def Stamps (made : Observation → Int → StorageEffect → Option StorageEffect) : Prop :=
  ∀ o now row new, made o now row = some new → new.tsMs = now

theorem stamps_python : Stamps madePython := by
  intro o now row new isMade
  obtain ⟨_, -, rfl⟩ := Option.map_eq_some_iff.mp isMade
  rfl

theorem stamps_go (unmarshal : Json → Json) : Stamps (madeGo unmarshal) := by
  intro o now row new isMade
  obtain ⟨_, -, rfl⟩ := Option.map_eq_some_iff.mp isMade
  rfl

theorem serves_takesUp (lawful : Lawful record made) (stamps : Stamps made) {t : Tick} {eff : StorageEffect}
    (later : ∀ row, eff.tsMs < t.recordAt row) :
    Serves Store.effects Older eff (takesUp record t) (hot t.settings t.clock) (fun row => (t.settings.answer row).isNone)
      (fun row => row.tsMs ≤ eff.tsMs) (Allowed t eff) (Observed made t) where
  waiting r _ older := decide_eq_true older
  others r s s' goesOn taken found _ k ne := by
    obtain ⟨answer, one, -⟩ := taken
    rcases lawful.reconcileOne_cases t.settings (t.recordAt r) found with
      ⟨-, audit, skipped⟩ | ⟨o, -, ⟨-, e, raised⟩ | ⟨new, audit, left, -, -, -, recorded, records⟩⟩
    · rw [skipped] at one
      cases one
      rfl
    · rw [raised] at one
      cases one
      rfl
    · rw [recorded] at one
      cases one
      exact records.others k.1 k.2 ne
  fits r s s' goesOn taken found _ _ allowed := by
    obtain ⟨answer, one, -⟩ := taken
    rcases lawful.reconcileOne_cases t.settings (t.recordAt r) found with
      ⟨-, audit, skipped⟩ | ⟨o, -, ⟨-, e, raised⟩ | ⟨new, audit, left, isMade, -, -, recorded, records⟩⟩
    · rw [skipped] at one
      cases one
      exact allowed
    · rw [raised] at one
      cases one
      exact allowed
    · rw [recorded] at one
      cases one
      intro row isRow isHot older o' answered
      have ne : row.pk ≠ r.pk := by
        intro same
        -- the row that was recorded is younger than the effect
        have isNew : row = new := Option.some.inj ((same ▸ isRow).symm.trans records.effect)
        have stamped := stamps o _ r new isMade
        have moved := later r
        rw [isNew] at older
        omega
      rw [records.refusedWith_eq ne]
      exact allowed row ((records.others _ _ ne).symm.trans isRow) isHot older o' answered
  skips r s s' goesOn taken silent := by
    obtain ⟨answer, one, rfl⟩ := taken
    obtain ⟨audit, skipped⟩ := @reconcileOne_skips _ record _ (t.recordAt r) _ s (Option.isNone_iff_eq_none.mp silent)
    rw [skipped] at one
    cases one
    exact ⟨rfl, rfl⟩
  serves r s s' goesOn taken found isHot older answers allowed := by
    obtain ⟨answer, one, -⟩ := taken
    rcases lawful.reconcileOne_cases t.settings (t.recordAt r) found with
      ⟨silent, -⟩ | ⟨o, answered, ⟨refused, -⟩ | ⟨new, audit, left, isMade, -, -, recorded, records⟩⟩
    · rw [silent] at answers
      cases answers
    · have both := allowed r found isHot older o answered
      rw [both.1, both.2] at refused
      simp at refused
    · rw [recorded] at one
      cases one
      have stamped := stamps o _ r new isMade
      have moved := later r
      exact ⟨new, records.effect, decide_eq_false (by omega), o, answered, isMade⟩

/-- A tick that gets to an `UNKNOWN` effect records what its connector answers, or leaves fewer effects that are as old. -/
theorem Lawful.reconcile_tick (lawful : Lawful record made) (stamps : Stamps made) {t : Tick} {eff : StorageEffect} {s : Store}
    (limit : 1 ≤ t.settings.limit) (unknown : eff.status = .unknown) (answers : (t.settings.answer eff).isSome)
    (getsTo : GetsTo t eff s) (found : s.effects.find? eff.pk = some eff) :
    let left := (reconcileEach record t.settings t.recordAt (window t.settings t.clock s) s).2
    (∃ new, left.effects.find? eff.pk = some new ∧ Observed made t eff new) ∨
      (left.effects.find? eff.pk = some eff ∧
        left.effects.count (fun row => row.tsMs ≤ eff.tsMs) < s.effects.count fun row => row.tsMs ≤ eff.tsMs) := by
  have pass := @pass_reconcileEach _ record t (window t.settings t.clock s) s
  rw [window_eq limit] at pass ⊢
  have free : (t.settings.answer eff).isNone = false := by simpa using answers
  have isAllowed : Allowed t eff s := fun row isRow => getsTo.allowed row (Table.mem_of_find? isRow)
  exact (serves_takesUp lawful stamps getsTo.later).tick pass found (hot_unknown _ _ unknown) free isAllowed getsTo.few

/-- A tick does not get to an effect that is behind. -/
theorem Lawful.starved_tick (lawful : Lawful record made) (stamps : Stamps made) {t : Tick} {eff : StorageEffect} {s : Store}
    (limit : 1 ≤ t.settings.limit) (behind : IsBehind t eff s) (found : s.effects.find? eff.pk = some eff) :
    (reconcileEach record t.settings t.recordAt (window t.settings t.clock s) s).2.effects.find? eff.pk = some eff := by
  have pass := @pass_reconcileEach _ record t (window t.settings t.clock s) s
  rw [window_eq limit] at pass ⊢
  refine (serves_takesUp lawful stamps behind.later).starved pass found
    (behind.full.trans (List.countP_mono_left fun row _ => ?_))
  simp only [Bool.and_eq_true, Bool.not_eq_true', decide_eq_true_eq, decide_eq_false_iff_not]
  exact fun ⟨isHot, isSkipped, older⟩ => ⟨isHot, isSkipped, older.le, not_le.mpr older⟩

end Tick

/-! ## Ticks one after the other -/

/-- What a tick of `reconcile_once` leaves. -/
def Tick.take (s : Store) (t : Tick) : Store := (reconcileOnce t.settings t.clock t.recordAt s).2

/-- What a tick of `ReconcileOnce` leaves. -/
def Tick.goTake (unmarshal : Json → Json) (s : Store) (t : Tick) : Store :=
  (goReconcileOnce unmarshal t.settings t.clock t.recordAt s).2

/-- The tick with the limit that `ReconcileOnce` makes of the one it is given, and connectors that are shown what it scans. -/
def Tick.go (unmarshal : Json → Json) (t : Tick) : Tick := { t with settings := t.settings.go unmarshal }

variable {unmarshal : Json → Json} {s : Store} {eff : StorageEffect} {ticks : List Tick}

/-- An `UNKNOWN` effect whose connector answers is observed within as many ticks as there are effects, if the ticks get to it. -/
theorem observed_within (found : s.effects.find? eff.pk = some eff) (unknown : eff.status = .unknown)
    (along : Along Tick.take (fun s t => 1 ≤ t.settings.limit ∧ (t.settings.answer eff).isSome ∧ GetsTo t eff s) s ticks)
    (enough : s.effects.rows.length ≤ ticks.length) :
    ∃ earlier t later, ticks = earlier ++ t :: later ∧
      ∃ new, (t.take (run Tick.take s earlier)).effects.find? eff.pk = some new ∧ Observed madePython t eff new := by
  have tick : ∀ s (t : Tick), (1 ≤ t.settings.limit ∧ (t.settings.answer eff).isSome ∧ GetsTo t eff s) →
      s.effects.find? eff.pk = some eff → (∃ new, (t.take s).effects.find? eff.pk = some new ∧ Observed madePython t eff new) ∨
        ((t.take s).effects.find? eff.pk = some eff ∧
          (t.take s).effects.count (fun row => row.tsMs ≤ eff.tsMs) < s.effects.count fun row => row.tsMs ≤ eff.tsMs) :=
    fun s t ok there => lawful_python.reconcile_tick stamps_python ok.1 unknown ok.2.1 ok.2.2 there
  exact served_within Store.effects (decide_eq_true (Int.le_refl eff.tsMs)) tick found along enough

theorem go_observed_within (found : s.effects.find? eff.pk = some eff) (unknown : eff.status = .unknown)
    (along : Along (Tick.goTake unmarshal) (fun s t => ((t.go unmarshal).settings.answer eff).isSome ∧
      GetsTo (t.go unmarshal) eff s) s ticks)
    (enough : s.effects.rows.length ≤ ticks.length) :
    ∃ earlier t later, ticks = earlier ++ t :: later ∧
      ∃ new, (t.goTake unmarshal (run (Tick.goTake unmarshal) s earlier)).effects.find? eff.pk = some new ∧
        Observed (madeGo unmarshal) (t.go unmarshal) eff new := by
  have limit : ∀ t : Tick, 1 ≤ (t.go unmarshal).settings.limit := by
    intro t
    simp only [Tick.go, Settings.go]
    split <;> omega
  have tick : ∀ s (t : Tick), (((t.go unmarshal).settings.answer eff).isSome ∧ GetsTo (t.go unmarshal) eff s) →
      s.effects.find? eff.pk = some eff →
      (∃ new, (t.goTake unmarshal s).effects.find? eff.pk = some new ∧ Observed (madeGo unmarshal) (t.go unmarshal) eff new) ∨
        ((t.goTake unmarshal s).effects.find? eff.pk = some eff ∧
          (t.goTake unmarshal s).effects.count (fun row => row.tsMs ≤ eff.tsMs) < s.effects.count fun row =>
          row.tsMs ≤ eff.tsMs) :=
    fun s t ok there => lawful_go.reconcile_tick (stamps_go unmarshal) (limit t) unknown ok.1 ok.2 there
  exact served_within Store.effects (decide_eq_true (Int.le_refl eff.tsMs)) tick found along enough

/-- An effect that each tick finds behind a window of others that it skips stays as it is. -/
theorem starved (found : s.effects.find? eff.pk = some eff)
    (along : Along Tick.take (fun s t => 1 ≤ t.settings.limit ∧ IsBehind t eff s) s ticks) :
    (run Tick.take s ticks).effects.find? eff.pk = some eff :=
  run_invariant (I := fun s : Store => s.effects.find? eff.pk = some eff)
    (fun _ _ there ok => lawful_python.starved_tick stamps_python ok.1 ok.2 there) found along

end Reconciler

end Tape.Embedded
