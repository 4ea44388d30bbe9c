import Tape.Embedded.Dispatcher
import Tape.Embedded.Starvation

/-! # Effects behind others in the dispatcher's window

A tick of `dispatch_outbox_once` that nothing runs beside; time passes between any two of its steps.
It reads the oldest `limit` due effects and skips those without a connector, which keep their age.
What comes of a dispatch is recorded and makes the effect the youngest, whether it stays `PENDING` or not.
-/

namespace Tape.Embedded.Outbox

open Sql Interleave Tape.Sequential

/-! ## A tick by itself -/

/-- The database, and the time that passes before each further step; none where the list ends. -/
structure Paced where
  clocked : Clocked
  passes : List Nat

namespace Paced

abbrev effects (p : Paced) : Table StorageEffect.pk := p.clocked.store.effects

abbrev clock (p : Paced) : Int := p.clocked.clock

/-- The database when the next step is taken. -/
def advanced (p : Paced) : Clocked := { p.clocked with clock := p.clocked.clock + p.passes.headD 0 }

def exec (act : Act) (p : Paced) : act.Res × Paced :=
  let (res, left) := act.exec p.advanced
  (res, ⟨left, p.passes.tail⟩)

end Paced

def paced : System Paced Act Act.Res Call Call.Out := ⟨Paced.exec, fun _ => none, Call.body⟩

structure Tick where
  settings : Settings
  passes : List Nat := []

/-- What a tick leaves. -/
def Tick.take (s : Clocked) (t : Tick) : Clocked :=
  (paced.alone (dispatchOutboxOnce t.settings).run ⟨s, t.passes⟩).2.clocked

section Steps

variable {α β : Type} {p : Paced}

theorem alone_perform (act : Act) (f : act.Res → TickM β) (p : Paced) :
    paced.alone (perform act >>= f).run p = paced.alone (f (p.exec act).1).run (p.exec act).2 :=
  System.alone_exceptBind paced rfl

/-- A method that does not raise. -/
theorem alone_rpc {act : Act} {returns : act.Res = Except ServiceError α} {f : α → TickM β} {value : α} {left : Paced}
    (answer : paced.alone (rpc act returns).run p = (.ok value, left)) :
    paced.alone (rpc act returns >>= f).run p = paced.alone (f value).run left :=
  System.alone_exceptBind paced answer

theorem clock_exec (act : Act) (p : Paced) : p.clock ≤ (p.exec act).2.clock := by
  cases act <;> simp only [Paced.exec, Act.exec, Act.ofResult, Paced.advanced, Paced.clock] <;> omega

/-- Time does not go back. -/
theorem clock_alone (program : Prog Act Act.Res α) (p : Paced) : p.clock ≤ (paced.alone program p).2.clock := by
  induction program generalizing p with
  | ret value => exact Int.le_refl _
  | call act next inductionHypothesis => exact (clock_exec act p).trans (inductionHypothesis _ _)

/-- The next step writes one effect. -/
def Paced.write (p : Paced) (session : SessionKey) (key : String) (u : Update StorageEffect.pk) : Paced where
  clocked := { p.advanced with store := p.clocked.store.writeEffect session key u }
  passes := p.passes.tail

variable {session : SessionKey} {key : String} {row : StorageEffect}

theorem alone_recordDispatchAttempt (found : p.clocked.store.effect session key = some row) (error : String)
    (nextDispatchAtMs : Int) :
    let u := dispatchAttempt error nextDispatchAtMs p.advanced.clock
    paced.alone (rpc (.recordDispatchAttempt session key error nextDispatchAtMs) rfl).run p =
      (.ok (some (u.apply row)), p.write session key u) := by
  have recorded : Embedded.recordDispatchAttempt session key error nextDispatchAtMs p.advanced.clock p.advanced.store =
      .ok (some ((dispatchAttempt error nextDispatchAtMs p.advanced.clock).apply row),
        p.clocked.store.writeEffect session key (dispatchAttempt error nextDispatchAtMs p.advanced.clock)) := by
    simp only [Embedded.recordDispatchAttempt, Paced.advanced, found]
  have executed : p.exec (.recordDispatchAttempt session key error nextDispatchAtMs) =
      (.ok (some ((dispatchAttempt error nextDispatchAtMs p.advanced.clock).apply row)),
        p.write session key (dispatchAttempt error nextDispatchAtMs p.advanced.clock)) := by
    simp only [Paced.exec, Act.exec, recorded]
    rfl
  exact executed

theorem alone_completeEffect (found : p.clocked.store.effect session key = some row) (isOpen : row.status = .pending)
    {status : EffectStatus} (settled : status ≠ .pending) (responseJson errorJson : Json) :
    let u := completion status responseJson errorJson p.advanced.clock
    paced.alone (rpc (.completeEffect session key status responseJson errorJson) rfl).run p =
      (.ok (some (u.apply row)), p.write session key u) := by
  have recorded : Embedded.completeEffect session key status responseJson errorJson p.advanced.clock p.advanced.store =
      .ok (some ((completion status responseJson errorJson p.advanced.clock).apply row),
        p.clocked.store.writeEffect session key (completion status responseJson errorJson p.advanced.clock)) := by
    simp [Embedded.completeEffect, Paced.advanced, settled, found, isOpen]
  have executed : p.exec (.completeEffect session key status responseJson errorJson) =
      (.ok (some ((completion status responseJson errorJson p.advanced.clock).apply row)),
        p.write session key (completion status responseJson errorJson p.advanced.clock)) := by
    simp only [Paced.exec, Act.exec, recorded]
    rfl
  exact executed

end Steps

/-! ## One effect -/

/-- What came of a dispatch is recorded: the effect is open no longer, or has one attempt more. -/
def Attempted (old new : StorageEffect) : Prop := new.status ≠ .pending ∨ new.dispatchAttempts = old.dispatchAttempts + 1

/-- The attempt for `row` is recorded, at `p` or later, and nothing else. -/
structure Settles (row : StorageEffect) (p p' : Paced) : Prop where
  recorded : ∃ new, p'.effects.find? row.pk = some new ∧ p.clock ≤ new.tsMs ∧ Attempted row new
  others : ∀ k, k ≠ row.pk → p'.effects.find? k = p.effects.find? k

section One

variable {p : Paced} {row : StorageEffect}

theorem clock_le_advanced (p : Paced) : p.clock ≤ p.advanced.clock := by
  simp only [Paced.advanced, Paced.clock]
  omega

theorem settles_write (found : p.effects.find? row.pk = some row) (u : Update StorageEffect.pk)
    (stamped : p.clock ≤ (u.apply row).tsMs) (attempted : Attempted row (u.apply row)) :
    Settles row p (p.write row.session row.idempotencyKey u) where
  recorded := ⟨u.apply row, p.clocked.store.effect_writeEffect_self found u, stamped, attempted⟩
  others _ ne := p.clocked.store.effect_writeEffect_ne u ne

theorem Settles.attach {p' : Paced} (settles : Settles row p p') (externalRef : String) :
    Settles row p (p'.write row.session row.idempotencyKey (attachment externalRef)) where
  recorded := by
    obtain ⟨new, isNew, stamped, attempted⟩ := settles.recorded
    exact ⟨(attachment externalRef).apply new, p'.clocked.store.effect_writeEffect_self isNew _, stamped, attempted⟩
  others k ne := (p'.clocked.store.effect_writeEffect_ne _ ne).trans (settles.others k ne)

/-- One of the statuses that a connector may answer with. -/
def Known : DispatchOutcome → Prop
  | .raised _ => True
  | .returned result => ∀ text, result.status ≠ .other text

theorem settles_attempt (found : p.effects.find? row.pk = some row) (error : String) (nextDispatchAtMs : Int)
    (audit : Option Audit) :
    ∃ p', paced.alone (do
        let _ ← rpc (.recordDispatchAttempt row.session row.idempotencyKey error nextDispatchAtMs) rfl
        return audit : TickM (Option Audit)).run p = (.ok audit, p') ∧ Settles row p p' := by
  refine ⟨_, alone_rpc (alone_recordDispatchAttempt found error nextDispatchAtMs), ?_⟩
  exact settles_write found _ (clock_le_advanced p) (.inr rfl)

/-- An answer with a known status is recorded. -/
theorem settles_record (settings : Settings) (now : Int) (found : p.effects.find? row.pk = some row)
    (isOpen : row.status = .pending)
    {outcome : DispatchOutcome} (known : Known outcome) :
    ∃ audit p', paced.alone (record settings now row outcome).run p = (.ok audit, p') ∧ Settles row p p' := by
  cases outcome with
  | raised error => exact ⟨_, settles_attempt found error _ _⟩
  | returned result =>
    cases isStatus : result.status with
    | confirmed =>
      have completed := alone_completeEffect found isOpen (show EffectStatus.confirmed ≠ .pending by decide) result.response .null
      have settles := settles_write found (completion .confirmed result.response .null p.advanced.clock)
        (clock_le_advanced p) (.inl (by simp [completion]))
      simp only [record, isStatus, alone_rpc completed]
      by_cases attaches : result.externalRef ≠ ""
      · simp only [attaches, if_true, not_false_eq_true, ne_eq]
        exact ⟨_, _, alone_perform _ _ _, settles.attach result.externalRef⟩
      · simp only [attaches, if_false]
        exact ⟨_, _, rfl, settles⟩
    | unknown =>
      simp only [record, isStatus]
      exact ⟨_, settles_attempt found _ _ _⟩
    | failed =>
      simp only [record, isStatus]
      split
      · have completed := alone_completeEffect found isOpen (show EffectStatus.failed ≠ .pending by decide) .null result.error
        exact ⟨_, _, alone_rpc completed, settles_write found _ (clock_le_advanced p) (.inl (by simp [completion]))⟩
      · exact ⟨_, settles_attempt found _ _ _⟩
    | other text => exact absurd isStatus (known text)

theorem orNow_mono {now first second : Int} (later : first ≤ second) : orNow now first ≤ orNow now second := by
  unfold orNow
  split <;> omega

/-- What is due stays due. -/
theorem dispatchable_mono {first second : Int} (later : first ≤ second) (due : row.dispatchable first) :
    row.dispatchable second := by
  simp only [StorageEffect.dispatchable, Bool.and_eq_true, Bool.or_eq_true, decide_eq_true_eq] at due ⊢
  obtain ⟨⟨⟨isOpen, isOutbox⟩, isDue⟩, free⟩ := due
  exact ⟨⟨⟨isOpen, isOutbox⟩, isDue.trans later⟩, free.imp_right fun expired => expired.trans later⟩

theorem alone_claim (found : p.effects.find? row.pk = some row) (claimer : String) (leaseTtlMs : Int) {now : Int}
    (due : row.dispatchable (orNow now p.advanced.clock)) :
    let u := claim claimer (orNow now p.advanced.clock + leaseTtlMs)
    paced.alone (rpc (.claimEffectDispatch row.session row.idempotencyKey claimer leaseTtlMs now) rfl).run p =
      (.ok (true, some (u.apply row)), p.write row.session row.idempotencyKey u) := by
  have isRow : p.clocked.store.effect row.session row.idempotencyKey = some row := found
  have claimed : Embedded.claimEffectDispatch row.session row.idempotencyKey claimer leaseTtlMs now p.advanced.clock
    p.advanced.store =
      .ok ((true, some ((claim claimer (orNow now p.advanced.clock + leaseTtlMs)).apply row)),
        p.clocked.store.writeEffect row.session row.idempotencyKey
          (claim claimer (orNow now p.advanced.clock + leaseTtlMs))) := by
    have acquired : (p.advanced.store.effect row.session row.idempotencyKey).any
        (StorageEffect.dispatchable (orNow now p.advanced.clock)) = true := by
      rw [show p.advanced.store = p.clocked.store from rfl, isRow]
      exact due
    have left := p.clocked.store.effect_writeEffect_self isRow (claim claimer (orNow now p.advanced.clock + leaseTtlMs))
    simp only [Embedded.claimEffectDispatch, acquired, if_true]
    exact congrArg (fun answer => Except.ok ((true, answer), _)) left
  have executed : p.exec (.claimEffectDispatch row.session row.idempotencyKey claimer leaseTtlMs now) =
      (.ok (true, some ((claim claimer (orNow now p.advanced.clock + leaseTtlMs)).apply row)),
        p.write row.session row.idempotencyKey (claim claimer (orNow now p.advanced.clock + leaseTtlMs))) := by
    simp only [Paced.exec, Act.exec, claimed]
    rfl
  exact executed

/-- A due effect whose connector is registered is dispatched, and what comes of it is recorded. -/
theorem settles_dispatchOne {settings : Settings} {now : Int} (found : p.effects.find? row.pk = some row)
    (due : row.dispatchable (orNow now p.advanced.clock)) {connector : Connector}
    (registered : row.connector.bind settings.connectors = some connector) (known : ∀ row, Known (connector row)) :
    ∃ audit p', paced.alone (dispatchOne settings now row).run p = (.ok audit, p') ∧ Settles row p p' := by
  have isOpen : row.status = .pending := by
    simp only [StorageEffect.dispatchable, Bool.and_eq_true, decide_eq_true_eq] at due
    exact due.1.1.1
  let u := claim settings.claimer (orNow now p.advanced.clock + settings.leaseTtlMs)
  let claimed := p.write row.session row.idempotencyKey u
  have isClaimed : claimed.effects.find? row.pk = some (u.apply row) := p.clocked.store.effect_writeEffect_self found u
  -- the tick reads the row again, and the dispatch begins and ends
  let reread := (claimed.exec (.getEffect row.session row.idempotencyKey)).2
  let begun := (reread.exec (.dispatchBegins (u.apply row))).2
  let ended := (begun.exec (.dispatchEnds (u.apply row) (connector (u.apply row)))).2
  have isFresh : ended.effects.find? (u.apply row).pk = some (u.apply row) := isClaimed
  obtain ⟨audit, p', recorded, settles⟩ := settles_record settings now isFresh isOpen (known (u.apply row))
  refine ⟨audit, p', ?_, ?_⟩
  · simp only [dispatchOne, registered]
    rw [alone_rpc (alone_claim found settings.claimer settings.leaseTtlMs due)]
    simp only [Bool.not_true, Bool.false_eq_true, if_false]
    rw [alone_perform]
    have answer : (claimed.exec (.getEffect row.session row.idempotencyKey)).1 = some (u.apply row) := isClaimed
    rw [answer]
    have pending : ¬ (u.apply row).status ≠ .pending := not_not.mpr isOpen
    simp only [dispatchFresh, if_neg pending]
    rw [alone_perform, alone_perform]
    exact recorded
  · obtain ⟨new, isNew, stamped, attempted⟩ := settles.recorded
    have moved : p.clock ≤ ended.clock := calc
      p.clock ≤ claimed.clock := clock_le_advanced p
      _ ≤ reread.clock := clock_exec _ claimed
      _ ≤ begun.clock := clock_exec _ reread
      _ ≤ ended.clock := clock_exec _ begun
    refine ⟨⟨new, isNew, moved.trans stamped, attempted⟩, fun k ne => ?_⟩
    exact (settles.others k ne).trans (p.clocked.store.effect_writeEffect_ne u ne)

/-- A claim that comes too early or too late changes nothing. -/
theorem unclaimed_dispatchOne {settings : Settings} {now : Int} (found : p.effects.find? row.pk = some row)
    (notDue : row.dispatchable (orNow now p.advanced.clock) = false) {connector : Connector}
    (registered : row.connector.bind settings.connectors = some connector) :
    (paced.alone (dispatchOne settings now row).run p).2.effects = p.effects := by
  have isRow : p.advanced.store.effect row.session row.idempotencyKey = some row := found
  have refused : Embedded.claimEffectDispatch row.session row.idempotencyKey settings.claimer settings.leaseTtlMs now
      p.advanced.clock p.advanced.store = .ok ((false, some row), p.advanced.store) := by
    simp [Embedded.claimEffectDispatch, isRow, notDue]
  have executed : p.exec (.claimEffectDispatch row.session row.idempotencyKey settings.claimer settings.leaseTtlMs now) =
      (.ok (false, some row), ⟨p.advanced, p.passes.tail⟩) := by
    simp only [Paced.exec, Act.exec, refused]
    rfl
  have claimed : paced.alone (rpc (.claimEffectDispatch row.session row.idempotencyKey settings.claimer
      settings.leaseTtlMs now) rfl).run p = (.ok (false, some row), ⟨p.advanced, p.passes.tail⟩) := executed
  simp only [dispatchOne, registered]
  rw [alone_rpc claimed]
  rfl

end One

/-! ## One tick -/

/-- The body of the loop, and whether the tick goes on. -/
def takesUp (settings : Settings) (now : Int) (row : StorageEffect) (p p' : Paced) (goesOn : Bool) : Prop :=
  ∃ answer, paced.alone (dispatchOne settings now row).run p = (answer, p') ∧ answer.isOk = goesOn

theorem pass_dispatchEach (settings : Settings) (now : Int) (effects : List StorageEffect) (p : Paced) :
    Pass (takesUp settings now) effects p (paced.alone (dispatchEach settings now effects).run p).2 := by
  induction effects generalizing p with
  | nil => exact .nil p
  | cons row effects inductionHypothesis =>
    cases one : paced.alone (dispatchOne settings now row).run p with
    | mk answer left =>
      cases answer with
      | error e =>
        rw [dispatchEach, System.alone_exceptBind_error paced one]
        exact .ends ⟨_, one, rfl⟩
      | ok audit =>
        rw [dispatchEach, System.alone_exceptBind paced one]
        have rest := inductionHypothesis left
        refine .next ⟨_, one, rfl⟩ ?_
        cases others : paced.alone (dispatchEach settings now effects).run left with
        | mk answer' left' =>
          rw [others] at rest
          cases answer' with
          | error e =>
            rw [System.alone_exceptBind_error paced others]
            exact rest
          | ok audits =>
            rw [System.alone_exceptBind paced others]
            exact rest

namespace Tick

variable (t : Tick) (s : Clocked)

/-- The clock that the tick reads. -/
def now : Int := (Paced.advanced ⟨s, t.passes⟩).clock

/-- The database when the tick has listed its effects. -/
def listed : Paced :=
  ((Paced.exec .readClock ⟨s, t.passes⟩).2.exec (.listEffectsToDispatch (t.now s) t.settings.limit)).2

/-- The time at which the effects are due that it lists. -/
def dueAt : Int := orNow (t.now s) (t.listed s).clock

/-- What is in front of `eff` does not keep the tick from it: fewer due effects without a connector are as old than it
    lists, connectors answer with statuses that there are, and the clock has moved on since `eff` was written. -/
structure GetsTo (eff : StorageEffect) : Prop where
  few : (s.store.effects.rows.countP fun row =>
    row.dispatchable (t.dueAt s) && ((row.connector.bind t.settings.connectors).isNone && row.tsMs ≤ eff.tsMs)) <
      t.settings.limit.toNat
  known : ∀ name connector, t.settings.connectors name = some connector → ∀ row, Known (connector row)
  later : eff.tsMs < s.clock

/-- A window of due effects without a connector is older than `eff`. -/
structure IsBehind (eff : StorageEffect) : Prop where
  full : t.settings.limit.toNat ≤ s.store.effects.rows.countP fun row =>
    row.dispatchable (t.dueAt s) && ((row.connector.bind t.settings.connectors).isNone && row.tsMs < eff.tsMs)
  known : ∀ name connector, t.settings.connectors name = some connector → ∀ row, Known (connector row)
  later : eff.tsMs < s.clock

variable {t s}

theorem take_eq (some_ : 1 ≤ t.settings.limit) : t.take s = (paced.alone (dispatchEach t.settings (t.now s)
    (window Older t.settings.limit.toNat (s.store.effects.rows.filter (StorageEffect.dispatchable (t.dueAt s))))).run
      (t.listed s)).2.clocked := by
  rw [← listed_eq some_]
  rfl

theorem clock_le_listed : s.clock ≤ (t.listed s).clock :=
  (clock_exec .readClock ⟨s, t.passes⟩).trans (clock_exec _ _)

theorem clock_le_dueAt : s.clock ≤ t.dueAt s := by
  have first : s.clock ≤ t.now s := clock_le_advanced ⟨s, t.passes⟩
  have second : s.clock ≤ (t.listed s).clock := clock_le_listed
  unfold dueAt orNow
  split
  · exact second
  · exact first

end Tick

theorem Tick.known_of_registered {t : Tick} {row : StorageEffect}
    (known : ∀ name connector, t.settings.connectors name = some connector → ∀ row, Known (connector row))
    {connector : Connector} (registered : row.connector.bind t.settings.connectors = some connector) :
    ∀ row, Known (connector row) := by
  obtain ⟨name, -, isConnector⟩ := Option.bind_eq_some_iff.mp registered
  exact known name connector isConnector

theorem serves_takesUp {t : Tick} {s : Clocked} {eff : StorageEffect}
    (known : ∀ name connector, t.settings.connectors name = some connector → ∀ row, Known (connector row))
    (later : eff.tsMs < s.clock) :
    Serves Paced.effects Older eff (takesUp t.settings (t.now s)) (StorageEffect.dispatchable (t.dueAt s))
      (fun row => (row.connector.bind t.settings.connectors).isNone) (fun row => row.tsMs ≤ eff.tsMs)
      (fun p => (t.listed s).clock ≤ p.clock) Attempted where
  waiting r _ older := decide_eq_true older
  others r p p' goesOn taken found _ k ne := by
    obtain ⟨answer, one, -⟩ := taken
    cases registered : r.connector.bind t.settings.connectors with
    | none =>
      simp only [dispatchOne, registered] at one
      cases one
      rfl
    | some connector =>
      cases due : r.dispatchable (orNow (t.now s) p.advanced.clock) with
      | false =>
        -- an effect that is no longer due is not claimed
        have kept := unclaimed_dispatchOne found due registered
        rw [one] at kept
        exact congrArg (fun table => table.find? k) kept
      | true =>
        obtain ⟨audit, left, dispatched, settles⟩ :=
          settles_dispatchOne found due registered (Tick.known_of_registered known registered)
        rw [dispatched] at one
        cases one
        exact settles.others k ne
  fits r p p' goesOn taken _ _ _ isLater := by
    obtain ⟨answer, one, -⟩ := taken
    have forward := clock_alone (dispatchOne t.settings (t.now s) r).run p
    rw [one] at forward
    exact isLater.trans forward
  skips r p p' goesOn taken absent := by
    obtain ⟨answer, one, rfl⟩ := taken
    simp only [dispatchOne, Option.isNone_iff_eq_none.mp absent] at one
    cases one
    exact ⟨rfl, rfl⟩
  serves r p p' goesOn taken found due older some_ isLater := by
    obtain ⟨answer, one, -⟩ := taken
    obtain ⟨connector, registered⟩ := Option.isSome_iff_exists.mp (by simpa using some_)
    -- what was due at the listing is due at the claim: the clock only goes on
    have dueAtClaim : r.dispatchable (orNow (t.now s) p.advanced.clock) :=
      dispatchable_mono (orNow_mono (isLater.trans (clock_le_advanced p))) due
    obtain ⟨audit, left, dispatched, settles⟩ :=
      settles_dispatchOne found dueAtClaim registered (Tick.known_of_registered known registered)
    rw [dispatched] at one
    cases one
    obtain ⟨new, isNew, stamped, attempted⟩ := settles.recorded
    have moved : eff.tsMs < p.clock := later.trans_le ((Tick.clock_le_listed (t := t)).trans isLater)
    exact ⟨new, isNew, decide_eq_false (by omega), attempted⟩

/-- A tick that gets to a due effect dispatches it, or leaves fewer effects that are as old. -/
theorem dispatch_tick {t : Tick} {s : Clocked} {eff : StorageEffect} (limit : 1 ≤ t.settings.limit)
    (registered : (eff.connector.bind t.settings.connectors).isSome) (due : eff.dispatchable s.clock) (getsTo : t.GetsTo s eff)
    (found : s.store.effects.find? eff.pk = some eff) :
    (∃ new, (t.take s).store.effects.find? eff.pk = some new ∧ Attempted eff new) ∨
      ((t.take s).store.effects.find? eff.pk = some eff ∧ (t.take s).store.effects.count (fun row => row.tsMs ≤ eff.tsMs) <
        s.store.effects.count fun row => row.tsMs ≤ eff.tsMs) := by
  have pass := pass_dispatchEach t.settings (t.now s)
    (window Older t.settings.limit.toNat (s.store.effects.rows.filter (StorageEffect.dispatchable (t.dueAt s)))) (t.listed s)
  have free : (eff.connector.bind t.settings.connectors).isNone = false := by simpa using registered
  rw [Tick.take_eq limit]
  have isDue := dispatchable_mono (Tick.clock_le_dueAt (t := t)) due
  exact (serves_takesUp getsTo.known getsTo.later).tick pass found isDue free (Int.le_refl _) getsTo.few

/-- A tick does not get to an effect that is behind. -/
theorem starved_tick {t : Tick} {s : Clocked} {eff : StorageEffect} (limit : 1 ≤ t.settings.limit) (behind : t.IsBehind s eff)
    (found : s.store.effects.find? eff.pk = some eff) : (t.take s).store.effects.find? eff.pk = some eff := by
  have pass := pass_dispatchEach t.settings (t.now s)
    (window Older t.settings.limit.toNat (s.store.effects.rows.filter (StorageEffect.dispatchable (t.dueAt s)))) (t.listed s)
  rw [Tick.take_eq limit]
  refine (serves_takesUp behind.known behind.later).starved (s := t.listed s) pass found ?_
  refine behind.full.trans (List.countP_mono_left (l := s.store.effects.rows) fun row _ => ?_)
  simp only [Bool.and_eq_true, Bool.not_eq_true', decide_eq_true_eq, decide_eq_false_iff_not]
  exact fun ⟨isHot, isSkipped, older⟩ => ⟨isHot, isSkipped, older.le, not_le.mpr older⟩

/-! ## Ticks one after the other -/

theorem clock_take (s : Clocked) (t : Tick) : s.clock ≤ (t.take s).clock :=
  clock_alone (dispatchOutboxOnce t.settings).run ⟨s, t.passes⟩

/-- A due effect whose connector is registered is dispatched within as many ticks as there are effects, if the ticks get to it. -/
theorem dispatched_within {s : Clocked} {eff : StorageEffect} {ticks : List Tick}
    (found : s.store.effects.find? eff.pk = some eff)
    (due : eff.dispatchable s.clock)
    (along : Along Tick.take (fun s t => 1 ≤ t.settings.limit ∧ (eff.connector.bind t.settings.connectors).isSome ∧
      t.GetsTo s eff) s ticks)
    (enough : s.store.effects.rows.length ≤ ticks.length) :
    ∃ earlier t later, ticks = earlier ++ t :: later ∧
      ∃ new, (t.take (run Tick.take s earlier)).store.effects.find? eff.pk = some new ∧ Attempted eff new := by
  have stillDue := Along.and_kept (I := fun s : Clocked => eff.dispatchable s.clock = true)
    (fun s t isDue => dispatchable_mono (clock_take s t) isDue) due along
  have tick : ∀ s (t : Tick), (eff.dispatchable s.clock ∧ 1 ≤ t.settings.limit ∧
      (eff.connector.bind t.settings.connectors).isSome ∧ t.GetsTo s eff) → s.store.effects.find? eff.pk = some eff →
      (∃ new, (t.take s).store.effects.find? eff.pk = some new ∧ Attempted eff new) ∨
        ((t.take s).store.effects.find? eff.pk = some eff ∧ (t.take s).store.effects.count (fun row => row.tsMs ≤ eff.tsMs) <
          s.store.effects.count fun row => row.tsMs ≤ eff.tsMs) :=
    fun s t ok there => dispatch_tick ok.2.1 ok.2.2.1 ok.1 ok.2.2.2 there
  exact served_within (fun s : Clocked => s.store.effects) (decide_eq_true (Int.le_refl eff.tsMs)) tick found stillDue enough

/-- An effect that each tick finds behind a window of others that it skips stays as it is. -/
theorem starved {s : Clocked} {eff : StorageEffect} {ticks : List Tick} (found : s.store.effects.find? eff.pk = some eff)
    (along : Along Tick.take (fun s t => 1 ≤ t.settings.limit ∧ t.IsBehind s eff) s ticks) :
    (run Tick.take s ticks).store.effects.find? eff.pk = some eff :=
  run_invariant (I := fun s : Clocked => s.store.effects.find? eff.pk = some eff)
    (fun _ _ there ok => starved_tick ok.1 ok.2 there) found along

end Tape.Embedded.Outbox
