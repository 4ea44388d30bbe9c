import Tape.Embedded.Dispatcher
import Tape.Embedded.Ledger
import Tape.Interleave.Protocol

/-! # Calls in flight

A tick claims an effect, calls the connector and records what came of the call.  The lease that it
takes is measured from the clock reading at the start of the tick.

If every outcome is recorded before the lease of its claim is over, no two calls are in flight for one
effect; and if besides the calls for `NON_IDEMPOTENT` effects return what the dispatcher knows, none of
them is called again unless its call failed.
-/

namespace Tape.Embedded

open Sql Interleave

namespace DispatchOutcome

/-- The counterparty has not done it. -/
def isFailed : DispatchOutcome → Bool
  | returned result => result.status = .failed
  | raised _ => false

/-- The dispatcher records that it is done, or that nobody knows. -/
def isFinal : DispatchOutcome → Bool
  | returned result => result.status = .confirmed || result.status = .unknown
  | raised _ => false

/-- The dispatcher records something. -/
def isRecorded : DispatchOutcome → Bool
  | returned result => !(result.status matches .other _)
  | raised _ => true

end DispatchOutcome

namespace Outbox

/-! ## The protocol of a tick -/

/-- How far a tick is with an effect; its lease is over at `expires`. -/
inductive Stage where
  | idle
  | claimed (pk : SessionKey × String) (expires : Int)
  | calling (row : StorageEffect) (expires : Int)
  | called (row : StorageEffect) (outcome : DispatchOutcome) (expires : Int)

structure Ticking where
  /-- The clock reading of the tick. -/
  now : Option Int
  stage : Stage

/-- The effect whose outcome the tick has still to record, and until when it has leased it. -/
def Stage.lease : Stage → Option ((SessionKey × String) × Int)
  | idle => none
  | claimed pk expires => some (pk, expires)
  | calling row expires => some (row.pk, expires)
  | called row _ expires => some (row.pk, expires)

def Stage.after (stage : Stage) : (act : Act) → act.Res → Stage
  | .claimEffectDispatch session key .., answer =>
    match answer with
    | .ok (true, some row) => claimed (session, key) row.dispatchClaimExpiresAtMs
    | _ => idle
  | .getEffect .., found =>
    match stage with
    | claimed pk expires => if (found.map StorageEffect.status) = some .pending then claimed pk expires else idle
    | other => other
  | .dispatchBegins row, _ =>
    match stage with
    | claimed _ expires => calling row expires
    | other => other
  | .dispatchEnds row outcome, _ =>
    match stage with
    | calling _ expires => if outcome.isRecorded then called row outcome expires else idle
    | other => other
  | .recordDispatchAttempt .., _ | .completeEffect .., _ => idle
  | .readClock, _ | .listEffectsToDispatch .., _ | .attachExternalRef .., _ | .beginEffect _, _
  | .recordExternalObservation .., _ | .pass _, _ => stage

/-- A tick claims with its clock reading, calls for what it has claimed, and records what it has called for. -/
def Proper (t : Ticking) : Act → Prop
  | .claimEffectDispatch _ _ claimer _ nowMs => claimer ≠ "" ∧ t.now = some nowMs ∧ t.stage = .idle
  | .dispatchBegins row => ∃ expires, t.stage = .claimed row.pk expires
  | .dispatchEnds row _ => ∃ expires, t.stage = .calling row expires
  | .recordDispatchAttempt session key _ nextDispatchAtMs =>
    ∃ row outcome expires, t.stage = .called row outcome expires ∧ row.pk = (session, key) ∧
      (outcome.isFinal → nextDispatchAtMs ≤ 0)
  | .completeEffect session key status _ _ =>
    t.stage = .idle ∨
      ∃ row outcome expires, t.stage = .called row outcome expires ∧ row.pk = (session, key) ∧ status ≠ .pending
  | _ => True

def nowAfter (t : Ticking) : (act : Act) → act.Res → Option Int
  | .readClock, now => some now
  | _, _ => t.now

def tickProtocol : Protocol Act Act.Res Ticking where
  start := ⟨none, .idle⟩
  proper := Proper
  after t act res := ⟨nowAfter t act res, t.stage.after act res⟩
  expects
    | .getEffect session key, found => ∀ row, found = some row → row.pk = (session, key)
    | .claimEffectDispatch .., answer => answer ≠ .ok (true, none)
    | _, _ => True

theorem tickProtocol_expects {act : Act} {s s' : Clocked} {res : act.Res} (answers : reactors.Answers act s res s') :
    tickProtocol.expects act res := by
  cases answers with
  | fault failed => cases failed
  | exec =>
    cases act with
    | getEffect session key => exact fun row found => Table.key_of_find? found
    | claimEffectDispatch session key claimer leaseTtlMs nowMs =>
      intro answer
      change Except.ok (_, _) = Except.ok (true, none) at answer
      simp only [Except.ok.injEq, Prod.mk.injEq] at answer
      obtain ⟨acquired, gone⟩ := answer
      simp only [acquired, if_true] at gone
      cases found : s.store.effect session key with
      | none => simp [found] at acquired
      | some row => simp [s.store.effect_writeEffect_self found] at gone
    | _ => trivial

/-- A dispatcher has a name: a lease without one is no lease. -/
def Admitted : Call → Prop
  | .dispatchOutboxOnce settings => settings.claimer ≠ ""
  | _ => True

section Follows

variable {α : Type}

/-- The tick is between two effects, unless it has ended. -/
def Between (now : Int) : Except ServiceError α → Ticking → Prop
  | .ok _, t => t = ⟨some now, .idle⟩
  | .error _, _ => True

theorem follows_record (settings : Settings) (now : Int) (fresh : StorageEffect) (outcome : DispatchOutcome)
    (expires : Int) :
    tickProtocol.Follows (Between now) (tickProtocol.after ⟨some now, .calling fresh expires⟩ (.dispatchEnds fresh outcome) ())
      (record settings now fresh outcome).run := by
  have recorded : ∀ next, (outcome.isFinal → next ≤ 0) → Proper ⟨some now, .called fresh outcome expires⟩
      (.recordDispatchAttempt fresh.session fresh.idempotencyKey "" next) :=
    fun next retries => ⟨fresh, outcome, expires, rfl, rfl, retries⟩
  have completed : ∀ status : EffectStatus, status ≠ .pending → Proper ⟨some now, .called fresh outcome expires⟩
      (.completeEffect fresh.session fresh.idempotencyKey status .null .null) :=
    fun status settled => .inr ⟨fresh, outcome, expires, rfl, rfl, settled⟩
  cases outcome with
  | raised error =>
    refine ⟨recorded _ (by simp [DispatchOutcome.isFinal]), fun answer _ => ?_⟩
    cases answer <;> trivial
  | returned result =>
    obtain ⟨status, externalRef, response, error, retryAfterMs⟩ := result
    cases status with
    | confirmed =>
      refine ⟨completed _ (by decide), fun answer _ => ?_⟩
      cases answer with
      | error e => trivial
      | ok value =>
        by_cases attached : externalRef = ""
        · subst attached
          exact rfl
        · simp only [ne_eq, attached, not_false_eq_true, if_true]
          exact ⟨trivial, fun _ _ => rfl⟩
    | unknown =>
      refine ⟨recorded _ (fun _ => Int.le_refl 0), fun answer _ => ?_⟩
      cases answer <;> trivial
    | failed =>
      by_cases terminal : retryAfterMs < 0
      · simp only [record, terminal, if_true]
        refine ⟨completed _ (by decide), fun answer _ => ?_⟩
        cases answer <;> trivial
      · simp only [record, terminal, if_false]
        refine ⟨recorded _ (by simp [DispatchOutcome.isFinal]), fun answer _ => ?_⟩
        cases answer <;> trivial
    | other text => exact rfl

theorem follows_dispatchFresh (settings : Settings) (now : Int) (connector : Connector) (session : SessionKey) (key : String)
    (expires : Int) (found : Option StorageEffect) (isKey : ∀ row, found = some row → row.pk = (session, key)) :
    tickProtocol.Follows (Between now)
      ⟨some now, Stage.after (.claimed (session, key) expires) (.getEffect session key) found⟩
      (dispatchFresh settings now connector key found).run := by
  cases found with
  | none => exact rfl
  | some fresh =>
    have same : fresh.pk = (session, key) := isKey fresh rfl
    by_cases pending : fresh.status = .pending
    · have stays : Stage.after (.claimed (session, key) expires) (.getEffect session key) (some fresh) =
          .claimed fresh.pk expires := by
        simp [Stage.after, pending, same]
      simp only [dispatchFresh, pending, ne_eq, not_true_eq_false, if_false, stays]
      exact ⟨⟨expires, rfl⟩, fun _ _ => ⟨⟨expires, rfl⟩, fun _ _ =>
        follows_record settings now fresh (connector fresh) expires⟩⟩
    · have ends : Stage.after (.claimed (session, key) expires) (.getEffect session key) (some fresh) = .idle := by
        simp [Stage.after, pending]
      simp only [dispatchFresh, pending, ne_eq, not_false_eq_true, if_true, ends]
      exact rfl

theorem follows_dispatchOne (settings : Settings) (named : settings.claimer ≠ "") (now : Int) (eff : StorageEffect) :
    tickProtocol.Follows (Between now) ⟨some now, .idle⟩ (dispatchOne settings now eff).run := by
  unfold dispatchOne
  cases eff.connector.bind settings.connectors with
  | none => exact rfl
  | some connector =>
    refine ⟨⟨named, rfl, rfl⟩, fun answer expected => ?_⟩
    cases answer with
    | error e => trivial
    | ok value =>
      obtain ⟨acquired, row⟩ := value
      cases acquired with
      | false => exact rfl
      | true =>
        cases row with
        | none => exact absurd rfl expected
        | some row =>
          exact ⟨trivial, fun found isKey => follows_dispatchFresh settings now connector eff.session eff.idempotencyKey
            row.dispatchClaimExpiresAtMs found isKey⟩

theorem follows_dispatchEach (settings : Settings) (named : settings.claimer ≠ "") (now : Int) (effects : List StorageEffect) :
    tickProtocol.Follows (Between now) ⟨some now, .idle⟩ (dispatchEach settings now effects).run := by
  induction effects with
  | nil => exact rfl
  | cons eff effects inductionHypothesis =>
    refine Protocol.Follows.exceptBind ((follows_dispatchOne settings named now eff).mono fun value t between => ?_)
    cases value with
    | error e => trivial
    | ok audit =>
      obtain rfl := between
      refine Protocol.Follows.exceptBind (inductionHypothesis.mono fun value t between => ?_)
      cases value with
      | error e => trivial
      | ok audits => exact between

theorem follows_body (call : Call) (admitted : Admitted call) :
    tickProtocol.Follows (fun _ _ => True) tickProtocol.start call.body := by
  cases call with
  | dispatchOutboxOnce settings =>
    refine ⟨trivial, fun now _ => ⟨trivial, fun effects _ => ?_⟩⟩
    exact (follows_dispatchEach settings admitted now effects).mono fun _ _ _ => trivial
  | completeEffect => exact ⟨.inl rfl, fun _ _ => trivial⟩
  | beginEffect | recordExternalObservation | pass => exact ⟨trivial, fun _ _ => trivial⟩

end Follows

/-! ## What one operation does to a lease -/

/-- The row stays, and if it is still pending, with its lease. -/
def KeepsLease (pk : SessionKey × String) (s s' : Store) : Prop :=
  ∀ row, s.effect pk.1 pk.2 = some row → ∃ row', s'.effect pk.1 pk.2 = some row' ∧
    (row'.status = .pending → row.status = .pending ∧ row'.dispatchClaimedBy = row.dispatchClaimedBy ∧
      row'.dispatchClaimExpiresAtMs = row.dispatchClaimExpiresAtMs)

/-- The effect whose lease the operation may take or give up. -/
def Act.touches : Act → Option (SessionKey × String)
  | claimEffectDispatch session key .. | recordDispatchAttempt session key .. => some (session, key)
  | _ => none

theorem KeepsLease.of_eq {pk : SessionKey × String} {s s' : Store} (same : s'.effect pk.1 pk.2 = s.effect pk.1 pk.2) :
    KeepsLease pk s s' :=
  fun row found => ⟨row, same.trans found, fun pending => ⟨pending, rfl, rfl⟩⟩

theorem KeepsLease.of_writesOnly {pk : SessionKey × String} {session : SessionKey} {key : String} {s s' : Store}
    (writes : WritesOnly session key s s') (ne : pk ≠ (session, key)) : KeepsLease pk s s' :=
  .of_eq (writes.effect_ne ne)

/-- An observation leaves an effect pending only if it was, and then with its lease. -/
theorem lease_observation (o : Observation) (now : Int) (row : StorageEffect)
    (pending : ((o.update now).apply row).status = .pending) :
    row.status = .pending ∧ ((o.update now).apply row).dispatchClaimedBy = row.dispatchClaimedBy ∧
      ((o.update now).apply row).dispatchClaimExpiresAtMs = row.dispatchClaimExpiresAtMs := by
  cases resolution : o.resolution with
  | confirmed | duplicate | failed | stuck => simp [Observation.update, Observation.apply, resolution] at pending
  | other text =>
    simp only [Observation.update, Observation.apply, resolution, Option.getD_none] at pending ⊢
    exact ⟨pending, trivial, trivial⟩
  | absent =>
    simp only [Observation.update, Observation.apply, resolution, Option.getD_some] at pending ⊢
    split at pending
    · cases pending
    · exact ⟨pending, trivial, trivial⟩

theorem keepsLease_exec (act : Act) (s : Clocked) (pk : SessionKey × String) (other : act.touches ≠ some pk) :
    KeepsLease pk s.store (act.exec s).2.store := by
  cases act with
  | claimEffectDispatch session key claimer leaseTtlMs nowMs =>
    exact .of_writesOnly (writesOnly_claimEffectDispatch ..) fun same => other (same ▸ rfl)
  | recordDispatchAttempt session key error nextDispatchAtMs =>
    exact .of_writesOnly (writesOnly_recordDispatchAttempt ..) fun same => other (same ▸ rfl)
  | beginEffect r => exact fun row found => ⟨row, effect_beginEffect found r s.clock, fun pending => ⟨pending, rfl, rfl⟩⟩
  | completeEffect session key status responseJson errorJson =>
    by_cases same : pk = (session, key)
    · subst same
      intro row found
      by_cases valid : status = .pending
      · refine ⟨row, ?_, fun pending => ⟨pending, rfl, rfl⟩⟩
        simpa [Act.exec, Act.ofResult, Embedded.completeEffect, valid] using found
      · refine ⟨_, effect_completeEffect found valid responseJson errorJson s.clock, fun pending => ?_⟩
        split at pending
        · exact absurd pending valid
        next settled => exact absurd pending settled
    · exact .of_writesOnly (writesOnly_completeEffect ..) same
  | recordExternalObservation session key o =>
    by_cases same : pk = (session, key)
    · subst same
      intro row found
      refine ⟨_, effect_recordExternalObservation found o s.clock, fun pending => ?_⟩
      split at pending
      next refused =>
        rw [if_pos refused]
        exact ⟨pending, rfl, rfl⟩
      next seen =>
        rw [if_neg seen]
        exact lease_observation o s.clock row pending
    · exact .of_writesOnly (writesOnly_recordExternalObservation ..) same
  | attachExternalRef session key externalRef =>
    by_cases same : pk = (session, key)
    · subst same
      intro row found
      exact ⟨_, s.store.effect_writeEffect_self found (attachment externalRef), fun pending => ⟨pending, rfl, rfl⟩⟩
    · exact .of_eq (s.store.effect_writeEffect_ne (attachment externalRef) same)
  | _ => exact .of_eq rfl

/-- There is an effect, and it is not pending. -/
def Settled (pk : SessionKey × String) (s : Store) : Prop :=
  ∃ row, s.effect pk.1 pk.2 = some row ∧ row.status ≠ .pending

/-- No operation makes an effect pending again. -/
theorem Settled.exec {pk : SessionKey × String} {s : Clocked} (settled : Settled pk s.store) (act : Act) :
    Settled pk (act.exec s).2.store := by
  obtain ⟨row, found, notPending⟩ := settled
  by_cases touched : act.touches = some pk
  · cases act with
    | claimEffectDispatch session key claimer leaseTtlMs nowMs =>
      cases touched
      refine ⟨_, effect_claimEffectDispatch found claimer leaseTtlMs nowMs s.clock, ?_⟩
      split <;> exact notPending
    | recordDispatchAttempt session key error nextDispatchAtMs =>
      cases touched
      refine ⟨_, effect_recordDispatchAttempt found error nextDispatchAtMs s.clock, ?_⟩
      by_cases gone : nextDispatchAtMs ≤ 0
      · simp [dispatchAttempt, gone]
      · simpa [dispatchAttempt, gone] using notPending
    | _ => cases touched
  · obtain ⟨row', found', lease⟩ := keepsLease_exec act s pk touched row found
    exact ⟨row', found', fun pending => notPending (lease pending).1⟩

/-! ## Leases are exclusive -/

def stageOf (tid : Nat) (log : List ReactorEvent) : Stage := (tickProtocol.stage tid log).stage

/-- The lease of a claim is not over when it is taken, nor when time passes before the outcome is
    recorded; and a call for a `NON_IDEMPOTENT` effect returns a status that the dispatcher knows. -/
def InTime (_ : Nat) (_ : Call) (h : ReactorHist) : Act → Prop
  | .claimEffectDispatch session key _ leaseTtlMs nowMs =>
    (h.state.store.effect session key).any (StorageEffect.dispatchable (orNow nowMs h.state.clock)) →
      h.state.clock < orNow nowMs h.state.clock + leaseTtlMs
  | .pass ms => ∀ event ∈ h.log, ∀ lease ∈ (stageOf event.tid h.log).lease, h.state.clock + ms < lease.2
  | .dispatchEnds row outcome => row.semantics = .nonIdempotent → outcome.isFailed ∨ outcome.isFinal
  | _ => True

/-- While the effect is pending, its row has the lease. -/
def Leased (pk : SessionKey × String) (expires : Int) (s : Store) : Prop :=
  ∃ row, s.effect pk.1 pk.2 = some row ∧
    (row.status = .pending → orNone row.dispatchClaimedBy ≠ none ∧ row.dispatchClaimExpiresAtMs = expires)

theorem Leased.keep {pk : SessionKey × String} {expires : Int} {s s' : Store} (leased : Leased pk expires s)
    (keeps : KeepsLease pk s s') : Leased pk expires s' := by
  obtain ⟨row, found, held⟩ := leased
  obtain ⟨row', found', lease⟩ := keeps row found
  refine ⟨row', found', fun pending => ?_⟩
  obtain ⟨before, claimer, until_⟩ := lease pending
  rw [claimer, until_]
  exact held before

structure Leases (h : ReactorHist) : Prop where
  now_le : ∀ tid now, (tickProtocol.stage tid h.log).now = some now → now ≤ h.state.clock
  leased : ∀ tid pk expires, (stageOf tid h.log).lease = some (pk, expires) →
    h.state.clock < expires ∧ Leased pk expires h.state.store
  alone : ∀ tid tid' pk expires expires', (stageOf tid h.log).lease = some (pk, expires) →
    (stageOf tid' h.log).lease = some (pk, expires') → tid = tid'

section Push

variable {h : ReactorHist} {tid : Nat} {call : Call} {act : Act}

/-- The history after the operation was executed. -/
abbrev executed (h : ReactorHist) (tid : Nat) (act : Act) : ReactorHist :=
  h.push tid act (act.exec h.state).1 (act.exec h.state).2

theorem stageOf_executed_self (h : ReactorHist) (tid : Nat) (act : Act) :
    stageOf tid (executed h tid act).log = (stageOf tid h.log).after act (act.exec h.state).1 := by
  rw [stageOf, tickProtocol.stage_push_self]
  rfl

theorem stageOf_executed_ne (h : ReactorHist) {tid other : Nat} (act : Act) (ne : other ≠ tid) :
    stageOf other (executed h tid act).log = stageOf other h.log := by
  rw [stageOf, tickProtocol.stage_push_ne h act _ _ ne, stageOf]

/-- Only a claim takes a lease, and only who has it gives it up. -/
theorem lease_after {t : Ticking} {res : act.Res} {lease : (SessionKey × String) × Int} (proper : Proper t act)
    (noClaim : ∀ session key claimer leaseTtlMs nowMs, act ≠ .claimEffectDispatch session key claimer leaseTtlMs nowMs)
    (after : (t.stage.after act res).lease = some lease) : t.stage.lease = some lease ∧ act.touches = none := by
  obtain ⟨now, stage⟩ := t
  cases act with
  | claimEffectDispatch session key claimer leaseTtlMs nowMs => exact absurd rfl (noClaim session key claimer leaseTtlMs nowMs)
  | recordDispatchAttempt | completeEffect => cases after
  | getEffect session key =>
    cases stage with
    | claimed pk expires =>
      simp only [Stage.after] at after
      split at after
      · exact ⟨after, rfl⟩
      · cases after
    | _ => exact ⟨after, rfl⟩
  | dispatchBegins row =>
    obtain ⟨expires, isClaimed⟩ := proper
    simp only at isClaimed
    subst isClaimed
    exact ⟨after, rfl⟩
  | dispatchEnds row outcome =>
    obtain ⟨expires, isCalling⟩ := proper
    simp only at isCalling
    subst isCalling
    simp only [Stage.after] at after
    split at after
    · exact ⟨after, rfl⟩
    · cases after
  | _ => exact ⟨after, rfl⟩

/-- An effect that is leased cannot be claimed. -/
theorem Leased.not_dispatchable {pk : SessionKey × String} {expires now clock : Int} {s : Store}
    (leased : Leased pk expires s) (le : now ≤ clock) (before : clock < expires) :
    (s.effect pk.1 pk.2).any (StorageEffect.dispatchable (orNow now clock)) = false := by
  obtain ⟨row, found, held⟩ := leased
  rw [found, Option.any_some]
  by_contra due
  simp only [StorageEffect.dispatchable, Bool.not_eq_false, Bool.and_eq_true, Bool.or_eq_true, decide_eq_true_eq] at due
  obtain ⟨⟨⟨pending, -⟩, -⟩, free⟩ := due
  obtain ⟨claimer, until_⟩ := held pending
  have reading : orNow now clock ≤ clock := by
    unfold orNow
    split <;> omega
  cases free with
  | inl unclaimed => exact claimer unclaimed
  | inr ranOut => omega

/-- A lease that is held after an operation was held before, or has just been taken, from nobody. -/
theorem Leases.lease_cases (leases : Leases h) (inTime : InTime tid call h act)
    (proper : Proper (tickProtocol.stage tid h.log) act) {other : Nat} {pk : SessionKey × String} {expires : Int}
    (after : (stageOf other (executed h tid act).log).lease = some (pk, expires)) :
    (stageOf other h.log).lease = some (pk, expires) ∧ KeepsLease pk h.state.store (act.exec h.state).2.store ∨
      other = tid ∧ h.state.clock < expires ∧ Leased pk expires (act.exec h.state).2.store ∧
        (act.exec h.state).2.clock = h.state.clock ∧ ¬ Settled pk h.state.store ∧ ∀ tid' expires',
        (stageOf tid' h.log).lease ≠ some (pk, expires') := by
  by_cases claims : ∃ session key claimer leaseTtlMs nowMs, act = .claimEffectDispatch session key claimer leaseTtlMs nowMs
  · obtain ⟨session, key, claimer, leaseTtlMs, nowMs, rfl⟩ := claims
    obtain ⟨named, reading, isIdle⟩ := proper
    have free : (h.state.store.effect session key).any (StorageEffect.dispatchable (orNow nowMs h.state.clock)) →
        ∀ tid' expires', (stageOf tid' h.log).lease ≠ some ((session, key), expires') := by
      intro acquired tid' expires' held
      obtain ⟨before, leased⟩ := leases.leased tid' _ _ held
      have refused := leased.not_dispatchable (leases.now_le tid nowMs reading) before
      rw [acquired] at refused
      cases refused
    by_cases acquired : (h.state.store.effect session key).any (StorageEffect.dispatchable (orNow nowMs h.state.clock))
    · have there : (h.state.store.effect session key).isSome := by
        cases found : h.state.store.effect session key with
        | none => simp [found] at acquired
        | some row => rfl
      obtain ⟨row, found⟩ := Option.isSome_iff_exists.mp there
      have written := h.state.store.effect_writeEffect_self found
        (claim claimer (orNow nowMs h.state.clock + leaseTtlMs))
      by_cases own : other = tid
      · subst own
        rw [stageOf_executed_self] at after
        simp only [Act.exec, Act.ofResult, Embedded.claimEffectDispatch, acquired, if_true, Except.map, written,
          Stage.after, Stage.lease, Option.some.injEq, Prod.mk.injEq] at after
        obtain ⟨rfl, rfl⟩ := after
        refine .inr ⟨rfl, inTime acquired, ⟨_, ?_, fun _ => ⟨?_, rfl⟩⟩, rfl, ?_, free acquired⟩
        · simp only [Act.exec, Act.ofResult, Embedded.claimEffectDispatch, acquired, if_true, leaves_ok]
          exact written
        · simp [claim, orNone, named]
        · rintro ⟨row', found', settled⟩
          simp [found', StorageEffect.dispatchable, settled] at acquired
      · rw [stageOf_executed_ne h _ own] at after
        have ne : pk ≠ (session, key) := by
          rintro rfl
          exact free acquired other expires after
        exact .inl ⟨after, keepsLease_exec _ _ pk fun touched => ne (Option.some.inj touched).symm⟩
    · by_cases own : other = tid
      · subst own
        rw [stageOf_executed_self] at after
        simp [Act.exec, Act.ofResult, Embedded.claimEffectDispatch, acquired, Except.map, Stage.after, Stage.lease] at after
      · rw [stageOf_executed_ne h _ own] at after
        refine .inl ⟨after, .of_eq ?_⟩
        simp [Act.exec, Act.ofResult, Embedded.claimEffectDispatch, acquired]
  · have noClaim : ∀ session key claimer leaseTtlMs nowMs,
        act ≠ .claimEffectDispatch session key claimer leaseTtlMs nowMs :=
      fun session key claimer leaseTtlMs nowMs same => claims ⟨session, key, claimer, leaseTtlMs, nowMs, same⟩
    by_cases own : other = tid
    · subst own
      rw [stageOf_executed_self] at after
      obtain ⟨held, untouched⟩ := lease_after proper noClaim after
      exact .inl ⟨held, keepsLease_exec act _ pk (by simp [untouched])⟩
    · rw [stageOf_executed_ne h _ own] at after
      refine .inl ⟨after, keepsLease_exec act _ pk fun touched => ?_⟩
      -- only the thread that has the lease records an attempt
      cases act with
      | claimEffectDispatch => exact noClaim _ _ _ _ _ rfl
      | recordDispatchAttempt session key error nextDispatchAtMs =>
        obtain ⟨row, outcome, expires', isCalled, same, -⟩ := proper
        have held : (stageOf tid h.log).lease = some (pk, expires') := by
          rw [stageOf, isCalled, Stage.lease, same, ← Option.some.inj touched]
        exact own (leases.alone _ _ _ _ _ after held)
      | _ => cases touched

theorem clock_le_exec (act : Act) (s : Clocked) : s.clock ≤ (act.exec s).2.clock := by
  cases act with
  | pass ms => exact Int.le_add_of_nonneg_right (Int.natCast_nonneg ms)
  | _ => exact Int.le_refl _

/-- A thread with a lease has executed something. -/
theorem exists_event_of_lease {lease : (SessionKey × String) × Int} (held : (stageOf tid h.log).lease = some lease) :
    ∃ event ∈ h.log, event.tid = tid := by
  by_contra none_
  have fresh : lastOwn tid h.log = none := by
    rw [lastOwn, List.find?_eq_none]
    intro event member
    simpa using fun same => none_ ⟨event, member, same⟩
  rw [stageOf, Protocol.stage, ownFold_of_fresh fresh] at held
  cases held

theorem Leases.push (leases : Leases h) (inTime : InTime tid call h act)
    (proper : Proper (tickProtocol.stage tid h.log) act) : Leases (executed h tid act) where
  now_le other now reading := by
    have later := clock_le_exec act h.state
    have before : ∀ now, (tickProtocol.stage other h.log).now = some now → now ≤ (act.exec h.state).2.clock :=
      fun now reading => Int.le_trans (leases.now_le other now reading) later
    by_cases own : other = tid
    · subst own
      rw [tickProtocol.stage_push_self] at reading
      cases act with
      | readClock =>
        cases reading
        exact Int.le_refl _
      | _ => exact before now reading
    · rw [tickProtocol.stage_push_ne h act _ _ own] at reading
      exact before now reading
  leased other pk expires held := by
    cases leases.lease_cases inTime proper held with
    | inl kept =>
      obtain ⟨before, leased⟩ := leases.leased other pk expires kept.1
      refine ⟨?_, leased.keep kept.2⟩
      cases act with
      | pass ms =>
        obtain ⟨event, member, rfl⟩ := exists_event_of_lease kept.1
        exact inTime event member _ kept.1
      | _ => exact before
    | inr taken =>
      obtain ⟨-, before, leased, sameClock, -⟩ := taken
      rw [Hist.push_state, sameClock]
      exact ⟨before, leased⟩
  alone first second pk expires expires' held held' := by
    cases leases.lease_cases inTime proper held with
    | inl kept =>
      cases leases.lease_cases inTime proper held' with
      | inl kept' => exact leases.alone _ _ _ _ _ kept.1 kept'.1
      | inr taken => exact absurd kept.1 (taken.2.2.2.2.2 _ _)
    | inr taken =>
      cases leases.lease_cases inTime proper held' with
      | inl kept' => exact absurd kept'.1 (taken.2.2.2.2.2 _ _)
      | inr taken' => exact taken.1.trans taken'.1.symm

end Push

/-! ## Calls -/

/-- The call that the thread has begun and that has not ended. -/
def inFlight (tid : Nat) (log : List ReactorEvent) : Option StorageEffect :=
  ownFold tid (fun calling event =>
    match event.op with
    | .dispatchBegins row => some row
    | .dispatchEnds .. => none
    | _ => calling) none log

/-- No two calls are in flight for one effect. -/
def OneInFlight (log : List ReactorEvent) : Prop :=
  ∀ tid tid' row row', inFlight tid log = some row → inFlight tid' log = some row' → row.pk = row'.pk → tid = tid'

/-- The thread begins a call for a `NON_IDEMPOTENT` effect. -/
def Begins (tid : Nat) (pk : SessionKey × String) (event : ReactorEvent) : Prop :=
  event.tid = tid ∧ ∃ row, event.op = .dispatchBegins row ∧ row.pk = pk ∧ row.semantics = .nonIdempotent

/-- The thread's call fails. -/
def fails (tid : Nat) (pk : SessionKey × String) (event : ReactorEvent) : Bool :=
  match event.op with
  | .dispatchEnds row outcome => event.tid = tid && row.pk = pk && outcome.isFailed
  | _ => false

/-- The thread has begun a call for the effect, and it has not failed. -/
def Unsettled (tid : Nat) (pk : SessionKey × String) (log : List ReactorEvent) : Prop :=
  ∃ newer first older, log = newer ++ first :: older ∧ Begins tid pk first ∧ ∀ event ∈ newer, fails tid pk event = false

/-- Nobody calls for an effect for which a call has not failed. -/
def NotRepeated (event : ReactorEvent) (older : List ReactorEvent) : Prop :=
  ∀ row, event.op = .dispatchBegins row → ∀ tid, ¬ Unsettled tid row.pk older

theorem unsettled_cons {tid : Nat} {pk : SessionKey × String} {event : ReactorEvent} {log : List ReactorEvent}
    (unsettled : Unsettled tid pk (event :: log)) :
    Begins tid pk event ∨ Unsettled tid pk log ∧ fails tid pk event = false := by
  obtain ⟨newer, first, older, split, begins, calm⟩ := unsettled
  cases newer with
  | nil =>
    obtain ⟨rfl, -⟩ := List.cons.inj split
    exact .inl begins
  | cons newest newer =>
    obtain ⟨rfl, rest⟩ := List.cons.inj split
    exact .inr ⟨⟨newer, first, older, rest, begins, fun event member => calm event (List.mem_cons_of_mem _ member)⟩,
      calm _ List.mem_cons_self⟩

/-- The thread calls, or has called and knows that the effect is not to be called again. -/
def Stage.Busy (pk : SessionKey × String) : Stage → Prop
  | calling row _ => row.pk = pk ∧ row.semantics = .nonIdempotent
  | called row outcome _ => row.pk = pk ∧ outcome.isFinal
  | _ => False

structure Calls (h : ReactorHist) : Prop extends Leases h where
  unsettled : ∀ tid pk, Unsettled tid pk h.log → (stageOf tid h.log).Busy pk ∨ Settled pk h.state.store
  claimed : ∀ tid pk expires, stageOf tid h.log = .claimed pk expires → ∀ tid', ¬ Unsettled tid' pk h.log
  flight : ∀ tid row, inFlight tid h.log = some row → ∃ expires, stageOf tid h.log = .calling row expires
  notRepeated : Logged NotRepeated h.log

section Push

variable {h : ReactorHist} {tid : Nat} {call : Call} {act : Act}

theorem Stage.Busy.lease {pk : SessionKey × String} {stage : Stage} (busy : stage.Busy pk) :
    ∃ expires, stage.lease = some (pk, expires) := by
  cases stage with
  | calling row expires => exact ⟨expires, by rw [Stage.lease, busy.1]⟩
  | called row outcome expires => exact ⟨expires, by rw [Stage.lease, busy.1]⟩
  | idle | claimed => exact busy.elim

/-- While it calls, a tick does nothing but end the call. -/
theorem calling_after {t : Ticking} {row : StorageEffect} {expires : Int} (res : act.Res) (proper : Proper t act)
    (calling : t.stage = .calling row expires) :
    t.stage.after act res = .calling row expires ∨ ∃ outcome, act = .dispatchEnds row outcome := by
  obtain ⟨now, stage⟩ := t
  obtain rfl : stage = .calling row expires := calling
  cases act with
  | claimEffectDispatch => cases proper.2.2
  | dispatchBegins row => cases proper.choose_spec
  | recordDispatchAttempt => cases proper.choose_spec.choose_spec.choose_spec.1
  | completeEffect =>
    cases proper with
    | inl isIdle => cases isIdle
    | inr isCalled => cases isCalled.choose_spec.choose_spec.choose_spec.1
  | dispatchEnds row' outcome =>
    obtain ⟨expires', isCalling⟩ := proper
    cases isCalling
    exact .inr ⟨outcome, rfl⟩
  | _ => exact .inl rfl

/-- What a thread that is busy with an effect does next leaves it busy, or settles the effect. -/
theorem busy_after {t : Ticking} {pk : SessionKey × String} {s : Clocked} (proper : Proper t act) (busy : t.stage.Busy pk)
    (there : ∃ row, s.store.effect pk.1 pk.2 = some row)
    (returned : ∀ row outcome, act = .dispatchEnds row outcome → row.pk = pk → row.semantics = .nonIdempotent →
      outcome.isFinal) :
    (t.stage.after act (act.exec s).1).Busy pk ∨ Settled pk (act.exec s).2.store := by
  obtain ⟨now, stage⟩ := t
  obtain ⟨row, found⟩ := there
  cases stage with
  | idle | claimed => exact busy.elim
  | calling calling expires =>
    cases calling_after (act.exec s).1 proper rfl with
    | inl same =>
      rw [same]
      exact .inl busy
    | inr ends =>
      obtain ⟨outcome, rfl⟩ := ends
      have final := returned calling outcome rfl busy.1 busy.2
      have recorded : outcome.isRecorded := by
        cases outcome with
        | raised error => rfl
        | returned result =>
          obtain ⟨status, _, _, _, _⟩ := result
          cases status with
          | other text => cases final
          | _ => rfl
      simp only [Stage.after, recorded, if_true]
      exact .inl ⟨busy.1, final⟩
  | called calling outcome expires =>
    cases act with
    | claimEffectDispatch => cases proper.2.2
    | dispatchBegins row => cases proper.choose_spec
    | dispatchEnds row outcome => cases proper.choose_spec
    | recordDispatchAttempt session key error nextDispatchAtMs =>
      obtain ⟨row', outcome', expires', isCalled, same, retries⟩ := proper
      cases isCalled
      rw [busy.1] at same
      subst same
      -- an outcome that is final is recorded as `UNKNOWN`
      have gone : nextDispatchAtMs ≤ 0 := retries busy.2
      refine .inr ⟨_, effect_recordDispatchAttempt found error nextDispatchAtMs s.clock, ?_⟩
      simp [dispatchAttempt, gone]
    | completeEffect session key status responseJson errorJson =>
      cases proper with
      | inl isIdle => cases isIdle
      | inr isCalled =>
        obtain ⟨row', outcome', expires', isCalled, same, valid⟩ := isCalled
        cases isCalled
        rw [busy.1] at same
        subst same
        refine .inr ⟨_, effect_completeEffect found valid responseJson errorJson s.clock, ?_⟩
        split
        · exact valid
        next settled => exact settled
    | _ => exact .inl busy

/-- An effect that is claimed after an operation, and was leased before, was claimed before. -/
theorem claimed_after {t : Ticking} {pk : SessionKey × String} {expires : Int} {res : act.Res} (proper : Proper t act)
    (held : t.stage.lease = some (pk, expires)) (after : t.stage.after act res = .claimed pk expires) :
    t.stage = .claimed pk expires := by
  obtain ⟨now, stage⟩ := t
  cases stage with
  | idle => cases held
  | claimed pk' expires' =>
    cases held
    rfl
  | calling row expires' =>
    cases calling_after res proper rfl with
    | inl same => cases same.symm.trans after
    | inr ends =>
      obtain ⟨outcome, rfl⟩ := ends
      simp only [Stage.after] at after
      split at after <;> cases after
  | called row outcome expires' =>
    cases act with
    | claimEffectDispatch => cases proper.2.2
    | _ => cases after

theorem Calls.push (calls : Calls h) (inTime : InTime tid call h act)
    (proper : Proper (tickProtocol.stage tid h.log) act) : Calls (executed h tid act) where
  toLeases := calls.toLeases.push inTime proper
  unsettled other pk unsettled := by
    cases unsettled_cons unsettled with
    | inl begins =>
      obtain ⟨rfl, row, rfl, same, semantics⟩ := begins
      obtain ⟨expires, isClaimed⟩ := proper
      rw [stageOf_executed_self, stageOf, isClaimed]
      exact .inl ⟨same, semantics⟩
    | inr before =>
      obtain ⟨unsettled, calm⟩ := before
      cases calls.unsettled other pk unsettled with
      | inr settled => exact .inr (settled.exec act)
      | inl busy =>
        by_cases own : other = tid
        · subst own
          rw [stageOf_executed_self]
          obtain ⟨expires, held⟩ := busy.lease
          obtain ⟨-, row, found, -⟩ := calls.leased other pk expires held
          refine busy_after proper busy ⟨row, found⟩ fun row outcome ends same semantics => ?_
          subst ends
          have notFailed : outcome.isFailed = false := by
            simpa [fails, same] using calm
          simpa [notFailed] using inTime semantics
        · rw [stageOf_executed_ne h act own]
          exact .inl busy
  claimed other pk expires isClaimed tid' unsettled := by
    have held : (stageOf other (executed h tid act).log).lease = some (pk, expires) := by
      rw [isClaimed, Stage.lease]
    -- who begins a call has claimed the effect
    have beginner : Begins tid' pk ⟨tid, act, (act.exec h.state).1⟩ →
        ∃ expires', stageOf tid h.log = .claimed pk expires' ∧ stageOf tid (executed h tid act).log ≠ .claimed pk expires := by
      rintro ⟨-, row, rfl, rfl, -⟩
      obtain ⟨expires', isClaimed'⟩ := proper
      refine ⟨expires', isClaimed', fun after => ?_⟩
      rw [stageOf_executed_self, stageOf, isClaimed'] at after
      cases after
    cases calls.toLeases.lease_cases inTime proper held with
    | inl kept =>
      cases unsettled_cons unsettled with
      | inl begins =>
        obtain ⟨expires', isClaimed', gone⟩ := beginner begins
        obtain rfl : other = tid := calls.alone _ _ _ _ _ kept.1 (by rw [isClaimed', Stage.lease])
        exact gone isClaimed
      | inr before =>
        refine calls.claimed other pk expires ?_ tid' before.1
        by_cases own : other = tid
        · subst own
          rw [stageOf_executed_self] at isClaimed
          exact claimed_after proper kept.1 isClaimed
        · rwa [stageOf_executed_ne h act own] at isClaimed
    | inr taken =>
      obtain ⟨-, -, -, -, notSettled, free⟩ := taken
      cases unsettled_cons unsettled with
      | inl begins =>
        obtain ⟨expires', isClaimed', -⟩ := beginner begins
        exact free tid expires' (by rw [isClaimed', Stage.lease])
      | inr before =>
        cases calls.unsettled tid' pk before.1 with
        | inr settled => exact notSettled settled
        | inl busy =>
          obtain ⟨expires', busyLease⟩ := busy.lease
          exact free tid' expires' busyLease
  flight other row calling := by
    by_cases own : other = tid
    · subst own
      simp only [inFlight, Hist.push_log, ownFold, if_true] at calling
      have stays : inFlight other h.log = some row → (∀ row outcome, act ≠ .dispatchEnds row outcome) →
          ∃ expires, stageOf other (executed h other act).log = .calling row expires := by
        intro before continues
        obtain ⟨expires, isCalling⟩ := calls.flight other row before
        rw [stageOf_executed_self]
        cases calling_after (act.exec h.state).1 proper isCalling with
        | inl same => exact ⟨expires, same⟩
        | inr ends =>
          obtain ⟨outcome, isEnd⟩ := ends
          exact absurd isEnd (continues row outcome)
      cases act with
      | dispatchBegins row' =>
        cases calling
        obtain ⟨expires, isClaimed⟩ := proper
        exact ⟨expires, by rw [stageOf_executed_self, stageOf, isClaimed]; rfl⟩
      | dispatchEnds => cases calling
      | _ => exact stays calling fun _ _ => nofun
    · rw [inFlight, Hist.push_log, ownFold_cons_ne (Ne.symm own)] at calling
      obtain ⟨expires, isCalling⟩ := calls.flight other row calling
      exact ⟨expires, by rw [stageOf_executed_ne h act own, isCalling]⟩
  notRepeated := by
    refine ⟨fun row begins tid' => ?_, calls.notRepeated⟩
    obtain rfl : act = .dispatchBegins row := begins
    obtain ⟨expires, isClaimed⟩ := proper
    exact calls.claimed tid row.pk expires isClaimed tid'

end Push

theorem Calls.oneInFlight {h : ReactorHist} (calls : Calls h) : OneInFlight h.log := by
  intro tid tid' row row' calling calling' same
  obtain ⟨expires, isCalling⟩ := calls.flight tid row calling
  obtain ⟨expires', isCalling'⟩ := calls.flight tid' row' calling'
  exact calls.alone tid tid' row.pk expires expires' (by rw [isCalling, Stage.lease])
    (by rw [isCalling', Stage.lease, same])

/-- Where every outcome is recorded in time, no two calls are in flight for one effect, and an effect
    that is `NON_IDEMPOTENT` is called again only after its call failed. -/
theorem calls_exclusive (s : Store) (clock : Int) (choices : List (Choice Call))
    (along : reactors.Along (System.Permits Admitted InTime) (quiet s clock) choices) :
    OneInFlight (reactors.run (quiet s clock) choices).log ∧
      Logged NotRepeated (reactors.run (quiet s clock) choices).log := by
  have calls : Calls (reactors.run (quiet s clock) choices).toHist := by
    refine Protocol.run_protocol (P := tickProtocol) tickProtocol_expects follows_body ?_ rfl rfl ?_ along
    · intro tid call h act res state answers inTime proper calls
      cases answers with
      | fault failed => cases failed
      | exec => exact calls.push inTime proper
    · constructor
      · constructor
        · intro tid now reading
          cases reading
        · intro tid pk expires held
          cases held
        · intro tid tid' pk expires expires' held
          cases held
      · rintro tid pk ⟨newer, first, older, split, -⟩
        simp [quiet] at split
      · intro tid pk expires isClaimed
        cases isClaimed
      · intro tid row calling
        cases calling
      · trivial
  exact ⟨calls.oneInFlight, calls.notRepeated⟩

/-! ## Two dispatchers -/

instance : (call : Call) → Decidable (Admitted call)
  | .dispatchOutboxOnce settings => inferInstanceAs (Decidable (settings.claimer ≠ ""))
  | .beginEffect _ | .completeEffect .. | .recordExternalObservation .. | .pass _ => isTrue trivial

instance (tid : Nat) (call : Call) (h : ReactorHist) : (act : Act) → Decidable (InTime tid call h act)
  | .claimEffectDispatch session key _ leaseTtlMs nowMs =>
    inferInstanceAs (Decidable ((h.state.store.effect session key).any
      (StorageEffect.dispatchable (orNow nowMs h.state.clock)) → h.state.clock < orNow nowMs h.state.clock + leaseTtlMs))
  | .pass ms => inferInstanceAs (Decidable (∀ event ∈ h.log, ∀ lease ∈ (stageOf event.tid h.log).lease,
      h.state.clock + ms < lease.2))
  | .dispatchEnds row outcome =>
    inferInstanceAs (Decidable (row.semantics = .nonIdempotent → outcome.isFailed ∨ outcome.isFinal))
  | .readClock | .listEffectsToDispatch .. | .getEffect .. | .dispatchBegins _ | .recordDispatchAttempt ..
  | .attachExternalRef .. | .completeEffect .. | .beginEffect _ | .recordExternalObservation .. => isTrue trivial

def wire (key : String) : BeginEffect where
  session := ⟨"app", "user", "s"⟩
  invocationId := "i"
  customKey := key
  semantics := .nonIdempotent
  dispatchMode := .outbox
  connector := some "bank"

/-- A dispatcher whose leases last ten milliseconds. -/
def dispatcher (claimer : String) (outcome : DispatchOutcome) : Call :=
  .dispatchOutboxOnce { connectors := fun _ => some fun _ => outcome, claimer, leaseTtlMs := 10 }

def exec (tid steps : Nat) : List (Choice Call) := List.replicate steps (.exec tid)

/-- Two transfers are asked for at time 100. -/
def asked : List (Choice Call) :=
  [.spawn (.beginEffect (wire "k")), .spawn (.beginEffect (wire "l")), .exec 0, .exec 1]

def sent : DispatchOutcome := .returned { status := .confirmed }

/-- The first call takes eight milliseconds, and before the second returns the other dispatcher comes. -/
def slowBank : List (Choice Call) :=
  asked ++ .spawn (dispatcher "a" sent) :: exec 2 5 ++ [.spawn (.pass 8), .exec 3] ++ exec 2 5 ++
    [.spawn (.pass 4), .exec 4, .spawn (dispatcher "b" sent)] ++ exec 5 5

/-- Both calls are recorded before ten milliseconds have passed. -/
def quickBank : List (Choice Call) :=
  asked ++ .spawn (dispatcher "a" sent) :: exec 2 5 ++ [.spawn (.pass 8), .exec 3] ++ exec 2 7 ++
    [.spawn (.pass 8), .exec 4, .spawn (dispatcher "b" sent)] ++ exec 5 5

theorem quick_bank_called_once :
    OneInFlight (reactors.run (quiet .empty 100) quickBank).log ∧
      Logged NotRepeated (reactors.run (quiet .empty 100) quickBank).log :=
  calls_exclusive .empty 100 quickBank (by decide)

/-- The calls of the run, newest first. -/
def begun (log : List ReactorEvent) : List (Nat × String × EffectSemantics) :=
  log.filterMap fun event =>
    match event.op with
    | .dispatchBegins row => some (event.tid, row.idempotencyKey, row.semantics)
    | _ => none

/-- The bank does not answer, and after the backoff the dispatcher comes again. -/
def silentBank : List (Choice Call) :=
  [.spawn (.beginEffect (wire "k")), .exec 0, .spawn (dispatcher "a" (.raised "timeout"))] ++ exec 1 7 ++
    [.spawn (.pass 6000), .exec 2, .spawn (dispatcher "a" (.raised "timeout"))] ++ exec 3 5

/-- The lease of the second transfer began with the tick, so both dispatchers call for it at once; and a
    transfer whose call raised is sent again, though nobody knows whether it was made. -/
theorem bank_called_twice :
    ((inFlight 2 (reactors.run (quiet .empty 100) slowBank).log).map StorageEffect.pk = some ((wire "l").session, "l") ∧
      (inFlight 5 (reactors.run (quiet .empty 100) slowBank).log).map StorageEffect.pk = some ((wire "l").session, "l")) ∧
    begun (reactors.run (quiet .empty 100) silentBank).log = [(3, "k", .nonIdempotent), (1, "k", .nonIdempotent)] ∧
      (reactors.run (quiet .empty 100) silentBank).log.all fun event =>
        !fails 1 ((wire "k").session, "k") event && !(event.op matches .recordExternalObservation ..) := by
  decide

end Outbox

end Tape.Embedded
