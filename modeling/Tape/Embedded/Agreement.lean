import Tape.Effect.Alone
import Tape.Embedded.Final

/-! # The two effect ledgers side by side

"Same semantics, embedded transport": every operation is served by the embedded service and, with
the same arguments and the same clock, by the server's store.  A run of the server stands for a
session, or for one of its invocations; only the server asks for an authorization scope.
-/

namespace Tape.Embedded

open Sql

/-! ## The enumerations on the wire -/

def EffectStatus.code : EffectStatus → Int
  | pending => Tape.EffectStatus.pending.code
  | confirmed => Tape.EffectStatus.confirmed.code
  | failed => Tape.EffectStatus.failed.code
  | unknown => Tape.EffectStatus.unknown.code

def EffectSemantics.code : EffectSemantics → Int
  | idempotent => Tape.EffectSemantics.idempotent.code
  | nonIdempotent => Tape.EffectSemantics.nonIdempotent.code
  | observeOnly => Tape.EffectSemantics.observeOnly.code

def EffectDispatchMode.code : EffectDispatchMode → Int
  | inline => Tape.EffectDispatchMode.inline.code
  | outbox => Tape.EffectDispatchMode.outbox.code

/-- A text that is no resolution has no code of its own. -/
def EffectResolution.code : EffectResolution → Int
  | confirmed => Tape.EffectResolution.confirmed.code
  | failed => Tape.EffectResolution.failed.code
  | absent => Tape.EffectResolution.absent.code
  | duplicate => Tape.EffectResolution.duplicate.code
  | stuck => Tape.EffectResolution.stuck.code
  | other _ => Tape.EffectResolution.unspecified.code

theorem EffectStatus.code_inj {a b : EffectStatus} (same : a.code = b.code) : a = b := by
  cases a <;> cases b <;> first | rfl | cases same

/-! ## The pair of ledgers -/

/-- How the arguments of the one become those of the other. -/
structure Mapping where
  /-- The run that the effect of a session belongs to. -/
  runOf : SessionKey → String → String
  dumps : Json → String

structure LedgerOp where
  call : LedgerCall
  /-- The server process that is asked, and the scope the effect is begun under. -/
  server : Nat := 0
  scope : String := ""

namespace Mapping

variable (m : Mapping)

def request (r : BeginEffect) (scope : String) : RunStore.EffectRequest where
  runId := m.runOf r.session r.key
  decisionIndex := r.decisionIndex
  toolName := r.toolName
  callIndex := r.callIndex
  requestJson := m.dumps r.requestJson
  customKey := r.customKey
  semantics := r.semantics.code
  dispatchMode := r.dispatchMode.code
  businessKey := r.businessKey.getD ""
  connector := r.connector.getD ""
  scope := scope

def serverCall (op : LedgerOp) : Call :=
  match op.call with
  | .begin_ r now => .beginEffect op.server (m.request r op.scope) now
  | .complete session key status responseJson errorJson now =>
    .completeEffect (m.runOf session key) key status.code (m.dumps responseJson) (m.dumps errorJson) now
  | .claim session key claimer leaseTtlMs nowMs clock =>
    .claimEffectDispatch (m.runOf session key) key claimer leaseTtlMs nowMs clock
  | .attempt session key error nextDispatchAtMs now =>
    .recordDispatchAttempt (m.runOf session key) key error nextDispatchAtMs now
  | .observe session key o now =>
    .recordExternalObservation (m.runOf session key) key o.resolution.code o.externalRef (m.dumps o.responseJson)
      (m.dumps o.errorJson) o.compensateOnDuplicateKind now now

/-- Both serve the operation, the server with nobody else at work. -/
def step (c : Store × World) (op : LedgerOp) : Store × World :=
  (op.call.serve c.1, (tape.alone (m.serverCall op).body c.2).2)

/-- No other session has the run under the key. -/
def Separates (session : SessionKey) (key : String) : Prop :=
  ∀ other, m.runOf other key = m.runOf session key → other = session

end Mapping

/-! ## What is to agree -/

/-- The two records have the same status, and are due at the same times from the last write on. -/
def SameEffect (e : StorageEffect) (r : EffectRecord) : Prop :=
  r.status = e.status.code ∧ ∀ t, e.tsMs ≤ t → EffectStmt.dispatchable t r = e.dispatchable t

def SameEffects (m : Mapping) (c : Store × World) : Prop :=
  ∀ session key, Option.Rel SameEffect (c.1.effect session key) (c.2.effects.find? (m.runOf session key, key))

/-- A claim succeeds in both or in neither. -/
def SameClaim (m : Mapping) (c : Store × World) (op : LedgerOp) : Prop :=
  match op.call with
  | .claim session key claimer leaseTtlMs nowMs clock =>
    (claimEffectDispatch session key claimer leaseTtlMs nowMs clock c.1).toOption.map (fun answer => answer.1.1) =
      (tape.alone (RunStore.claimEffectDispatch (m.runOf session key) key claimer leaseTtlMs nowMs clock).run
        c.2).1.toOption.map Prod.fst
  | _ => True

def LedgerOp.Coincides (m : Mapping) (c : Store × World) (op : LedgerOp) : Prop :=
  SameEffects m (m.step c op) ∧ SameClaim m c op

/-! ## Where they agree -/

/-- Nobody holds a lease on the row. -/
def StorageEffect.unleased (t : Int) (row : StorageEffect) : Bool :=
  orNone row.dispatchClaimedBy = none || row.dispatchClaimExpiresAtMs ≤ t

/-- The row waits for a dispatcher. -/
def StorageEffect.queued (row : StorageEffect) : Bool := row.status = .pending && row.dispatchMode = .outbox

/-- The resolution has one meaning for the row: an absent effect goes back into the queue it is in,
    and a duplicate does not collide with an inverse that exists. -/
def Observation.Agrees (o : Observation) (now : Int) (s : Store) (row : StorageEffect) : Prop :=
  match o.resolution with
  | .confirmed | .failed => True
  | .duplicate => refusedWith s o row → row.status = .confirmed
  | .absent =>
    match row.semantics with
    | .idempotent => row.status = .pending ∧ (row.queued → row.dispatchable now)
    | .observeOnly => row.status = .failed
    | .nonIdempotent => False
  | .stuck => False
  | .other _ => row.queued → row.unleased row.tsMs

/-- The clock and the lease of a claim are read alike. -/
def LedgerOp.Timely (leaseTtlMs nowMs clock : Int) (row : StorageEffect) : Prop :=
  row.queued → 0 ≤ nowMs ∧ row.tsMs ≤ orNow nowMs clock ∧ 0 < leaseTtlMs ∧ -2 ^ 63 ≤ orNow nowMs clock + leaseTtlMs ∧
    orNow nowMs clock + leaseTtlMs < 2 ^ 63

instance (leaseTtlMs nowMs clock : Int) (row : StorageEffect) : Decidable (LedgerOp.Timely leaseTtlMs nowMs clock row) :=
  inferInstanceAs (Decidable (row.queued → _))

/-- The two ledgers take the operation alike. -/
def LedgerOp.Agrees (m : Mapping) (c : Store × World) (op : LedgerOp) : Prop :=
  match op.call with
  | .begin_ r now => 0 ≤ now ∧ m.Separates r.session r.key ∧ (m.request r op.scope).key = r.key ∧
      (c.1.effect r.session r.key = none → (r.refusal = none ↔ Effect.accepts op.server (m.request r op.scope) c.2))
  | .complete .. => True
  | .claim session key _ leaseTtlMs nowMs clock => ∀ row ∈ c.1.effect session key, Timely leaseTtlMs nowMs clock row
  | .attempt session key _ nextDispatchAtMs _ => ∀ row ∈ c.1.effect session key, 0 < nextDispatchAtMs →
      row.status = .pending
  | .observe session key o now => ∀ row ∈ c.1.effect session key, o.Agrees now c.1 row

/-! ## The relation between the two -/

/-- The two rows were begun alike. -/
def SameRequest (e : StorageEffect) (r : EffectRecord) : Prop :=
  r.semantics = e.semantics.code ∧ r.dispatchMode = e.dispatchMode.code ∧
    (r.connector = e.connector.getD "" ∧ e.connector ≠ some "") ∧
    r.businessKey = e.businessKey.getD "" ∧ e.businessKey ≠ some ""

/-- A row of the server carries a row of the service. -/
structure Carries (e : StorageEffect) (r : EffectRecord) : Prop where
  request : SameRequest e r
  status : r.status = e.status.code
  due : e.queued → ∀ t, e.tsMs ≤ t → (r.nextDispatchAtMs ≤ t ↔ e.nextDispatchAtMs ≤ t)
  lease : e.queued → ∀ t, e.tsMs ≤ t →
    ((r.dispatchClaimedBy = "" ∨ r.dispatchClaimExpiresAtMs ≤ t) ↔ e.unleased t)

structure Beside (m : Mapping) (c : Store × World) : Prop where
  rows : ∀ session key, Option.Rel Carries (c.1.effect session key) (c.2.effects.find? (m.runOf session key, key))
  owned : ∀ runId key r, c.2.effects.find? (runId, key) = some r →
    ∃ session, runId = m.runOf session key ∧ m.Separates session key
  uncaptured : c.1.snapshots = .empty

variable {m : Mapping} {s s' : Store} {w w' : World} {session : SessionKey} {key : String} {e : StorageEffect}
  {r : EffectRecord}

theorem Carries.pending_iff (carries : Carries e r) :
    r.status = Tape.EffectStatus.pending.code ↔ e.status = .pending := by
  rw [carries.status]
  exact ⟨fun same => EffectStatus.code_inj (b := .pending) same, fun same => by rw [same]; rfl⟩

theorem Carries.queued_iff (carries : Carries e r) :
    r.status = Tape.EffectStatus.pending.code ∧ r.dispatchMode = Tape.EffectDispatchMode.outbox.code ↔ e.queued := by
  have outbox : r.dispatchMode = Tape.EffectDispatchMode.outbox.code ↔ e.dispatchMode = .outbox := by
    rw [carries.request.2.1]
    cases e.dispatchMode <;> simp [EffectDispatchMode.code, Tape.EffectDispatchMode.code]
  simp [StorageEffect.queued, carries.pending_iff, outbox]

theorem dispatchable_iff (t : Int) (e : StorageEffect) :
    e.dispatchable t ↔ e.queued ∧ e.nextDispatchAtMs ≤ t ∧ e.unleased t := by
  simp [StorageEffect.dispatchable, StorageEffect.queued, StorageEffect.unleased, and_assoc]

theorem unleased_iff (t : Int) (e : StorageEffect) :
    e.unleased t ↔ orNone e.dispatchClaimedBy = none ∨ e.dispatchClaimExpiresAtMs ≤ t := by
  simp [StorageEffect.unleased]

theorem unleased_mono {t t' : Int} (free : e.unleased t) (later : t ≤ t') : e.unleased t' := by
  rw [unleased_iff] at free ⊢
  exact free.imp_right fun expired => expired.trans later

theorem server_dispatchable_iff (t : Int) (r : EffectRecord) :
    EffectStmt.dispatchable t r ↔
      (r.status = Tape.EffectStatus.pending.code ∧ r.dispatchMode = Tape.EffectDispatchMode.outbox.code) ∧
        r.nextDispatchAtMs ≤ t ∧ (r.dispatchClaimedBy = "" ∨ r.dispatchClaimExpiresAtMs ≤ t) := by
  simp [EffectStmt.dispatchable, and_assoc]

theorem Carries.dispatchable_eq (carries : Carries e r) {t t' : Int} (inTime : e.queued → t' = t ∧ e.tsMs ≤ t) :
    EffectStmt.dispatchable t' r = e.dispatchable t := by
  rw [Bool.eq_iff_iff, dispatchable_iff, server_dispatchable_iff, carries.queued_iff]
  refine and_congr_right fun queued => ?_
  obtain ⟨rfl, later⟩ := inTime queued
  rw [carries.due queued t' later, carries.lease queued t' later]

theorem Carries.sameEffect (carries : Carries e r) : SameEffect e r :=
  ⟨carries.status, fun _ later => carries.dispatchable_eq fun _ => ⟨rfl, later⟩⟩

/-- Both have the effect, or neither has. -/
theorem Beside.cases (beside : Beside m (s, w)) (session : SessionKey) (key : String) :
    (s.effect session key = none ∧ w.effects.find? (m.runOf session key, key) = none) ∨
      ∃ e r, s.effect session key = some e ∧ w.effects.find? (m.runOf session key, key) = some r ∧ Carries e r := by
  have related := beside.rows session key
  cases left : s.effect session key with
  | none =>
    cases right : w.effects.find? (m.runOf session key, key) with
    | none => exact .inl ⟨rfl, rfl⟩
    | some r =>
      rw [left, right] at related
      cases related
  | some e =>
    cases right : w.effects.find? (m.runOf session key, key) with
    | none =>
      rw [left, right] at related
      cases related
    | some r =>
      rw [left, right] at related
      cases related with
      | some carries => exact .inr ⟨e, r, rfl, rfl, carries⟩

theorem Beside.sameEffects (beside : Beside m (s, w)) : SameEffects m (s, w) := by
  intro session key
  cases beside.cases session key with
  | inl absent =>
    rw [absent.1, absent.2]
    exact .none
  | inr found =>
    obtain ⟨e, r, left, right, carries⟩ := found
    rw [left, right]
    exact .some carries.sameEffect

/-- Both write the effect of one key, and leave the others. -/
theorem Beside.write (beside : Beside m (s, w)) (writes : ∀ session' key', (session', key') ≠ (session, key) →
      s'.effect session' key' = s.effect session' key')
    (serverWrites : ∀ pk, pk ≠ (m.runOf session key, key) → w'.effects.find? pk = w.effects.find? pk)
    (here : Option.Rel Carries (s'.effect session key) (w'.effects.find? (m.runOf session key, key)))
    (adds : (w'.effects.find? (m.runOf session key, key)).isSome →
      (w.effects.find? (m.runOf session key, key)).isSome ∨ m.Separates session key)
    (uncaptured : s'.snapshots = s.snapshots) : Beside m (s', w') := by
  have owner : (w.effects.find? (m.runOf session key, key)).isSome → m.Separates session key := by
    intro before
    obtain ⟨r, found⟩ := Option.isSome_iff_exists.mp before
    obtain ⟨owner, isRun, separated⟩ := beside.owned _ _ r found
    exact fun session' same => (separated session' (same.trans isRun)).trans (separated session isRun).symm
  have separates : (w'.effects.find? (m.runOf session key, key)).isSome → m.Separates session key :=
    fun after => (adds after).elim owner id
  refine ⟨fun session' key' => ?_, fun runId key' r found => ?_, uncaptured.trans beside.uncaptured⟩
  · by_cases same : (session', key') = (session, key)
    · cases same
      exact here
    have left := writes session' key' same
    by_cases samePk : (m.runOf session' key', key') = (m.runOf session key, key)
    · -- another session whose run has the key would own the effect, so there is none
      obtain ⟨sameRun, rfl⟩ := Prod.mk.inj samePk
      have other : session' ≠ session := fun isSame => same (by rw [isSame])
      have after : w'.effects.find? (m.runOf session key', key') = none := by
        by_contra isSome
        exact other (separates (Option.isSome_iff_ne_none.mpr isSome) session' sameRun)
      rw [left, sameRun, after]
      cases beside.cases session' key' with
      | inl absent =>
        rw [absent.1]
        exact .none
      | inr found =>
        obtain ⟨e, r, _, right, _⟩ := found
        rw [sameRun] at right
        exact absurd (owner (by rw [right]; rfl) session' sameRun) other
    · have related := beside.rows session' key'
      rw [left, serverWrites _ samePk]
      exact related
  · by_cases samePk : (runId, key') = (m.runOf session key, key)
    · obtain ⟨rfl, rfl⟩ := Prod.mk.inj samePk
      exact ⟨session, rfl, separates (by rw [found]; rfl)⟩
    · rw [serverWrites _ samePk] at found
      exact beside.owned _ _ r found

/-! ## One operation -/

theorem WritesOnly.effect_none (writes : WritesOnly session key s s') (absent : s.effect session key = none) :
    s'.effect session key = none := by
  cases writes with
  | inl same => rwa [Store.effect, same]
  | inr written =>
    obtain ⟨u, same⟩ := written
    rw [Store.effect, same]
    exact (s.effect_writeEffect session key u session key).trans (by rw [absent]; rfl)

theorem snapshots_serve (call : LedgerCall) (s : Store) : (call.serve s).snapshots = s.snapshots := by
  cases call with
  | begin_ r now =>
    simp only [LedgerCall.serve]
    cases beginEffect_cases r now s with
    | inl same => rw [same]
    | inr added =>
      obtain ⟨_, _, _, _, _, answer⟩ := added
      rw [answer, leaves_ok]
  | complete session key status responseJson errorJson now =>
    simp only [LedgerCall.serve, completeEffect]
    split
    · rfl
    · split
      · rfl
      · split <;> rfl
  | claim session key claimer leaseTtlMs nowMs clock =>
    simp only [LedgerCall.serve, claimEffectDispatch, leaves_ok]
    split <;> rfl
  | attempt session key error nextDispatchAtMs now =>
    simp only [LedgerCall.serve, recordDispatchAttempt]
    split <;> rfl
  | observe session key o now =>
    simp only [LedgerCall.serve, recordExternalObservation]
    split
    · rfl
    · split
      · rfl
      · split
        · split <;> rfl
        · rfl

/-- Both go over the row of the key, if there is one. -/
theorem Beside.update (beside : Beside m (s, w)) {f : EffectRecord → EffectRecord} (writes : WritesOnly session key s s')
    (serverWrites : ∀ pk, w'.effects.find? pk = (w.effects.find? pk).map f)
    (only : ∀ row : EffectRecord, row.pk ≠ (m.runOf session key, key) → f row = row)
    (both : ∀ e r, s.effect session key = some e → r.pk = (m.runOf session key, key) → Carries e r →
      ∃ e', s'.effect session key = some e' ∧ Carries e' (f r))
    (uncaptured : s'.snapshots = s.snapshots) : Beside m (s', w') := by
  refine beside.write (fun _ _ => writes.effect_ne) (fun pk other => ?_) ?_ (fun after => .inl ?_) uncaptured
  · rw [serverWrites]
    cases found : w.effects.find? pk with
    | none => rfl
    | some row => rw [Option.map_some, only row (by rwa [Table.key_of_find? found])]
  · cases beside.cases session key with
    | inl absent =>
      rw [serverWrites, absent.2, writes.effect_none absent.1]
      exact .none
    | inr found =>
      obtain ⟨e, r, left, right, carries⟩ := found
      obtain ⟨e', isRow, carries'⟩ := both e r left (Table.key_of_find? right) carries
      rw [serverWrites, right, isRow]
      exact .some carries'
  · rw [serverWrites, Option.isSome_map] at after
    exact after

/-- A row that is in no queue has no schedule to agree on. -/
theorem Carries.of_idle (request : SameRequest e r) (status : r.status = e.status.code) (idle : e.status ≠ .pending) :
    Carries e r := by
  have unqueued : ¬ e.queued := by simp [StorageEffect.queued, idle]
  exact ⟨request, status, fun queued => absurd queued unqueued, fun queued => absurd queued unqueued⟩

theorem beside_complete (beside : Beside m (s, w)) (status : EffectStatus) (responseJson errorJson : Json) (now : Int)
    (server : Nat) (scope : String) :
    Beside m (m.step (s, w) ⟨.complete session key status responseJson errorJson now, server, scope⟩) := by
  refine beside.update (writesOnly_completeEffect session key status responseJson errorJson now s)
    (Effect.find?_completeEffect status.code (m.dumps responseJson) (m.dumps errorJson))
    (fun row other => if_neg fun both => other both.1) (fun e r found isKey carries => ?_) (snapshots_serve _ s)
  by_cases valid : status = .pending
  · -- the service refuses what leaves the server's effect pending
    refine ⟨e, by simpa [LedgerCall.serve, completeEffect, valid] using found, ?_⟩
    unfold Effect.completed
    split
    next both => exact ⟨carries.request, by rw [valid, carries.pending_iff.mp both.2], carries.due, carries.lease⟩
    next => exact carries
  · refine ⟨_, effect_completeEffect found valid responseJson errorJson now, ?_⟩
    by_cases pending : e.status = .pending
    · rw [if_pos pending, Effect.completed, if_pos ⟨isKey, carries.pending_iff.mpr pending⟩]
      exact .of_idle carries.request rfl valid
    · rw [if_neg pending, Effect.completed, if_neg fun both => pending (carries.pending_iff.mp both.2)]
      exact carries

theorem beside_attempt (beside : Beside m (s, w)) (error : String) (nextDispatchAtMs now : Int)
    (retried : ∀ row ∈ s.effect session key, 0 < nextDispatchAtMs → row.status = .pending) (server : Nat) (scope : String) :
    Beside m (m.step (s, w) ⟨.attempt session key error nextDispatchAtMs now, server, scope⟩) := by
  refine beside.update (writesOnly_recordDispatchAttempt session key error nextDispatchAtMs now s)
    (Effect.find?_recordDispatchAttempt error nextDispatchAtMs) (fun row other => if_neg other)
    (fun e r found isKey carries => ⟨_, effect_recordDispatchAttempt found error nextDispatchAtMs now, ?_⟩)
    (snapshots_serve _ s)
  rw [Effect.attempted, if_pos isKey]
  by_cases ended : nextDispatchAtMs ≤ 0
  · refine .of_idle carries.request ?_ ?_ <;> simp [dispatchAttempt, EffectStmt.assign, attemptStatus, ended, EffectStatus.code]
  · have pending := retried e found (by omega)
    refine ⟨carries.request, ?_, fun _ t _ => ?_, fun _ t _ => ?_⟩
    · simp [dispatchAttempt, EffectStmt.assign, attemptStatus, ended, pending, EffectStatus.code]
    · simp [dispatchAttempt, EffectStmt.assign, ended]
    · simp [dispatchAttempt, EffectStmt.assign, StorageEffect.unleased, orNone]

theorem claimTime_eq {nowMs : Int} (valid : 0 ≤ nowMs) (clock : Int) :
    RunStore.claimTime nowMs clock = orNow nowMs clock := by
  unfold RunStore.claimTime orNow
  split <;> split <;> omega

theorem Carries.claim_eq (carries : Carries e r) {leaseTtlMs nowMs clock : Int}
    (timely : LedgerOp.Timely leaseTtlMs nowMs clock e) :
    EffectStmt.dispatchable (RunStore.claimTime nowMs clock) r = e.dispatchable (orNow nowMs clock) :=
  carries.dispatchable_eq fun queued => ⟨claimTime_eq (timely queued).1 clock, (timely queued).2.1⟩

theorem beside_claim (beside : Beside m (s, w)) (claimer : String) {leaseTtlMs nowMs clock : Int}
    (timely : ∀ row ∈ s.effect session key, LedgerOp.Timely leaseTtlMs nowMs clock row) (server : Nat) (scope : String) :
    Beside m (m.step (s, w) ⟨.claim session key claimer leaseTtlMs nowMs clock, server, scope⟩) := by
  refine beside.update (writesOnly_claimEffectDispatch session key claimer leaseTtlMs nowMs clock s)
    (Effect.find?_claimEffectDispatch claimer leaseTtlMs nowMs clock) (fun row other => if_neg fun selected => ?_)
    (fun e r found isKey carries => ⟨_, effect_claimEffectDispatch found claimer leaseTtlMs nowMs clock, ?_⟩)
    (snapshots_serve _ s)
  · simp only [EffectStmt.selects, Bool.and_eq_true, decide_eq_true_eq] at selected
    exact other selected.1
  · have same := carries.claim_eq (timely e found)
    simp only [Effect.claimed, EffectStmt.apply, EffectStmt.selects, isKey, decide_true, Bool.true_and, same]
    by_cases due : e.dispatchable (orNow nowMs clock)
    · have queued := ((dispatchable_iff _ e).mp due).1
      obtain ⟨valid, later, positive, low, high⟩ := timely e found queued
      rw [if_pos due, if_pos due]
      have expires : addI64 (RunStore.claimTime nowMs clock) (RunStore.claimTtl leaseTtlMs) =
          orNow nowMs clock + leaseTtlMs := by
        rw [claimTime_eq valid, RunStore.claimTtl, if_pos positive, addI64_eq low high]
      refine ⟨carries.request, carries.status, fun _ => carries.due queued, fun _ t _ => ?_⟩
      rw [unleased_iff]
      simp [EffectStmt.assign, claim, orNone, expires]
    · rw [if_neg due, if_neg due]
      exact carries

theorem sameClaim (beside : Beside m (s, w)) (claimer : String) {leaseTtlMs nowMs clock : Int}
    (timely : ∀ row ∈ s.effect session key, LedgerOp.Timely leaseTtlMs nowMs clock row) (server : Nat) (scope : String) :
    SameClaim m (s, w) ⟨.claim session key claimer leaseTtlMs nowMs clock, server, scope⟩ := by
  simp only [SameClaim, Effect.alone_claimEffectDispatch, claimEffectDispatch, Except.toOption, Option.map_some,
    Option.some.injEq]
  rw [Bool.eq_iff_iff, decide_eq_true_eq, EffectStmt.claimDispatch_pos_iff]
  cases beside.cases session key with
  | inl absent => simp [absent.1, absent.2]
  | inr found =>
    obtain ⟨e, r, left, right, carries⟩ := found
    have same := carries.claim_eq (timely e left)
    simp [left, right, same]

theorem SameRequest.observe (request : SameRequest e r) (o : Observation) (now : Int) :
    SameRequest ((o.update now).apply e) r := by
  obtain ⟨resolution, externalRef, responseJson, errorJson, kind⟩ := o
  cases resolution <;> exact request

theorem beside_observe (beside : Beside m (s, w)) (o : Observation) (now : Int)
    (agrees : ∀ row ∈ s.effect session key, o.Agrees now s row) (server : Nat) (scope : String) :
    Beside m (m.step (s, w) ⟨.observe session key o now, server, scope⟩) := by
  refine beside.update (writesOnly_recordExternalObservation session key o now s)
    (Effect.find?_recordExternalObservation o.resolution.code o.externalRef (m.dumps o.responseJson) (m.dumps o.errorJson)
      o.compensateOnDuplicateKind now) (fun row other => if_neg other)
    (fun e r found isKey carries => ⟨_, effect_recordExternalObservation found o now, ?_⟩) (snapshots_serve _ s)
  rw [Effect.observed, if_pos isKey]
  have agreed := agrees e found
  have request := carries.request.observe o now
  unfold Observation.Agrees at agreed
  cases known : o.resolution with
  | confirmed | failed =>
    have allowed : ¬ ((o.apply e).isNone ∨ refusedWith s o e) := by
      simp [Observation.apply, refusedWith, Observation.compensates, known]
    rw [if_neg allowed]
    refine .of_idle request ?_ ?_ <;>
      simp [EffectStmt.assign, Observation.update, Observation.apply, known, RunStore.observedStatus, EffectResolution.code,
        Tape.EffectResolution.code, EffectStatus.code]
  | duplicate =>
    rw [known] at agreed
    have confirmed : RunStore.observedStatus EffectResolution.duplicate.code r = EffectStatus.confirmed.code := rfl
    by_cases refused : refusedWith s o e
    · -- the inverse is registered already: the service takes its transaction back
      have was := agreed refused
      rw [if_pos (.inr refused)]
      exact .of_idle carries.request (by rw [was]; exact confirmed) (by simp [was])
    · have allowed : ¬ ((o.apply e).isNone ∨ refusedWith s o e) := by simp [Observation.apply, known, refused]
      rw [if_neg allowed]
      refine .of_idle request ?_ ?_ <;> simp [EffectStmt.assign, confirmed, Observation.update, Observation.apply, known]
  | absent =>
    rw [known] at agreed
    have allowed : ¬ ((o.apply e).isNone ∨ refusedWith s o e) := by
      simp [Observation.apply, refusedWith, Observation.compensates, known]
    rw [if_neg allowed]
    cases semantics : e.semantics with
    | nonIdempotent =>
      rw [semantics] at agreed
      exact agreed.elim
    | observeOnly =>
      rw [semantics] at agreed
      have failed : e.status = .failed := agreed
      refine .of_idle request ?_ ?_ <;>
        simp [EffectStmt.assign, Observation.update, Observation.apply, known, semantics, failed, carries.request.1,
          RunStore.observedStatus, EffectResolution.code, Tape.EffectResolution.code, EffectStatus.code,
          EffectSemantics.code, Tape.EffectSemantics.code]
    | idempotent =>
      rw [semantics] at agreed
      obtain ⟨pending, due⟩ := agreed
      obtain ⟨errorJson, after⟩ : ∃ errorJson, (o.update now).apply e = { e with errorJson, tsMs := now } := by
        simp only [Observation.update, Observation.apply, known, Option.getD_some, semantics]
        exact ⟨_, rfl⟩
      have isIdempotent : r.semantics = Tape.EffectSemantics.idempotent.code := by
        rw [carries.request.1, semantics]
        rfl
      have status : RunStore.observedStatus EffectResolution.absent.code r = Tape.EffectStatus.pending.code := by
        simp [RunStore.observedStatus, isIdempotent, EffectResolution.code, Tape.EffectResolution.code]
      have dispatch : Effect.observedDispatch EffectResolution.absent.code r now = now := by
        simp [Effect.observedDispatch, isIdempotent, EffectResolution.code]
      rw [after] at request ⊢
      simp only [EffectStmt.assign, status, dispatch]
      refine ⟨request, by rw [pending]; rfl, fun queued t later => ?_, fun queued t later => ?_⟩
      · have isDue := (dispatchable_iff now e).mp (due queued)
        exact ⟨fun _ => isDue.2.1.trans later, fun _ => later⟩
      · have isDue := (dispatchable_iff now e).mp (due queued)
        exact ⟨fun _ => unleased_mono isDue.2.2 later, fun _ => .inl rfl⟩
  | stuck =>
    rw [known] at agreed
    exact agreed.elim
  | other text =>
    rw [known] at agreed
    have unknown : (o.apply e).isNone := by simp [Observation.apply, known]
    rw [if_pos (.inl unknown)]
    -- the service raises; the server clears the lease
    refine ⟨carries.request, carries.status, carries.due, fun queued t later => ?_⟩
    have free := unleased_mono (agreed queued) later
    simp [EffectStmt.assign, free]

/-! ## Beginning an effect -/

theorem getD_eq_iff {text : Option String} (set : text ≠ some "") {value : String} (nonempty : value ≠ "") :
    text.getD "" = value ↔ text = some value := by
  cases text with
  | none => simp [Ne.symm nonempty]
  | some t => simp

theorem orNone_ne (text : Option String) : orNone text ≠ some "" := by
  simp [orNone, Option.filter_eq_some_iff]

theorem orNone_getD (text : Option String) : (orNone text).getD "" = text.getD "" := by
  cases text with
  | none => rfl
  | some t => by_cases empty : t = "" <;> simp [orNone, Option.filter, empty]

theorem orNone_eq_some {text : Option String} (nonempty : text.getD "" ≠ "") : orNone text = some (text.getD "") := by
  cases text with
  | none => exact absurd rfl nonempty
  | some t => simpa [orNone] using nonempty

theorem orNone_eq_none {text : Option String} (isEmpty : text.getD "" = "") : orNone text = none := by
  cases text with
  | none => rfl
  | some t => simpa [orNone] using isEmpty

/-- A pair of rows has a business identity in both tables. -/
theorem Carries.identity_iff (carries : Carries e r) {connector businessKey : String} (routed : connector ≠ "")
    (keyed : businessKey ≠ "") :
    r.connector = connector ∧ r.businessKey = businessKey ↔
      e.connector = some connector ∧ e.businessKey = some businessKey := by
  obtain ⟨_, _, ⟨sameConnector, connectorSet⟩, sameKey, keySet⟩ := carries.request
  rw [sameConnector, sameKey, getD_eq_iff connectorSet routed, getD_eq_iff keySet keyed]

theorem Beside.identity_iff (beside : Beside m (s, w)) {connector businessKey : String} (routed : connector ≠ "")
    (keyed : businessKey ≠ "") :
    (∃ r ∈ w.effects.rows, r.connector = connector ∧ r.businessKey = businessKey) ↔
      ∃ e ∈ s.effects.rows, e.connector = some connector ∧ e.businessKey = some businessKey := by
  constructor
  · intro ⟨r, member, identity⟩
    have right : w.effects.find? (r.runId, r.idempotencyKey) = some r := Table.find?_key_of_mem member
    obtain ⟨session, isRun, _⟩ := beside.owned _ _ r right
    cases beside.cases session r.idempotencyKey with
    | inl absent =>
      rw [isRun, absent.2] at right
      cases right
    | inr found =>
      obtain ⟨e, r', left, right', carries⟩ := found
      rw [isRun, right'] at right
      cases right
      exact ⟨e, Table.mem_of_find? left, (carries.identity_iff routed keyed).mp identity⟩
  · intro ⟨e, member, identity⟩
    have left : s.effect e.session e.idempotencyKey = some e := Table.find?_key_of_mem member
    cases beside.cases e.session e.idempotencyKey with
    | inl absent =>
      rw [absent.1] at left
      cases left
    | inr found =>
      obtain ⟨e', r, left', right, carries⟩ := found
      rw [left'] at left
      cases left
      exact ⟨r, Table.mem_of_find? right, (carries.identity_iff routed keyed).mpr identity⟩

/-- The business key is taken in both or in neither. -/
theorem Beside.clash_iff (beside : Beside m (s, w)) (b : BeginEffect) (now : Int) (scope : String)
    (routed : b.businessKey.getD "" = "" ∨ b.connector.getD "" ≠ "") :
    s.effects.rows.any (sameBusinessKey (b.freshRow now)) = false ↔
      Effect.businessKeyOwner (m.request b scope) w = none := by
  have request : (m.request b scope).businessKey = b.businessKey.getD "" := rfl
  unfold Effect.businessKeyOwner
  by_cases unkeyed : b.businessKey.getD "" = ""
  · rw [if_pos (by simp [request, unkeyed])]
    simp [sameBusinessKey, BeginEffect.freshRow, orNone_eq_none unkeyed]
  · have routed := routed.resolve_left unkeyed
    rw [if_neg (by simpa [request] using unkeyed)]
    have taken := beside.identity_iff routed unkeyed
    have clash (old : StorageEffect) : sameBusinessKey (b.freshRow now) old ↔
        old.connector = some (b.connector.getD "") ∧ old.businessKey = some (b.businessKey.getD "") := by
      simp only [sameBusinessKey, BeginEffect.freshRow, orNone_eq_some routed, orNone_eq_some unkeyed, Option.isSome_some,
        Bool.true_and, Bool.and_eq_true, decide_eq_true_eq]
      exact and_congr eq_comm eq_comm
    rw [List.any_eq_false, List.find?_eq_none]
    simp only [clash, Bool.and_eq_true, decide_eq_true_eq]
    exact ⟨fun none_ r member identity => (taken.mp ⟨r, member, identity⟩).elim fun e both => none_ e both.1 both.2,
      fun none_ e member identity => (taken.mpr ⟨e, member, identity⟩).elim fun r both => none_ r both.1 both.2⟩

/-- A row that both have just begun. -/
theorem carries_fresh (b : BeginEffect) (scope : String) (seq : Int) {now : Int} (since : 0 ≤ now) :
    Carries (b.freshRow now) (RunStore.freshEffect (m.request b scope) seq now) := by
  have semantics : (m.request b scope).sem = b.semantics.code := by
    unfold RunStore.EffectRequest.sem Mapping.request
    cases b.semantics <;> rfl
  have dispatchMode : (m.request b scope).dmode = b.dispatchMode.code := by
    unfold RunStore.EffectRequest.dmode Mapping.request
    cases b.dispatchMode <;> rfl
  refine ⟨⟨semantics, dispatchMode, ⟨(orNone_getD _).symm, orNone_ne _⟩, (orNone_getD _).symm, orNone_ne _⟩, rfl,
    fun queued t later => ?_, fun _ t _ => ⟨fun _ => rfl, fun _ => .inl rfl⟩⟩
  -- due at once for the one, at its own time for the other
  have outbox : (m.request b scope).dmode = Tape.EffectDispatchMode.outbox.code := by
    have isOutbox : b.dispatchMode = .outbox := of_decide_eq_true (Bool.and_eq_true_iff.mp queued).2
    rw [dispatchMode, isOutbox]
    rfl
  simp only [RunStore.freshEffect, if_pos outbox, BeginEffect.freshRow] at later ⊢
  omega

theorem writesOnly_beginEffect (b : BeginEffect) (now : Int) (s : Store) (session : SessionKey) (key : String)
    (other : (session, key) ≠ (b.session, b.key)) :
    (leaves (beginEffect b now s) s).effect session key = s.effect session key := by
  cases beginEffect_cases b now s with
  | inl same => rw [same]
  | inr added =>
    obtain ⟨inserted, isInsert, _, _, _, answer⟩ := added
    rw [answer, leaves_ok, Store.effect, Table.find?_insert isInsert]
    exact if_neg other.symm

/-- The row both have after `begin_effect`, if they have one. -/
theorem Beside.begun (beside : Beside m (s, w)) (b : BeginEffect) {now : Int} {server : Nat} {scope : String} {seq : Int}
    (since : 0 ≤ now) (sameKey : (m.request b scope).key = b.key)
    (accepted : s.effect b.session b.key = none → (b.refusal = none ↔ Effect.accepts server (m.request b scope) w))
    {after : Option EffectRecord} (written : after =
      if Effect.accepts server (m.request b scope) w ∧ Effect.inserts (m.request b scope) w
      then some (RunStore.freshEffect (m.request b scope) seq now)
      else w.effects.find? (m.runOf b.session b.key, b.key)) :
    Option.Rel Carries ((leaves (beginEffect b now s) s).effect b.session b.key) after := by
  -- the server inserts where neither the key nor the business key is taken
  have free_iff : Effect.inserts (m.request b scope) w ↔ w.effects.find? (m.runOf b.session b.key, b.key) = none ∧
      Effect.businessKeyOwner (m.request b scope) w = none := by
    rw [Effect.inserts_eq_true, sameKey]
    rfl
  have uncaptured : s.captured b.session b.key = none := by
    rw [Store.captured, beside.uncaptured]
    rfl
  cases beside.cases b.session b.key with
  | inr found =>
    obtain ⟨e, r, left, right, carries⟩ := found
    -- both replay the row they have
    have taken : ¬ Effect.inserts (m.request b scope) w := by
      rw [free_iff, right]
      exact fun both => by cases both.1
    rw [written, if_neg fun both => taken both.2, effect_beginEffect left, right]
    exact .some carries
  | inl absent =>
    have accepted := accepted absent.1
    cases refusal : b.refusal with
    | some e =>
      -- what the embedded ledger refuses, the server refuses
      have refused : ¬ Effect.accepts server (m.request b scope) w := fun accepts => by
        rw [accepted.mpr accepts] at refusal
        cases refusal
      rw [written, if_neg fun both => refused both.1, absent.2, beginEffect, refusal]
      simp only [leaves_error, absent.1]
      exact .none
    | none =>
      have accepts := accepted.mp refusal
      have clash := beside.clash_iff b now scope (Effect.routed_of_accepts accepts)
      -- the unique index decides on either side, and the two agree on a clash
      have insertable : (s.effects.insert (sameBusinessKey (b.freshRow now)) (b.freshRow now)).isSome ↔ _ :=
        Table.insert_isSome_iff
      cases inserted : s.effects.insert (sameBusinessKey (b.freshRow now)) (b.freshRow now) with
      | none =>
        have taken : ¬ Effect.inserts (m.request b scope) w := by
          rw [free_iff, ← clash]
          intro both
          have isSome := insertable.mpr ⟨absent.1, both.2⟩
          rw [inserted] at isSome
          cases isSome
        rw [written, if_neg fun both => taken both.2, absent.2]
        simp only [beginEffect, refusal, absent.1, uncaptured, inserted, leaves_error]
        exact .none
      | some table =>
        have free : Effect.inserts (m.request b scope) w := by
          rw [free_iff, ← clash]
          exact ⟨absent.2, (insertable.mp (by rw [inserted]; rfl)).2⟩
        rw [written, if_pos ⟨accepts, free⟩]
        simp only [beginEffect, refusal, absent.1, uncaptured, inserted, leaves_ok]
        rw [Store.effect, Table.find?_insert inserted, if_pos (show (b.freshRow now).pk = (b.session, b.key) from rfl)]
        exact .some (carries_fresh b scope seq since)

theorem beside_begin (beside : Beside m (s, w)) (b : BeginEffect) {now : Int} (server : Nat) (scope : String)
    (agrees : LedgerOp.Agrees m (s, w) ⟨.begin_ b now, server, scope⟩) :
    Beside m (m.step (s, w) ⟨.begin_ b now, server, scope⟩) := by
  obtain ⟨since, separates, sameKey, accepted⟩ := agrees
  obtain ⟨seq, written⟩ := Effect.find?_beginEffect server (m.request b scope) now w
  have isPk : ((m.request b scope).runId, (m.request b scope).key) = (m.runOf b.session b.key, b.key) := by
    rw [sameKey]
    rfl
  rw [isPk] at written
  refine beside.write (writesOnly_beginEffect b now s) (fun pk other => ?_) ?_ (fun _ => .inr separates)
    (snapshots_serve (.begin_ b now) s)
  · exact (written pk).trans (if_neg fun both => other both.2.symm)
  · have after := written (m.runOf b.session b.key, b.key)
    simp only [eq_self, and_true] at after
    exact beside.begun b since sameKey accepted after

/-! ## Runs -/

theorem beside_step {op : LedgerOp} (beside : Beside m (s, w)) (agrees : op.Agrees m (s, w)) :
    Beside m (m.step (s, w) op) := by
  obtain ⟨call, server, scope⟩ := op
  cases call with
  | begin_ b now => exact beside_begin beside b server scope agrees
  | complete => exact beside_complete beside ..
  | claim session key claimer => exact beside_claim beside claimer agrees server scope
  | attempt session key error nextDispatchAtMs now => exact beside_attempt beside error nextDispatchAtMs now agrees server scope
  | observe session key o now => exact beside_observe beside o now agrees server scope

theorem coincides_step {op : LedgerOp} (beside : Beside m (s, w)) (agrees : op.Agrees m (s, w)) :
    op.Coincides m (s, w) := by
  refine ⟨(beside_step beside agrees).sameEffects, ?_⟩
  obtain ⟨call, server, scope⟩ := op
  cases call with
  | claim session key claimer => exact sameClaim beside claimer agrees server scope
  | begin_ | complete | attempt | observe => trivial

theorem beside_start (blank : w.effects = .empty) : Beside m (.empty, w) := by
  refine ⟨fun _ _ => ?_, fun _ _ _ found => ?_, rfl⟩
  · rw [blank]
    exact .none
  · rw [blank] at found
    cases found

/-- In a run from empty ledgers whose operations both take alike, every operation coincides: after
    it the effects have the same status and are due at the same times in both, and a claim has the
    same outcome. -/
theorem ledgers_agree (m : Mapping) (w : World) (blank : w.effects = .empty) (ops : List LedgerOp)
    (alike : Sequential.Along m.step (LedgerOp.Agrees m) (.empty, w) ops) :
    Sequential.Along m.step (LedgerOp.Coincides m) (.empty, w) ops :=
  Sequential.Along.of_invariant (I := Beside m) (fun _ _ beside agrees => beside_step beside agrees)
    (fun _ _ beside agrees => coincides_step beside agrees) (beside_start blank) alike

/-- The session of the payment has a run of its own. -/
def oneRun : Mapping where
  runOf session _ := if session = payment.session then "r" else "other"
  dumps _ := ""

def refund : BeginEffect := { payment with semantics := .idempotent }

/-- The refund is claimed, fails for now, and is due again at 20. -/
def refunded : List LedgerOp :=
  [⟨.begin_ refund 1, 0, ""⟩, ⟨.claim payment.session "k" "a" 10 1 1, 0, ""⟩,
    ⟨.attempt payment.session "k" "timed out" 20 5, 0, ""⟩]

def secondClaim : LedgerOp := ⟨.claim payment.session "k" "b" 10 20 20, 0, ""⟩

theorem refund_claimed_in_both :
    SameClaim oneRun (Sequential.run oneRun.step (.empty, .empty) refunded) secondClaim := by
  have separates : oneRun.Separates payment.session "k" := by
    intro other same
    by_contra ne
    simp [oneRun, ne] at same
  have alike : Sequential.Along oneRun.step (LedgerOp.Agrees oneRun) (.empty, .empty) (refunded ++ [secondClaim]) := by
    refine ⟨⟨by decide, separates, by decide, fun _ => by decide⟩, ?_, ?_, ?_, trivial⟩
    · exact fun row found => by cases found; decide
    · exact fun row found => by cases found; decide
    · exact fun row found => by cases found; decide
  exact (Sequential.Along.append.mp (ledgers_agree oneRun .empty rfl _ alike)).2.1.2

/-- The refund is confirmed, and then its dispatcher asks for a retry. -/
def retriedAfterOutcome : List LedgerOp :=
  [⟨.begin_ refund 1, 0, ""⟩, ⟨.complete payment.session "k" .confirmed (.str "sent") .null 5, 0, ""⟩,
    ⟨.attempt payment.session "k" "timed out" 20 6, 0, ""⟩]

/-- The server opens the effect again, and hands it out; the service does not. -/
theorem refund_reopened_by_server :
    ((Sequential.run oneRun.step (.empty, .empty) retriedAfterOutcome).1.effect payment.session "k").map
      StorageEffect.status = some .confirmed ∧
    ((Sequential.run oneRun.step (.empty, .empty) retriedAfterOutcome).2.effects.find? ("r", "k")).map
      EffectRecord.status = some Tape.EffectStatus.pending.code ∧
    ¬ SameClaim oneRun (Sequential.run oneRun.step (.empty, .empty) retriedAfterOutcome) secondClaim := by
  refine ⟨by decide, by decide, fun same => ?_⟩
  have claims : some false = some true := same
  cases claims

end Tape.Embedded
