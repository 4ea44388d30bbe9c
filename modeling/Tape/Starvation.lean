import Tape.Embedded.Due
import Tape.Sdk.Due

/-! # Starvation behind effects that cannot be served

Each of the polling loops reads a bounded window of the effects it is after and skips those that it
cannot serve without moving them.  An effect is served within as many ticks as there are effects as
long as fewer than a window of such effects come before it; behind a window of them it never is.
-/

namespace Tape

open Sql Tape.Sequential Interleave

/-- The reconcilers, embedded in either language and of the SDK, and the dispatchers, embedded and of the SDK: an effect
    that can be served is served within as many ticks as there are effects, where no tick finds a window of effects
    before it that it skips.  Where every tick does, the effect stays as it is. -/
theorem served_unless_behind_window (s : Embedded.Store) (eff : Embedded.StorageEffect) (ticks : List Embedded.Reconciler.Tick)
    (unmarshal : Json → Json) (clocked : Embedded.Clocked) (outboxTicks : List Embedded.Outbox.Tick) (w : World)
    (e : EffectRecord)
    (jobs : List Sdk.ReconcileJob) (outboxJobs : List Sdk.OutboxJob) :
    (s.effects.find? eff.pk = some eff →
      (eff.status = .unknown → s.effects.rows.length ≤ ticks.length →
        Along Embedded.Reconciler.Tick.take (fun s t => 1 ≤ t.settings.limit ∧ (t.settings.answer eff).isSome ∧
          Embedded.Reconciler.GetsTo t eff s) s ticks →
        ∃ earlier t later, ticks = earlier ++ t :: later ∧
          ∃ new, (t.take (run Embedded.Reconciler.Tick.take s earlier)).effects.find? eff.pk = some new ∧
            Embedded.Reconciler.Observed Embedded.Reconciler.madePython t eff new) ∧
      (eff.status = .unknown → s.effects.rows.length ≤ ticks.length →
        Along (Embedded.Reconciler.Tick.goTake unmarshal) (fun s t => ((t.go unmarshal).settings.answer eff).isSome ∧
          Embedded.Reconciler.GetsTo (t.go unmarshal) eff s) s ticks →
        ∃ earlier t later, ticks = earlier ++ t :: later ∧
          ∃ new, (t.goTake unmarshal (run (Embedded.Reconciler.Tick.goTake unmarshal) s earlier)).effects.find? eff.pk =
            some new ∧
            Embedded.Reconciler.Observed (Embedded.Reconciler.madeGo unmarshal) (t.go unmarshal) eff new) ∧
      (Along Embedded.Reconciler.Tick.take (fun s t => 1 ≤ t.settings.limit ∧ Embedded.Reconciler.IsBehind t eff s) s ticks →
        (run Embedded.Reconciler.Tick.take s ticks).effects.find? eff.pk = some eff)) ∧
    (clocked.store.effects.find? eff.pk = some eff →
      (eff.dispatchable clocked.clock → clocked.store.effects.rows.length ≤ outboxTicks.length →
        Along Embedded.Outbox.Tick.take (fun s t => 1 ≤ t.settings.limit ∧
          (eff.connector.bind t.settings.connectors).isSome ∧ t.GetsTo s eff) clocked outboxTicks →
        ∃ earlier t later, outboxTicks = earlier ++ t :: later ∧
          ∃ new, (t.take (run Embedded.Outbox.Tick.take clocked earlier)).store.effects.find? eff.pk = some new ∧
            Embedded.Outbox.Attempted eff new) ∧
      (Along Embedded.Outbox.Tick.take (fun s t => 1 ≤ t.settings.limit ∧ t.IsBehind s eff) clocked outboxTicks →
        (run Embedded.Outbox.Tick.take clocked outboxTicks).store.effects.find? eff.pk = some eff)) ∧
    (w.effects.find? e.pk = some e →
      (e.status = EffectStatus.unknown.code → w.effects.rows.length ≤ jobs.length →
        Along Sdk.reconcileTick (fun w job => (job.observe e).isSome ∧ job.GetsTo e w) w jobs →
        ∃ earlier job later, jobs = earlier ++ job :: later ∧
          ∃ new, (Sdk.reconcileTick (run Sdk.reconcileTick w earlier) job).effects.find? e.pk = some new ∧
            job.Observed e new) ∧
      (Along Sdk.reconcileTick (fun w job => job.IsBehind e w) w jobs →
        (run Sdk.reconcileTick w jobs).effects.find? e.pk = some e)) ∧
    (w.effects.find? e.pk = some e →
      (w.effects.rows.length ≤ outboxJobs.length →
        Along Sdk.outboxTick (fun w job => 1 ≤ job.limit ∧ job.registered e.connector ∧ job.hot e ∧ job.GetsTo e w) w
          outboxJobs →
        ∃ earlier job later, outboxJobs = earlier ++ job :: later ∧
          ∃ new, (Sdk.outboxTick (run Sdk.outboxTick w earlier) job).effects.find? e.pk = some new ∧ Sdk.Attempted e new) ∧
      (Along Sdk.outboxTick (fun w job => 1 ≤ job.limit ∧ job.IsBehind e w) w outboxJobs →
        (run Sdk.outboxTick w outboxJobs).effects.find? e.pk = some e)) := by
  refine ⟨fun found => ⟨?_, ?_, ?_⟩, fun found => ⟨?_, ?_⟩, fun found => ⟨?_, ?_⟩, fun found => ⟨?_, ?_⟩⟩
  · exact fun unknown enough along => Embedded.Reconciler.observed_within found unknown along enough
  · exact fun unknown enough along => Embedded.Reconciler.go_observed_within found unknown along enough
  · exact Embedded.Reconciler.starved found
  · exact fun due enough along => Embedded.Outbox.dispatched_within found due along enough
  · exact Embedded.Outbox.starved found
  · exact fun unknown enough along => Sdk.observed_within found unknown along enough
  · exact Sdk.unobserved found
  · exact fun enough along => Sdk.dispatched_within found along enough
  · exact Sdk.undispatched found

/-! ## One effect, and one tick -/

open Embedded.Reconciler (payee transfer reconciling)

/-- A wire whose ack was lost. -/
def lostWire : Embedded.StorageEffect := { (transfer "w-1").freshRow 2 with status := .unknown, tsMs := 4 }

def wires : Embedded.Store := { Embedded.Store.empty with effects := ⟨[lostWire], by decide⟩ }

/-- The reconciler of the bank, one effect a tick. -/
def narrow : Embedded.Reconciler.Settings := { reconciling with limit := 1 }

def reconcileTick : Embedded.Reconciler.Tick where
  settings := narrow
  clock := 6
  recordAt _ := 6

/-- A wire that is due. -/
def dueWire : Embedded.StorageEffect := (transfer "w-1").freshRow 2

def dueWires : Embedded.Clocked where
  store := { Embedded.Store.empty with effects := ⟨[dueWire], by decide⟩ }
  clock := 5

/-- The bank confirms whatever it is sent. -/
def dispatchTick : Embedded.Outbox.Tick where
  settings := {
    connectors := fun name => if name = "bank.wire" then some fun _ => .returned { status := .confirmed } else none
    claimer := "dispatcher"
    limit := 1 }

/-- A charge that is due. -/
def dueCharge (key connector : String) (ts : Int) : EffectRecord where
  runId := "r-1"
  seq := ts
  decisionIndex := 0
  toolName := "charge"
  idempotencyKey := key
  status := EffectStatus.pending.code
  requestJson := "{}"
  responseJson := ""
  errorJson := ""
  tsMs := ts
  semantics := EffectSemantics.nonIdempotent.code
  dispatchMode := EffectDispatchMode.outbox.code
  businessKey := key
  connector := connector
  dispatchAttempts := 0
  nextDispatchAtMs := 0
  externalRef := ""
  dispatchClaimedBy := ""
  dispatchClaimExpiresAtMs := 0
  lastDispatchError := ""
  scope := "payments"

/-- A charge whose ack was lost. -/
def lostCharge : EffectRecord := { dueCharge "c-1" "bank" 2 with status := EffectStatus.unknown.code }

def reconcileJob : Sdk.ReconcileJob where
  observe e := if e.connector = "bank" then some { status := "confirmed" } else none
  recordAt _ := 6
  sdkNow := 6

/-- A pass at `clock` that lists one effect; the bank confirms. -/
def narrowPass (clock : Int) : Sdk.OutboxJob where
  limit := 1
  claimer := "dispatcher"
  registered name := name = "bank"
  outcome _ := .confirmed "ref-1" []
  listAt := clock
  claimAt _ := clock
  recordAt _ := clock
  registerAt _ := clock
  sdkNow _ := clock

theorem single_effects_served :
    (∃ earlier t later, [reconcileTick] = earlier ++ t :: later ∧
      ∃ new, (t.take (run Embedded.Reconciler.Tick.take wires earlier)).effects.find? lostWire.pk = some new ∧
        Embedded.Reconciler.Observed Embedded.Reconciler.madePython t lostWire new) ∧
    (∃ earlier t later, [dispatchTick] = earlier ++ t :: later ∧
      ∃ new, (t.take (run Embedded.Outbox.Tick.take dueWires earlier)).store.effects.find? dueWire.pk = some new ∧
        Embedded.Outbox.Attempted dueWire new) ∧
    (∃ earlier job later, [reconcileJob] = earlier ++ job :: later ∧
      ∃ new, (Sdk.reconcileTick (run Sdk.reconcileTick { World.empty with effects := ⟨[lostCharge], by decide⟩ } earlier)
        job).effects.find? lostCharge.pk = some new ∧ job.Observed lostCharge new) ∧
    ∃ earlier job later, [narrowPass 6] = earlier ++ job :: later ∧
      ∃ new, (Sdk.outboxTick (run Sdk.outboxTick { World.empty with effects := ⟨[dueCharge "c-1" "bank" 2], by decide⟩ } earlier)
        job).effects.find? (dueCharge "c-1" "bank" 2).pk = some new ∧ Sdk.Attempted (dueCharge "c-1" "bank" 2) new := by
  refine ⟨?_, ?_, ?_, ?_⟩
  · have found : wires.effects.find? lostWire.pk = some lostWire := Table.find?_key_of_mem List.mem_cons_self
    have clock : lostWire.tsMs < 6 := by decide
    refine ((served_unless_behind_window wires lostWire [reconcileTick] id dueWires [] World.empty lostCharge [] []).1
      found).1 rfl (by decide)
      ⟨⟨by decide, by decide, by decide +kernel, ?_, fun _ => clock⟩, trivial⟩
    intro row member _ _ o answered
    obtain rfl : row = lostWire := List.mem_singleton.mp member
    have isAnswer : reconcileTick.settings.answer lostWire =
        some { resolution := .duplicate, compensateOnDuplicateKind := "wire.reverse" } := rfl
    cases isAnswer.symm.trans answered
    decide
  · have found : dueWires.store.effects.find? dueWire.pk = some dueWire := Table.find?_key_of_mem List.mem_cons_self
    refine ((served_unless_behind_window wires dueWire [] id dueWires [dispatchTick] World.empty lostCharge [] []).2.1
      found).1 (by decide) (by decide)
      ⟨⟨by decide, by decide, by decide, ?_, by decide⟩, trivial⟩
    intro name connector registered row
    simp only [dispatchTick] at registered
    split at registered
    · cases registered
      exact fun text never => by cases never
    · cases registered
  · have clock : lostCharge.tsMs < 6 := by decide
    exact ((served_unless_behind_window wires lostWire [] id dueWires [] _ lostCharge [reconcileJob] []).2.2.1 (by decide)).1
      rfl (by decide)
      ⟨⟨by decide, by decide, fun _ => clock⟩, trivial⟩
  · refine ((served_unless_behind_window wires lostWire [] id dueWires [] _ (dueCharge "c-1" "bank" 2) [] [narrowPass 6]).2.2.2
      (by decide)).1 (by decide)
      ⟨⟨by decide, by decide, by decide, by decide, fun _ _ _ _ => rfl, ?_, fun _ => Int.le_refl 6⟩, trivial⟩
    intro row _ _ _ nextAt never
    cases never

/-! ## One effect without a connector, and a window of one -/

/-- Two wires whose acks were lost; the connector of the first is gone. -/
def strandedWires : Embedded.Store :=
  let first := Embedded.leaves (Embedded.beginEffect { transfer "w-0" with connector := some "bank.swift" } 1 .empty) .empty
  let second := Embedded.leaves (Embedded.beginEffect (transfer "w-1") 2 first) first
  let lost := Embedded.leaves (Embedded.recordDispatchAttempt payee "w-0" "ack lost" 0 3 second) second
  Embedded.leaves (Embedded.recordDispatchAttempt payee "w-1" "ack lost" 0 4 lost) lost

theorem take_strandedWires {t : Embedded.Reconciler.Tick} (isNarrow : t.settings = narrow) :
    t.take strandedWires = strandedWires := by
  have isWindow : Embedded.Reconciler.window narrow t.clock strandedWires =
    Embedded.Reconciler.window narrow 0 strandedWires := rfl
  have silent : ∀ eff ∈ Embedded.Reconciler.window narrow 0 strandedWires, narrow.answer eff = none := by
    have all : (Embedded.Reconciler.window narrow 0 strandedWires).all (fun eff => (narrow.answer eff).isNone) = true := by
      decide +kernel
    exact fun eff member => Option.isNone_iff_eq_none.mp (List.all_eq_true.mp all eff member)
  rw [Embedded.Reconciler.Tick.take, Embedded.Reconciler.reconcileOnce, isNarrow, isWindow]
  exact Embedded.Reconciler.reconcileEach_silent silent

/-- Two charges, and the connector of the first is gone. -/
def strandedCharges : World :=
  { World.empty with effects := ⟨[dueCharge "c-0" "gone" 1, dueCharge "c-1" "bank" 2], by decide⟩ }

theorem outboxTick_strandedCharges (n : Nat) : Sdk.outboxTick strandedCharges (narrowPass n) = strandedCharges := by
  have isWindow : window Sdk.DueBefore 1 (strandedCharges.effects.rows.filter (narrowPass n).hot) =
    [dueCharge "c-0" "gone" 1] := by
    have allHot : strandedCharges.effects.rows.filter (narrowPass n).hot = strandedCharges.effects.rows := by
      refine List.filter_eq_self.mpr fun row member => ?_
      have isCharge : row = dueCharge "c-0" "gone" 1 ∨ row = dueCharge "c-1" "bank" 2 := by
        simpa [strandedCharges] using member
      rcases isCharge with rfl | rfl <;>
        simp [Sdk.OutboxJob.hot, narrowPass, EffectStmt.dispatchable, dueCharge]
    rw [allHot]
    decide
  have skipped : (narrowPass n).registered (dueCharge "c-0" "gone" 1).connector = false := by
    simp [narrowPass, dueCharge]
  have positive : 1 ≤ (narrowPass n).limit := Int.le_refl 1
  rw [Sdk.outboxTick_eq positive, show (narrowPass n).limit.toNat = 1 from rfl, isWindow, Sdk.dispatchAll,
    System.alone_exceptBind tape (Sdk.alone_tried _ _), Sdk.dispatchOne_skips skipped]
  rfl

/-- However many ticks there are, the wire and the charge behind the first ones are not served. -/
theorem stranded_behind_unserviceable :
    (∃ eff, strandedWires.effects.find? eff.pk = some eff ∧ eff.status = .unknown ∧ (narrow.answer eff).isSome ∧
      ∀ ticks : List Embedded.Reconciler.Tick, (∀ t ∈ ticks, t.settings = narrow) →
        (run Embedded.Reconciler.Tick.take strandedWires ticks).effects.find? eff.pk = some eff) ∧
    ∃ e, strandedCharges.effects.find? e.pk = some e ∧
      ∀ clocks : List Nat, (∀ n ∈ clocks, (narrowPass n).registered e.connector ∧ (narrowPass n).hot e) ∧
        (run Sdk.outboxTick strandedCharges (clocks.map fun n : Nat => narrowPass n)).effects.find? e.pk = some e := by
  constructor
  · have there : (strandedWires.effects.find? (payee, "w-1")).isSome := by decide +kernel
    obtain ⟨eff, found⟩ := Option.isSome_iff_exists.mp there
    have isKey : eff.pk = (payee, "w-1") := Table.key_of_find? found
    have facts : ∀ row ∈ strandedWires.effects.rows, row.pk = (payee, "w-1") →
        row.status = .unknown ∧ (narrow.answer row).isSome := by
      decide +kernel
    obtain ⟨unknown, answers⟩ := facts eff (Table.mem_of_find? found) isKey
    refine ⟨eff, isKey ▸ found, unknown, answers, fun ticks narrowTicks => ?_⟩
    have stays : run Embedded.Reconciler.Tick.take strandedWires ticks = strandedWires := by
      induction ticks with
      | nil => rfl
      | cons t ticks inductionHypothesis =>
        rw [run_cons, take_strandedWires (narrowTicks t List.mem_cons_self)]
        exact inductionHypothesis fun t member => narrowTicks t (List.mem_cons_of_mem _ member)
    rw [stays]
    exact isKey ▸ found
  · refine ⟨dueCharge "c-1" "bank" 2, by decide, fun clocks => ⟨fun n _ => ?_, ?_⟩⟩
    · simp [narrowPass, dueCharge, Sdk.OutboxJob.hot, EffectStmt.dispatchable]
    · have stays : run Sdk.outboxTick strandedCharges (clocks.map fun n : Nat => narrowPass n) = strandedCharges := by
        induction clocks with
        | nil => rfl
        | cons n clocks inductionHypothesis =>
          rw [List.map_cons, run_cons, outboxTick_strandedCharges]
          exact inductionHypothesis
      rw [stays]
      decide

end Tape
