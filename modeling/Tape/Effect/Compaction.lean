import Tape.Survey
import Tape.Effect.Outcome

/-! # Compaction and the outbox

`compact_run` blanks the `request_json` of every effect of an ended run.  It counts open
obligations and `UNKNOWN` effects first, but not the effects that are still `PENDING` in
the outbox; what it has counted can change before it blanks; and an effect that was
settled when it was blanked can be made `PENDING` again afterwards.  A dispatcher then
gets a request that is empty.

Every effect that is due for dispatch carries the request `begin_effect` stored, as long
as none of these happens.
-/

namespace Tape.Effect

open Interleave Compaction

/-- The effect waits in the outbox: `list_effects_to_dispatch` can return it now or later. -/
def awaitsDispatch (row : EffectRecord) : Bool :=
  row.status = EffectStatus.pending.code && row.dispatchMode = EffectDispatchMode.outbox.code

theorem awaitsDispatch_of_dispatchable {now : Int} {row : EffectRecord}
    (due : EffectStmt.dispatchable now row) : awaitsDispatch row := by
  simp only [EffectStmt.dispatchable, Bool.and_eq_true] at due
  simp only [awaitsDispatch, Bool.and_eq_true]
  exact due.1.1

/-- The request with which the event inserted the effect. -/
def insertedRequest (runId key : String) : TapeEvent → Option String
  | ⟨_, .sql (.effect (.insertEffect row)), .ok _⟩ => if row.pk = (runId, key) then some row.requestJson else none
  | _ => none

/-- The request that `begin_effect` stored for the effect. -/
def storedRequest (runId key : String) (log : List TapeEvent) : Option String :=
  log.findSome? (insertedRequest runId key)

/-- `PENDING` or `UNKNOWN`: the effect can still come to be dispatched. -/
def isUnsettled (status : Int) : Bool := status = EffectStatus.pending.code || status = EffectStatus.unknown.code

/-- The effect is one of the outbox, and is not settled. -/
def unsettledOutbox (row : EffectRecord) : Bool :=
  isUnsettled row.status && row.dispatchMode = EffectDispatchMode.outbox.code

theorem unsettledOutbox_of_awaits {row : EffectRecord} (awaits : awaitsDispatch row) : unsettledOutbox row := by
  simp only [awaitsDispatch, Bool.and_eq_true, decide_eq_true_eq] at awaits
  simp [unsettledOutbox, isUnsettled, awaits.1, awaits.2]

/-! ## The condition -/

/-- The effect that the act makes `PENDING` or `UNKNOWN`. -/
def makesUnsettled : Act → Option (String × String)
  | .sql (.effect (.setOutcome runId key status ..)) => target status (runId, key)
  | .sql (.effect (.recordAttempt runId key status ..)) => target status (runId, key)
  | .sql (.effect (.recordObservation runId key status ..)) => target status (runId, key)
  | _ => none
where
  target (status : Int) (pk : String × String) : Option (String × String) := if isUnsettled status then some pk else none

/-- The effect that the event inserted, or made `PENDING` or `UNKNOWN`. -/
def unsettles : TapeEvent → Option (String × String)
  | ⟨_, .sql (.effect (.insertEffect row)), .ok _⟩ => some row.pk
  | ⟨_, act, _⟩ => makesUnsettled act

/-- A `compact_run` has blanked the effects of the run. -/
def effectsBlanked (runId : String) (log : List TapeEvent) : Bool :=
  log.any fun
    | ⟨_, .sql (.effect (.zeroEffects r)), .ok _⟩ => r = runId
    | _ => false

/-- The run whose `UNKNOWN` effects the act counts. -/
def counts : Act → Option String
  | .sql (.effect (.countUnknown runId)) => some runId
  | _ => none

/-- The run whose effects the act blanks. -/
def blanksRun : Act → Option String
  | .sql (.effect (.zeroEffects runId)) => some runId
  | _ => none

/-- `act`, about to be executed, keeps `compact_run` and the outbox of the run apart: where `compact_run` counts the
    `UNKNOWN` effects, no request waits `PENDING` in the outbox; no effect of the outbox that is unsettled when it
    blanks the requests has become so since that count; and no settled effect of the outbox is made `PENDING` or
    `UNKNOWN` again whose request was blanked. -/
structure CompactsSettled (tid : Nat) (h : TapeHist) (act : Act) : Prop where
  none_waiting : ∀ runId, counts act = some runId →
    h.state.effects.rows.all fun row => row.runId ≠ runId || !awaitsDispatch row || row.requestJson = ""
  none_unsettled : ∀ runId, blanksRun act = some runId →
    h.state.effects.rows.all fun row => row.runId ≠ runId || !unsettledOutbox row || row.requestJson = "" ||
      (since tid (countsUnknown runId) h.log).all fun event => !(unsettles event = some row.pk)
  no_reopening : ∀ pk, makesUnsettled act = some pk → (h.state.effects.find? pk).all fun row =>
    row.dispatchMode ≠ EffectDispatchMode.outbox.code || isUnsettled row.status || row.requestJson ≠ "" ||
      !effectsBlanked pk.1 h.log

instance (tid : Nat) (h : TapeHist) (act : Act) : Decidable (CompactsSettled tid h act) :=
  decidable_of_iff
    (((counts act).all fun runId => h.state.effects.rows.all fun row =>
        row.runId ≠ runId || !awaitsDispatch row || row.requestJson = "") = true ∧
      ((blanksRun act).all fun runId => h.state.effects.rows.all fun row =>
        row.runId ≠ runId || !unsettledOutbox row || row.requestJson = "" ||
          (since tid (countsUnknown runId) h.log).all fun event => !(unsettles event = some row.pk)) = true ∧
      ((makesUnsettled act).all fun pk => (h.state.effects.find? pk).all fun row =>
        row.dispatchMode ≠ EffectDispatchMode.outbox.code || isUnsettled row.status || row.requestJson ≠ "" ||
          !effectsBlanked pk.1 h.log) = true)
    (by
      rw [Option.all_eq_true, Option.all_eq_true, Option.all_eq_true]
      exact ⟨fun ⟨waiting, unsettled, reopening⟩ => ⟨waiting, unsettled, reopening⟩,
        fun apart => ⟨apart.none_waiting, apart.none_unsettled, apart.no_reopening⟩⟩)

/-! ## What a `compact_run` has counted -/

section Counted

variable {tid : Nat} {h : TapeHist} {act : Act} {res : act.Res} {state : World} {pk : String × String}

/-- The effect has no request to lose, or is settled. -/
def Idle (pk : String × String) (w : World) : Prop :=
  ∀ row, w.effects.find? pk = some row → row.requestJson = "" ∨ unsettledOutbox row = false

/-- What a thread has counted as settled is so, unless it was unsettled since. -/
def CountedIdle (h : TapeHist) : Prop :=
  ∀ pk tid, (survey.stage tid h.log).resolved = some pk.1 →
    (since tid (countsUnknown pk.1) h.log).all (fun event => !(unsettles event = some pk)) → Idle pk h.state

theorem makesUnsettled_of_unsettled {s : EffectStmt} {row : EffectRecord} (selected : s.selects row = true) (same : row.pk = pk)
    (settled : unsettledOutbox row = false) (unsettled : unsettledOutbox (s.assign row) = true) :
    makesUnsettled (.effect s) = some pk ∧ row.dispatchMode = EffectDispatchMode.outbox.code ∧
      isUnsettled row.status = false := by
  cases s with
  | setOutcome r k status | recordAttempt r k status | recordObservation r k status =>
    have own : (r, k) = pk := (of_decide_eq_true selected).symm.trans same
    simp only [EffectStmt.assign, unsettledOutbox, Bool.and_eq_true] at unsettled
    have outbox : row.dispatchMode = EffectDispatchMode.outbox.code := of_decide_eq_true unsettled.2
    have before : isUnsettled row.status = false := by simpa [unsettledOutbox, outbox] using settled
    exact ⟨by simp [makesUnsettled, makesUnsettled.target, unsettled.1, own], outbox, before⟩
  | claimDispatch | zeroEffects => exact absurd (settled.symm.trans unsettled) Bool.false_ne_true
  | _ => cases selected

theorem requestJson_assign_of_blank (s : EffectStmt) {row : EffectRecord} (blank : row.requestJson = "") :
    (s.assign row).requestJson = "" := by cases s <;> first | exact blank | rfl

theorem unsettles_of_makes (reopened : makesUnsettled act = some pk) : unsettles ⟨tid, act, res⟩ = some pk := by
  unfold unsettles
  split
  next same =>
    cases same
    cases reopened
  next same =>
    cases same
    exact reopened

theorem idle_of_answers (idle : Idle pk h.state) (answers : tape.Answers act h.state res state)
    (undisturbed : unsettles ⟨tid, act, res⟩ ≠ some pk) : Idle pk state := by
  intro row' found'
  cases before : h.state.effects.find? pk with
  -- an outbox effect that appears is unsettled, and its insert is a disturbance
  | none =>
    obtain ⟨rfl, same⟩ := effect_inserted_of_answers answers before found'
    obtain ⟨rfl, rfl⟩ | ⟨-, rfl⟩ := answers_cases answers
    · have accepted : ((Act.effect (.insertEffect row')).exec h.state).1 = .ok () := by
        exact insertRow_accepted (same ▸ before) (same ▸ found')
      rw [accepted] at undisturbed
      exact (undisturbed (congrArg some same)).elim
    · rw [before] at found'
      cases found'
  | some row =>
    obtain kept | ⟨s, rfl, -, -, written⟩ := effect_of_answers answers before
    · exact Option.some.inj (kept.symm.trans found') ▸ idle row before
    obtain rfl : s.apply row = row' := Option.some.inj (written.symm.trans found')
    by_cases selected : s.selects row = true
    · rw [EffectStmt.apply, if_pos selected]
      -- a blank request is never filled in again; a settled effect is reopened by a disturbance alone
      cases idle row before with
      | inl blank => exact .inl (requestJson_assign_of_blank s blank)
      | inr settled =>
        cases reopened : unsettledOutbox (s.assign row) with
        | false => exact .inr rfl
        | true =>
          have isReopened := (makesUnsettled_of_unsettled selected (Sql.Table.key_of_find? before) settled reopened).1
          exact (undisturbed (unsettles_of_makes isReopened)).elim
    · rw [EffectStmt.apply, if_neg selected]
      exact idle row before

theorem CountedIdle.push (counted : CountedIdle h) (apart : CompactsSettled tid h act)
    (answers : tape.Answers act h.state res state) : CountedIdle (h.push tid act res state) := by
  intro pk
  refine known_push (fun s => s.resolved = some pk.1) (fun s resolved => ?_) (fun undisturbed idle => ?_) (counted pk)
  · cases resolved_after tid resolved with
    | inl old => exact .inl old
    | inr read =>
      obtain ⟨rfl, answered⟩ := read
      have idle : Idle pk h.state := by
        intro row found
        have sameRun : row.runId = pk.1 := congrArg Prod.fst (Sql.Table.key_of_find? found)
        have waiting := List.all_eq_true.mp (apart.none_waiting pk.1 rfl) row (Sql.Table.mem_of_find? found)
        have unknown := answered _ _ answers pk row found sameRun
        by_cases blank : row.requestJson = ""
        · exact .inl blank
        · right
          simp only [sameRun, blank, ne_eq, not_true_eq_false, decide_false, Bool.false_or, Bool.or_false] at waiting
          simpa [unsettledOutbox, isUnsettled, unknown, awaitsDispatch, ← imp_iff_not_or] using waiting
      have passive : unsettles ⟨tid, .effect (.countUnknown pk.1), res⟩ = none := rfl
      exact .inr (idle_of_answers idle answers (by rw [passive]; exact Option.some_ne_none pk |>.symm))
  · exact idle_of_answers idle answers (by simpa using undisturbed)

end Counted

/-! ## The invariant -/

/-- An effect was inserted with some request, and carries it, unless it was blanked and is settled. -/
def CarriesRequest (h : TapeHist) : Prop :=
  ∀ runId key row, h.state.effects.find? (runId, key) = some row →
    ∃ request, storedRequest runId key h.log = some request ∧
      (row.requestJson = request ∨
        row.requestJson = "" ∧ effectsBlanked runId h.log = true ∧ unsettledOutbox row = false)

theorem storedRequest_push_of_some {runId key : String} {h : TapeHist} {tid : Nat} {act : Act} {res : act.Res}
    {state : World} {row : EffectRecord} (answers : tape.Answers act h.state res state)
    (found : h.state.effects.find? (runId, key) = some row) :
    storedRequest runId key (h.push tid act res state).log = storedRequest runId key h.log := by
  rw [Hist.push_log, storedRequest, List.findSome?_cons]
  suffices insertedRequest runId key ⟨tid, act, res⟩ = none by rw [this]; rfl
  unfold insertedRequest
  split
  next _ inserted value isInsert =>
    cases isInsert
    split
    next same =>
      -- the key was taken, so the insert cannot have been accepted
      obtain ⟨accepted, -⟩ := exec_of_ok answers
      have absent := (find?_insertRow_of_ok accepted.symm).1
      rw [same, found] at absent
      cases absent
    next => rfl
  next => rfl

theorem effectsBlanked_push {runId : String} {h : TapeHist} {tid : Nat} {act : Act} {res : act.Res} {state : World}
    (earlier : effectsBlanked runId h.log) : effectsBlanked runId (h.push tid act res state).log := by
  rw [Hist.push_log, effectsBlanked, List.any_cons, Bool.or_eq_true]
  exact .inr earlier

theorem CarriesRequest.push {h : TapeHist} {tid : Nat} {act : Act} {res : act.Res} {state : World}
    (carries : CarriesRequest h) (counted : CountedIdle h) (apart : CompactsSettled tid h act)
    (surveyed : survey.proper (survey.stage tid h.log) act) (answers : tape.Answers act h.state res state) :
    CarriesRequest (h.push tid act res state) := by
  intro runId key row' found'
  rw [Hist.push_state] at found'
  cases before : h.state.effects.find? (runId, key) with
  | none =>
    -- a new effect: its own insert stored the request
    obtain ⟨rfl, same⟩ := effect_inserted_of_answers answers before found'
    refine ⟨row'.requestJson, ?_, .inl rfl⟩
    rw [Hist.push_log, storedRequest, List.findSome?_cons]
    suffices insertedRequest runId key ⟨tid, .effect (.insertEffect row'), res⟩ = some row'.requestJson by rw [this]
    obtain ⟨rfl, rfl⟩ | ⟨-, rfl⟩ := answers_cases answers
    · have accepted : ((Act.effect (.insertEffect row')).exec h.state).1 = .ok () := insertRow_accepted before found'
      rw [accepted]
      exact if_pos same
    · rw [before] at found'
      cases found'
  | some row =>
    -- an old one: the log has its insert, so only the row can have changed
    obtain ⟨request, stored, carried⟩ := carries runId key row before
    refine ⟨request, by rw [storedRequest_push_of_some answers before, stored], ?_⟩
    have same : row.pk = (runId, key) := Sql.Table.key_of_find? before
    have sameRun : row.runId = runId := congrArg Prod.fst same
    have unchanged : row.requestJson = request ∨ row.requestJson = "" ∧
        effectsBlanked runId (h.push tid act res state).log = true ∧ unsettledOutbox row = false :=
      carried.imp_right fun ⟨blank, blanked, settled⟩ => ⟨blank, effectsBlanked_push blanked, settled⟩
    obtain kept | ⟨s, rfl, rfl, -, written⟩ := effect_of_answers answers before
    · obtain rfl : row = row' := Option.some.inj (kept.symm.trans found')
      exact unchanged
    obtain rfl : s.apply row = row' := Option.some.inj (written.symm.trans found')
    by_cases selected : s.selects row = true
    · rw [EffectStmt.apply, if_pos selected]
      by_cases zeroes : s = .zeroEffects runId
      · -- the call has counted before it blanks: what it blanks has no request, or is settled
        subst zeroes
        have resolved := (surveyed runId (.inr rfl)).2
        have blanked : effectsBlanked runId (h.push tid (.effect (.zeroEffects runId))
            ((Act.effect (.zeroEffects runId)).exec h.state).1 state).log = true := by
          rw [Hist.push_log, effectsBlanked, List.any_cons, Bool.or_eq_true]
          exact .inl (decide_eq_true rfl)
        cases settled : unsettledOutbox row with
        | false => exact .inr ⟨rfl, blanked, settled⟩
        | true =>
          have blank : row.requestJson = "" := by
            have undisturbed := List.all_eq_true.mp (apart.none_unsettled runId rfl) row (Sql.Table.mem_of_find? before)
            simp only [sameRun, settled, ne_eq, not_true_eq_false, decide_false, Bool.not_true, Bool.false_or, same,
              Bool.or_eq_true, decide_eq_true_eq] at undisturbed
            refine undisturbed.elim id fun undisturbed => ?_
            refine (counted (runId, key) tid resolved undisturbed row before).resolve_right ?_
            rw [settled]
            exact Bool.noConfusion
          refine .inl (Eq.trans (Eq.symm blank) (carried.resolve_right fun ⟨_, _, rested⟩ => ?_))
          exact Bool.noConfusion (settled.symm.trans rested)
      · -- no other statement changes a request; a blank one is not made due again
        have request_ : (s.assign row).requestJson = row.requestJson := by
          cases s with
          | zeroEffects r =>
            simp only [EffectStmt.selects, Bool.and_eq_true, decide_eq_true_eq] at selected
            exact (zeroes (congrArg _ (selected.1.symm.trans sameRun))).elim
          | _ => rfl
        rw [request_]
        refine carried.imp_right fun ⟨blank, blanked, settled⟩ => ⟨blank, effectsBlanked_push blanked, ?_⟩
        by_contra reopened
        obtain ⟨isReopened, outbox, status⟩ := makesUnsettled_of_unsettled selected same settled
          (Bool.eq_true_of_not_eq_false reopened)
        have refused := apart.no_reopening (runId, key) isReopened
        simp [before, outbox, status, blank, blanked] at refused
    · rw [EffectStmt.apply, if_neg selected]
      exact unchanged

/-- **Compaction leaves the outbox alone.**  In every interleaving of any calls, from an empty
    database, in which compactions and the outbox stay apart: every effect that awaits dispatch carries the request
    that `begin_effect` stored for it, compacted or not, and so does every effect that
    `list_effects_to_dispatch` returns. -/
theorem outbox_carries_requests (dialect : Subjects.Dialect) (choices : List (Choice Call))
    (apart : tape.Along (System.Permits (fun _ => True) fun tid _ h act => CompactsSettled tid h act)
      (quiet (World.empty dialect)) choices) :
    let c := tape.run (quiet (World.empty dialect)) choices
    (∀ runId key row, c.state.effects.find? (runId, key) = some row → awaitsDispatch row →
      storedRequest runId key c.log = some row.requestJson) ∧
    ∀ now connector limit (rows : List EffectRecord),
      ((EffectStmt.toDispatch now connector limit).exec c.state).1 = .ok rows →
      ∀ row ∈ rows, storedRequest row.runId row.idempotencyKey c.log = some row.requestJson := by
  intro c
  have carries : CarriesRequest c.toHist ∧ CountedIdle c.toHist := by
    refine System.run_hist_of_steps (I := fun h => CarriesRequest h ∧ CountedIdle h) ?_ ?_ (along_surveyed apart)
    · rintro tid call h act res state _ ⟨isApart, surveyed⟩ answers ⟨carries, counted⟩
      exact ⟨carries.push counted isApart surveyed answers, counted.push isApart answers⟩
    · constructor
      · intro runId key row found
        cases found
      · intro pk tid resolved
        cases resolved
  have awaiting : ∀ runId key row, c.state.effects.find? (runId, key) = some row → awaitsDispatch row →
      storedRequest runId key c.log = some row.requestJson := by
    intro runId key row found awaits
    obtain ⟨request, stored, carried⟩ := carries.1 runId key row found
    -- a blanked request belongs to an effect that is settled, and this one awaits its dispatch
    rw [stored, carried.resolve_right fun ⟨_, _, settled⟩ => ?_]
    exact Bool.noConfusion ((unsettledOutbox_of_awaits awaits).symm.trans settled)
  refine ⟨awaiting, fun now connector limit rows listed row member => ?_⟩
  rw [← Except.ok.inj listed] at member
  have inTable := (List.mem_filter.mp (mem_of_mem_orderBy₂ (mem_of_mem_limitRows member)))
  have due := (Bool.and_eq_true _ _ |>.mp inTable.2).1
  exact awaiting _ _ row (Sql.Table.find?_key_of_mem inTable.1) (awaitsDispatch_of_dispatchable due)

/-! ## A wire that is compacted before it is dispatched -/

/-- The run of the wire fails at 10, with the wire still in the outbox, and is compacted. -/
def failedAndCompacted : List (Choice Call) :=
  wireSetup ++ serve 2 (.endRun 0 "r" RunStatus.failed.code "" 10) ++ serve 3 (.compactRun "r" 20)

def compactedWire : TapeConfig := tape.run (quiet (World.empty .sqlite)) failedAndCompacted

/-- Thread `tid` is a `compact_run` that succeeded. -/
def compactionReturned (c : TapeConfig) (tid : Nat) : Bool :=
  match c.pool[tid]? with
  | some ⟨.compactRun .., .ret (.ok _)⟩ => true
  | _ => false

/-- What `list_effects_to_dispatch` returns at `now`: the keys and the requests. -/
def dueRequests (w : World) (now : Int) : List (String × String) :=
  (w.effects.rows.filter (EffectStmt.dispatchable now)).map fun row => (row.idempotencyKey, row.requestJson)

/-- The compaction succeeds, and the wire is due with an empty request. -/
theorem compacted_wire_dispatched_blank :
    compactionReturned compactedWire 3 = true ∧ storedRequest "r" "k" compactedWire.log = some "100 EUR" ∧
      dueRequests compactedWire.state 1000 = [("k", "")] := by
  refine ⟨?_, ?_, ?_⟩ <;> decide +kernel

/-- The run of the wire is refused to `compact_run`, and fails. -/
def failedWire : List (Choice Call) :=
  wireSetup ++ serve 2 (.compactRun "r" 5) ++ serve 3 (.endRun 0 "r" RunStatus.failed.code "" 10)

/-- With that compaction alone, the wire of the failed run is due with its request. -/
theorem failed_wire_carries_request :
    ∃ row, (tape.run (quiet (World.empty .sqlite)) failedWire).state.effects.find? ("r", "k") = some row ∧
      awaitsDispatch row ∧
      storedRequest "r" "k" (tape.run (quiet (World.empty .sqlite)) failedWire).log = some row.requestJson := by
  have awaits : ((tape.run (quiet (World.empty .sqlite)) failedWire).state.effects.find? ("r", "k")).any
      awaitsDispatch = true := by decide +kernel
  obtain ⟨row, found, isDue⟩ := (Option.any_eq_true _ _).mp awaits
  refine ⟨row, found, isDue, ?_⟩
  exact (outbox_carries_requests .sqlite failedWire (by decide +kernel)).1 "r" "k" row found isDue

end Tape.Effect
