import Tape.Rules

/-! # Obligations

The obligation of a run is the inverse of an act that succeeded.  It is `PENDING` until a
drainer claims it, `COMMITTED` while the drainer holds it, and closed once it is
`COMPENSATED` or `STUCK`.  Here is what the log says about claims.
-/

namespace Tape.Compensation

open Interleave

/-- `COMPENSATED` or `STUCK`. -/
def isClosed (status : Int) : Bool :=
  status = ObligationStatus.compensated.code || status = ObligationStatus.stuck.code

/-- The obligation whose claim the event won. -/
def wins : TapeEvent → Option (String × Int)
  | ⟨_, .sql (.obligation (.claimObligation runId seq _ _ _)), .ok updated⟩ =>
    if isPositive updated then some (runId, seq) else none
  | _ => none
where
  isPositive (updated : Nat) : Bool := 0 < updated

theorem not_claimable_of_closed {now : Int} {row : ObligationRecord} (closed : isClosed row.status) :
    ObligationStmt.claimable now row = false := by
  simp only [isClosed, Bool.or_eq_true, decide_eq_true_eq] at closed
  cases closed with
  | inl compensated => simp [ObligationStmt.claimable, compensated, ObligationStatus.code]
  | inr stuck => simp [ObligationStmt.claimable, stuck, ObligationStatus.code]

section Claims

variable {tid : Nat} {act : Act} {res : act.Res} {w w' : World} {pk : String × Int}

theorem claim_of_wins (won : wins ⟨tid, act, res⟩ = some pk) :
    ∃ claimer leaseExp now, act = .obligation (.claimObligation pk.1 pk.2 claimer leaseExp now) := by
  unfold wins at won
  split at won
  next _ runId seq claimer leaseExp now updated isClaim =>
    cases isClaim
    split at won
    · obtain rfl := Option.some.inj won
      exact ⟨claimer, leaseExp, now, rfl⟩
    · cases won
  next => cases won

/-- The claim `UPDATE` is a compare-and-set: it changes a row iff that row was claimable. -/
theorem claim_pos_iff {runId claimer : String} {seq leaseExp now : Int} :
    0 < w.obligations.count (ObligationStmt.claimObligation runId seq claimer leaseExp now).selects ↔
      ∃ row, w.obligations.find? (runId, seq) = some row ∧ ObligationStmt.claimable now row := by
  rw [Sql.Table.count_pos_iff]
  constructor
  · rintro ⟨row, found, selected⟩
    simp only [ObligationStmt.selects, Bool.and_eq_true, decide_eq_true_eq] at selected
    exact ⟨row, selected.1 ▸ found, selected.2⟩
  · rintro ⟨row, found, due⟩
    have same := Sql.Table.key_of_find? found
    exact ⟨row, same ▸ found, by simp [ObligationStmt.selects, same, due]⟩

/-- A claim that was won had been there to win. -/
theorem claimable_of_wins (answers : tape.Answers act w res w') (won : wins ⟨tid, act, res⟩ = some pk) :
    ∃ claimer leaseExp now row, act = .obligation (.claimObligation pk.1 pk.2 claimer leaseExp now) ∧
      w.obligations.find? pk = some row ∧ ObligationStmt.claimable now row := by
  obtain ⟨claimer, leaseExp, now, rfl⟩ := claim_of_wins won
  cases res with
  | error e => cases won
  | ok updated =>
    have positive : wins.isPositive updated := by
      simp only [wins] at won
      split at won
      next positive => exact positive
      next => cases won
    rw [Except.ok.inj (exec_of_ok answers).1, wins.isPositive, decide_eq_true_eq] at positive
    obtain ⟨row, found, claimable⟩ := claim_pos_iff.mp positive
    exact ⟨claimer, leaseExp, now, row, rfl, found, claimable⟩

end Claims

/-! ## Written statuses -/

/-- The obligation whose status the event wrote, with that status. -/
def writes : TapeEvent → Option ((String × Int) × Int)
  | ⟨_, .sql (.obligation (.insertObligation row)), .ok _⟩ => some (row.pk, row.status)
  | ⟨_, .sql (.obligation (.claimObligation runId seq ..)), .ok updated⟩ =>
    changed updated (runId, seq) ObligationStatus.committed.code
  | ⟨_, .sql (.obligation (.recordAttempt runId seq status ..)), .ok updated⟩
  | ⟨_, .sql (.obligation (.resolve runId seq status ..)), .ok updated⟩ => changed updated (runId, seq) status
  | _ => none
where
  changed (updated : Nat) (pk : String × Int) (status : Int) : Option ((String × Int) × Int) :=
    if wins.isPositive updated then some (pk, status) else none

def statusAt (pk : String × Int) (w : World) : Option Int := (w.obligations.find? pk).map ObligationRecord.status

section Writes

variable {tid : Nat} {act : Act} {res : act.Res} {w w' : World} {pk : String × Int}

theorem writes_of_selected {s : ObligationStmt} {row : ObligationRecord} (found : w.obligations.find? pk = some row)
    (selected : s.selects row) :
    writes ⟨tid, .obligation s, ((Act.obligation s).exec w).1⟩ = some (pk, (s.assign row).status) := by
  have counted : wins.isPositive (w.obligations.count s.selects) := decide_eq_true (Sql.Table.count_pos_of_find? found selected)
  have same : row.pk = pk := Sql.Table.key_of_find? found
  cases s with
  | claimObligation runId seq =>
    simp only [ObligationStmt.selects, Bool.and_eq_true, decide_eq_true_eq] at selected
    rw [← same, selected.1]
    exact if_pos counted
  | recordAttempt runId seq | resolve runId seq =>
    rw [← same, of_decide_eq_true selected]
    exact if_pos counted
  | _ => cases selected

/-- An `UPDATE` of one row that has changed any has found that row. -/
theorem statusAt_of_changed {s : ObligationStmt} {target : String × Int} {status status' : Int}
    (changed : writes.changed (w.obligations.count s.selects) target status = some (pk, status'))
    (own : ∀ row, s.selects row → row.pk = target) (assigned : ∀ row, (s.assign row).status = status) :
    statusAt pk ((Act.obligation s).exec w).2 = some status' := by
  unfold writes.changed at changed
  split at changed
  next positive =>
    obtain ⟨rfl, rfl⟩ := Prod.mk.inj (Option.some.inj changed)
    obtain ⟨row, found, selected⟩ := (Sql.Table.count_pos_iff _ _).mp (of_decide_eq_true positive)
    rw [own row selected] at found
    have found' : ((Act.obligation s).exec w).2.obligations.find? target = some (s.apply row) :=
      ObligationStmt.find?_exec_of_some found
    rw [statusAt, found', ObligationStmt.apply, if_pos selected, Option.map_some, assigned]
  next => cases changed

theorem statusAt_of_writes {status : Int} (answers : tape.Answers act w res w')
    (written : writes ⟨tid, act, res⟩ = some (pk, status)) : statusAt pk w' = some status := by
  unfold writes at written
  split at written
  next _ row value same =>
    cases same
    obtain ⟨rfl, rfl⟩ := Prod.mk.inj (Option.some.inj written)
    obtain ⟨accepted, rfl⟩ := exec_of_ok answers
    have found : ((Act.obligation (.insertObligation row)).exec w).2.obligations.find? row.pk = some row :=
      (find?_insertRow_of_ok accepted.symm).2
    exact congrArg (Option.map ObligationRecord.status) found
  next _ runId seq claimer leaseExp now updated same =>
    cases same
    obtain ⟨counted, rfl⟩ := exec_of_ok answers
    refine statusAt_of_changed (Except.ok.inj counted ▸ written) (fun row selected => ?_) fun _ => rfl
    simp only [ObligationStmt.selects, Bool.and_eq_true, decide_eq_true_eq] at selected
    exact selected.1
  next _ runId seq status attempts error nextAt now updated same =>
    cases same
    obtain ⟨counted, rfl⟩ := exec_of_ok answers
    exact statusAt_of_changed (Except.ok.inj counted ▸ written) (fun row selected => of_decide_eq_true selected) fun _ => rfl
  next _ runId seq status resultJson now updated same =>
    cases same
    obtain ⟨counted, rfl⟩ := exec_of_ok answers
    exact statusAt_of_changed (Except.ok.inj counted ▸ written) (fun row selected => of_decide_eq_true selected) fun _ => rfl
  next => cases written

theorem statusAt_of_unwritten (tid : Nat) (answers : tape.Answers act w res w')
    (unwritten : ∀ status, writes ⟨tid, act, res⟩ ≠ some (pk, status)) : statusAt pk w' = statusAt pk w := by
  cases before : w.obligations.find? pk with
  | none =>
    cases after : w'.obligations.find? pk with
    | none => rw [statusAt, statusAt, before, after]
    | some row =>
      obtain ⟨rfl, same⟩ := obligation_inserted_of_answers answers before after
      obtain ⟨rfl, rfl⟩ | ⟨-, rfl⟩ := answers_cases answers
      · have accepted : ((Act.obligation (.insertObligation row)).exec w).1 = .ok () := insertRow_accepted before after
        rw [accepted] at unwritten
        exact (unwritten row.status (congrArg (fun pk => some (pk, row.status)) same)).elim
      · cases before.symm.trans after
  | some row =>
    obtain kept | ⟨s, rfl, rfl, rfl, found'⟩ := obligation_of_answers answers before
    · rw [statusAt, statusAt, before, kept]
    · have unselected : ¬ s.selects row := fun selected => unwritten _ (writes_of_selected before selected)
      rw [ObligationStmt.apply, if_neg unselected] at found'
      rw [statusAt, statusAt, before, found']

/-- A status that was written is there, and one that was not written stays. -/
theorem statusAt_cases (tid : Nat) (pk : String × Int) (answers : tape.Answers act w res w') :
    (∃ status, writes ⟨tid, act, res⟩ = some (pk, status) ∧ statusAt pk w' = some status) ∨
      (∀ status, writes ⟨tid, act, res⟩ ≠ some (pk, status)) ∧ statusAt pk w' = statusAt pk w := by
  by_cases written : ∃ status, writes ⟨tid, act, res⟩ = some (pk, status)
  · obtain ⟨status, written⟩ := written
    exact .inl ⟨status, written, statusAt_of_writes answers written⟩
  · have unwritten := not_exists.mp written
    exact .inr ⟨unwritten, statusAt_of_unwritten tid answers unwritten⟩

end Writes

/-! ## Claims that returned -/

section Returned

variable {ok proper : Nat → Call → TapeHist → Act → Prop} {tid : Nat} {call : Call}

/-- A `claim_obligation` that returned says in its answer whether its `UPDATE` won. -/
theorem safe_claim_returns {runId claimer : String} {seq leaseTtlMs nowMs clock : Int} {h : TapeHist}
    (claim : ∀ h, proper tid call h (.obligation (.claimObligation runId seq claimer
      (addI64 (RunStore.claimTime nowMs clock) (RunStore.claimTtl leaseTtlMs)) (RunStore.claimTime nowMs clock))))
    (get : ∀ h, proper tid call h (.obligation (.getObligation runId seq)))
    (housekeeping : ∀ act, Housekeeping act → ∀ h, proper tid call h act) :
    tape.Safe (tape.tracked ok proper tid call) tid
      (fun result h => ∀ acquired row, result = .ok (acquired, row) →
        ∃ updated : Nat, ⟨tid, .obligation (.claimObligation runId seq claimer
            (addI64 (RunStore.claimTime nowMs clock) (RunStore.claimTtl leaseTtlMs))
            (RunStore.claimTime nowMs clock)), .ok updated⟩ ∈ h.log ∧ acquired = wins.isPositive updated)
      (RunStore.claimObligation runId seq claimer leaseTtlMs nowMs clock).run h := by
  -- the `UPDATE`, whose count says who won
  refine safe_query (fun _ _ _ _ returned => by cases returned) fun h₁ res₁ state₁ _ permitted₁ answers₁ => ?_
  refine ⟨⟨_, res₁, state₁, rfl, answers₁, permitted₁, claim _⟩, fun (updated : Nat) isOk₁ => ?_⟩
  subst isOk₁
  refine safe_query (fun _ _ _ _ returned => by cases returned) fun h₂ res₂ state₂ foreign₂ permitted₂ answers₂ => ?_
  refine ⟨⟨_, res₂, state₂, rfl, answers₂, permitted₂, get _⟩, fun row isOk₂ => ?_⟩
  have kept := List.mem_cons_of_mem ⟨tid, .obligation (.getObligation runId seq), res₂⟩
    (foreign₂.mem (List.mem_cons_self ..))
  simp only
  split
  next positive =>
    have won : true = wins.isPositive updated := (decide_eq_true positive).symm
    cases row with
    | none =>
      rintro h₃ foreign₃ acquired row ⟨⟩
      exact ⟨updated, foreign₃.mem kept, won⟩
    | some current =>
      -- the winner journals the claim before it returns
      refine System.Safe.exceptBind (fun _ _ _ _ returned => by cases returned)
        ((System.Safe.mem_of_all_proper (all_nextSeq housekeeping runId) kept).mono ?_)
      intro _ h₃ kept₃ next _
      refine System.Safe.exceptBind (fun _ _ _ _ returned => by cases returned)
        ((System.Safe.mem_of_all_proper (all_journal housekeeping _ _ _ _ _ (by constructor)) kept₃).mono ?_)
      rintro _ h₄ kept₄ _ - h₅ foreign₅ acquired row ⟨⟩
      exact ⟨updated, foreign₅.mem kept₄, won⟩
  next lost =>
    rintro h₃ foreign₃ acquired row ⟨⟩
    exact ⟨updated, foreign₃.mem kept, (decide_eq_false lost).symm⟩

end Returned

/-- Run `"r"` with one obligation, `("r", 2)`, that allows three attempts. -/
def refundWorld : World :=
  (tape.run (quiet (World.empty .sqlite))
    (serve 0 (.beginRun 0 "app" "user" "session" "invocation" {} "driver" 60000 1 "r") ++
      serve 1 (.registerCompensation "r" "k" "refund" (.obj []) "" 3 10))).state

end Tape.Compensation
