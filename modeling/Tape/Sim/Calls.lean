import Tape.Sequential
import Tape.Sim.MemRunStore

/-! # Calls on the store of the simulation

The mutex of `MemRunStore` lets one call through at a time.  So the store's life is a sequential run
of calls, however its clients interleave: `serve` is what one of them leaves.  The methods that only
read leave the store as it is and have no call here.

The numbers of a run's obligations are counted up, so a new obligation never takes the place of
another one (`Numbered`), and the row of an obligation changes by a claim or by a resolution of its
own alone (`obligation_of_serve`).
-/

namespace Tape.Sim.MemRunStore

open Tape.Sequential Sql

inductive Call where
  | beginRun (app user session invocation : String) (identity : RunIdentity) (leaseOwner : String)
      (leaseTtlMs now : Int) (newId : String)
  | resumeRun (runId leaseOwner : String) (leaseTtlMs now : Int)
  | endRun (runId : String) (status now : Int)
  | compactRun (runId : String)
  | recordDecision (runId : String) (decisionIndex : Int)
      (model requestJson responseJson rationale policyVersion : String) (now : Int)
  | beginEffect (r : RunStore.EffectRequest) (now : Int)
  | completeEffect (runId key : String) (status : Int) (responseJson errorJson : String) (now : Int)
  | registerCompensation (runId effectKey kind : String) (payload : Json) (compensatorRef : String)
      (maxAttempts now : Int)
  | claimObligation (runId : String) (obligationSeq : Int) (claimer : String) (leaseTtlMs nowMs : Int)
  | resolveObligation (runId : String) (obligationSeq status : Int) (resultJson : String)

/-- What a call leaves behind. -/
def serve (s : MemRunStore) : Call → MemRunStore
  | .beginRun app user session invocation identity leaseOwner leaseTtlMs now newId =>
    (s.beginRun app user session invocation identity leaseOwner leaseTtlMs now newId).2
  | .resumeRun runId leaseOwner leaseTtlMs now => (s.resumeRun runId leaseOwner leaseTtlMs now).2
  | .endRun runId status now => (s.endRun runId status now).2
  | .compactRun runId => (s.compactRun runId).2
  | .recordDecision runId decisionIndex model requestJson responseJson rationale policyVersion now =>
    (s.recordDecision runId decisionIndex model requestJson responseJson rationale policyVersion now).2
  | .beginEffect r now => (s.beginEffect r now).2
  | .completeEffect runId key status responseJson errorJson now =>
    (s.completeEffect runId key status responseJson errorJson now).2
  | .registerCompensation runId effectKey kind payload compensatorRef maxAttempts now =>
    (s.registerCompensation runId effectKey kind payload compensatorRef maxAttempts now).2
  | .claimObligation runId obligationSeq claimer leaseTtlMs nowMs =>
    (s.claimObligation runId obligationSeq claimer leaseTtlMs nowMs).2
  | .resolveObligation runId obligationSeq status resultJson =>
    (s.resolveObligation runId obligationSeq status resultJson).2

/-- The obligation that a call claims or resolves. -/
def Call.obligation? : Call → Option (String × Int)
  | .claimObligation runId obligationSeq .. => some (runId, obligationSeq)
  | .resolveObligation runId obligationSeq .. => some (runId, obligationSeq)
  | _ => none

/-- No obligation of a run has a number above the last one given out. -/
def Numbered (s : MemRunStore) : Prop :=
  ∀ pk row, s.obligations.find? pk = some row → pk.2 ≤ s.nextObligationSeq pk.1

/-- The other methods keep off the obligations. -/
def SameObligations (s s' : MemRunStore) : Prop :=
  s'.obligations = s.obligations ∧ s'.nextObligationSeq = s.nextObligationSeq

theorem numbered_empty : Numbered empty := by
  intro pk row found
  cases found

section Frames

variable (s : MemRunStore)

theorem sameObligations_beginRun (app user session invocation : String) (identity : RunIdentity) (leaseOwner : String)
    (leaseTtlMs now : Int) (newId : String) :
    SameObligations s (s.beginRun app user session invocation identity leaseOwner leaseTtlMs now newId).2 := by
  simp only [beginRun]
  cases (s.invocations (app, user, session, invocation)).bind fun existingId => s.runs.find? existingId with
  | none => exact ⟨rfl, rfl⟩
  | some r => exact ⟨rfl, rfl⟩

theorem sameObligations_resumeRun (runId leaseOwner : String) (leaseTtlMs now : Int) :
    SameObligations s (s.resumeRun runId leaseOwner leaseTtlMs now).2 := by
  simp only [resumeRun]
  cases s.runs.find? runId with
  | none => exact ⟨rfl, rfl⟩
  | some r => exact ⟨rfl, rfl⟩

theorem sameObligations_endRun (runId : String) (status now : Int) :
    SameObligations s (s.endRun runId status now).2 := by
  simp only [endRun]
  cases s.runs.find? runId with
  | none => exact ⟨rfl, rfl⟩
  | some r => exact ⟨rfl, rfl⟩

theorem sameObligations_compactRun (runId : String) : SameObligations s (s.compactRun runId).2 := by
  simp only [compactRun]
  by_cases unknown : 0 < s.effects.count (isUnknown runId)
  · simp [unknown, SameObligations]
  · by_cases openOblig : 0 < s.obligations.count (isOpen runId)
    · simp [unknown, openOblig, SameObligations]
    · simp [unknown, openOblig, SameObligations]

theorem sameObligations_beginEffect (r : RunStore.EffectRequest) (now : Int) :
    SameObligations s (s.beginEffect r now).2 := by
  have admitted : SameObligations s (s.admitEffect r now).2 := by
    simp only [admitEffect]
    cases s.effects.find? (r.runId, effectKey r) with
    | none => exact ⟨rfl, rfl⟩
    | some existing => exact ⟨rfl, rfl⟩
  simp only [beginEffect]
  split
  · exact ⟨rfl, rfl⟩
  · split
    · exact ⟨rfl, rfl⟩
    · split
      · exact ⟨rfl, rfl⟩
      · exact admitted

theorem sameObligations_completeEffect (runId key : String) (status : Int) (responseJson errorJson : String) (now : Int) :
    SameObligations s (s.completeEffect runId key status responseJson errorJson now).2 := by
  simp only [completeEffect]
  cases s.effects.find? (runId, key) with
  | none => exact ⟨rfl, rfl⟩
  | some eff => exact ⟨rfl, rfl⟩

end Frames

section Claims

variable {s : MemRunStore} {runId : String} {obligationSeq : Int} {o : ObligationRecord} {nowMs : Int}

theorem claimObligation_of_eligible (claimer : String) (leaseTtlMs : Int)
    (found : s.obligations.find? (runId, obligationSeq) = some o) (free : eligible nowMs o) :
    s.claimObligation runId obligationSeq claimer leaseTtlMs nowMs =
      (.ok (true, some ((claim claimer (addI64 nowMs leaseTtlMs)).apply o)), { s with
        obligations := modify s.obligations (runId, obligationSeq) (claim claimer (addI64 nowMs leaseTtlMs)) }) := by
  simp [claimObligation, found, free]

theorem claimObligation_of_leased (claimer : String) (leaseTtlMs : Int)
    (found : s.obligations.find? (runId, obligationSeq) = some o) (leased : ¬ eligible nowMs o) :
    s.claimObligation runId obligationSeq claimer leaseTtlMs nowMs = (.ok (false, some o), s) := by
  simp [claimObligation, found, leased]

end Claims

/-- What a call does to the obligations: nothing, a new one with the next number, or a change of the
    one that it claims or resolves. -/
theorem obligations_of_serve (s : MemRunStore) (call : Call) :
    SameObligations s (s.serve call) ∨
      (∃ row : ObligationRecord, row.seq = s.nextObligationSeq row.runId + 1 ∧
        (s.serve call).obligations = s.obligations.put row ∧
        (s.serve call).nextObligationSeq = Function.update s.nextObligationSeq row.runId row.seq) ∨
      ∃ pk, call.obligation? = some pk ∧ ∃ u : Update ObligationRecord.pk,
        (s.serve call).obligations = modify s.obligations pk u ∧
        (s.serve call).nextObligationSeq = s.nextObligationSeq := by
  cases call with
  | beginRun => exact .inl (sameObligations_beginRun ..)
  | resumeRun => exact .inl (sameObligations_resumeRun ..)
  | endRun => exact .inl (sameObligations_endRun ..)
  | compactRun => exact .inl (sameObligations_compactRun ..)
  | recordDecision => exact .inl ⟨rfl, rfl⟩
  | beginEffect => exact .inl (sameObligations_beginEffect ..)
  | completeEffect => exact .inl (sameObligations_completeEffect ..)
  | registerCompensation runId effectKey kind payload compensatorRef maxAttempts now =>
    simp only [serve, registerCompensation]
    cases s.obligations.rows.find? fun o => o.runId = runId && o.effectKey = effectKey && o.kind = kind with
    | some existing => exact .inl ⟨rfl, rfl⟩
    | none => exact .inr (.inl ⟨_, rfl, rfl, rfl⟩)
  | claimObligation runId obligationSeq claimer leaseTtlMs nowMs =>
    cases found : s.obligations.find? (runId, obligationSeq) with
    | none =>
      simp only [serve, claimObligation, found]
      exact .inl ⟨rfl, rfl⟩
    | some o =>
      by_cases free : eligible nowMs o
      · rw [serve, claimObligation_of_eligible _ _ found free]
        exact .inr (.inr ⟨_, rfl, _, rfl, rfl⟩)
      · rw [serve, claimObligation_of_leased _ _ found free]
        exact .inl ⟨rfl, rfl⟩
  | resolveObligation runId obligationSeq status resultJson =>
    simp only [serve, resolveObligation]
    cases s.obligations.find? (runId, obligationSeq) with
    | none => exact .inl ⟨rfl, rfl⟩
    | some o => exact .inr (.inr ⟨_, rfl, _, rfl, rfl⟩)

theorem find?_modify (t : Table ObligationRecord.pk) (pk k : String × Int) (u : Update ObligationRecord.pk) :
    (modify t pk u).find? k = if k = pk then (t.find? k).map u.apply else t.find? k := by
  simp only [modify, Table.find?_update]
  cases found : t.find? k with
  | none => simp
  | some row =>
    have key := Table.key_of_find? found
    by_cases own : k = pk <;> simp [key, own]

theorem numbered_serve (s : MemRunStore) (call : Call) (numbered : Numbered s) : Numbered (s.serve call) := by
  intro pk row found
  obtain ⟨rows, counter⟩ | ⟨new, isNext, rows, counter⟩ | ⟨own, -, u, rows, counter⟩ := obligations_of_serve s call
  · rw [rows] at found
    rw [counter]
    exact numbered pk row found
  · rw [rows, Table.find?_put] at found
    rw [counter]
    by_cases sameRun : pk.1 = new.runId
    · rw [sameRun, Function.update_self]
      split at found
      · rename_i isNew
        rw [← isNew]
      · have old := numbered pk row found
        rw [sameRun] at old
        omega
    · rw [Function.update_of_ne sameRun]
      split at found
      · rename_i isNew
        rw [← isNew] at sameRun
        exact absurd rfl sameRun
      · exact numbered pk row found
  · rw [rows, find?_modify] at found
    rw [counter]
    cases old : s.obligations.find? pk with
    | none => simp [old] at found
    | some before => exact numbered pk before old

/-- In every state the store reaches. -/
theorem numbered_run (calls : List Call) : Numbered (run serve empty calls) :=
  run_kept numbered_serve numbered_empty calls

/-- A call on something else leaves the row of an obligation. -/
theorem obligation_of_serve {s : MemRunStore} {call : Call} {pk : String × Int} {row : ObligationRecord}
    (numbered : Numbered s) (found : s.obligations.find? pk = some row) (other : call.obligation? ≠ some pk) :
    (s.serve call).obligations.find? pk = some row := by
  obtain ⟨rows, -⟩ | ⟨new, isNext, rows, -⟩ | ⟨own, isOwn, u, rows, -⟩ := obligations_of_serve s call
  · rw [rows, found]
  · rw [rows, Table.find?_put, if_neg, found]
    rintro rfl
    -- the number of the new obligation is above that of every old one
    have old := numbered _ _ found
    simp only at old
    omega
  · rw [rows, find?_modify, if_neg, found]
    rintro rfl
    exact other isOwn

end Tape.Sim.MemRunStore
