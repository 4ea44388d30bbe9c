import Tape.Sdk.Due

/-! # The compactor

`compact_once` lists the oldest runs that ended before a cutoff and asks the server to compact each
of them.  The server refuses a run that still has an open obligation or an `UNKNOWN` effect; such a
run stays on the list, in front of the younger ones.
-/

namespace Tape.Sdk

open Sql Interleave
open Tape.Sequential

/-! ## `compact_once` -/

/-- The service fills in its own clock and limit. -/
def Client.listCompactableRuns (beforeMs limit now : Int) : SdkM (List RunRow) :=
  rpc (RunStore.listCompactableRuns (if 0 < beforeMs then beforeMs else now)
    (if 0 < limit then limit else 100))

def Client.compactRun (runId : String) (now : Int) : SdkM CompactReport :=
  rpc (RunStore.compactRun runId now)

/-- One `compact_once`, and the clocks it meets. -/
structure CompactJob where
  beforeMs : Int := 0
  limit : Int := 100
  /-- The compactor's own clock. -/
  sdkNow : Int
  /-- The server's clock when it lists the runs. -/
  listAt : Int
  /-- The server's clock when it compacts a run. -/
  compactAt : String → Int

/-- A day ago, if the caller does not say. -/
def CompactJob.before (job : CompactJob) : Int :=
  if job.beforeMs ≤ 0 then job.sdkNow - 24 * 60 * 60 * 1000 else job.beforeMs

def compactAll (job : CompactJob) : List RunRow → SdkM (List (String × Except Status CompactReport))
  | [] => return []
  | r :: rest => do
    let report ← tried (Client.compactRun r.runId (job.compactAt r.runId))
    let reports ← compactAll job rest
    return (r.runId, report) :: reports

def compactOnce (job : CompactJob) : SdkM (List (String × Except Status CompactReport)) := do
  let runs ← Client.listCompactableRuns job.before job.limit job.listAt
  compactAll job runs

/-! ## One run -/

/-- The count that `compact_run` refuses a run for. -/
def openObligations (w : World) (runId : String) : Nat :=
  w.obligations.count fun row => row.runId = runId &&
    (row.status = ObligationStatus.pending.code || row.status = ObligationStatus.committed.code)

def unknownEffects (w : World) (runId : String) : Nat :=
  w.effects.count fun row => row.runId = runId && row.status = EffectStatus.unknown.code

/-- Nothing of the run is left to be settled. -/
def isSettled (w : World) (runId : String) : Bool :=
  openObligations w runId = 0 && unknownEffects w runId = 0

/-- The bodies of the run's decisions and effects are gone. -/
structure Zeroed (runId : String) (w : World) : Prop where
  decisions : ∀ row ∈ w.decisions.rows, row.runId = runId → DecisionStmt.hasPayload row = false
  effects : ∀ row ∈ w.effects.rows, row.runId = runId →
    row.requestJson = "" ∧ row.responseJson = "" ∧ row.errorJson = ""

/-- `w'` is `w` with some entries more in the journal, under numbers of the run. -/
structure OnlyJournaled (runId : String) (w w' : World) : Prop where
  obligations : w'.obligations = w.obligations
  decisions : w'.decisions = w.decisions
  effects : w'.effects = w.effects
  others : ∀ k, k ≠ runId → w'.runs.find? k = w.runs.find? k
  own : ∀ row, w.runs.find? runId = some row →
    ∃ cursor, w'.runs.find? runId = some { row with seqCursor := cursor }

theorem OnlyJournaled.refl (runId : String) (w : World) : OnlyJournaled runId w w where
  obligations := rfl
  decisions := rfl
  effects := rfl
  others _ _ := rfl
  own row found := ⟨row.seqCursor, found⟩

theorem OnlyJournaled.trans {runId : String} {w w₁ w₂ : World} (first : OnlyJournaled runId w w₁)
    (second : OnlyJournaled runId w₁ w₂) : OnlyJournaled runId w w₂ where
  obligations := second.obligations.trans first.obligations
  decisions := second.decisions.trans first.decisions
  effects := second.effects.trans first.effects
  others k ne := (second.others k ne).trans (first.others k ne)
  own row found := by
    obtain ⟨cursor, between⟩ := first.own row found
    obtain ⟨later, after⟩ := second.own _ between
    exact ⟨later, after⟩

/-- A statement on one run leaves the others. -/
theorem find?_exec_of_ne {s : RunStmt} {runId k : String} (isUpdate : ∀ row, s ≠ .insertRun row)
    (ownOnly : ∀ row, s.selects row → row.runId = runId) (w : World) (ne : k ≠ runId) :
    (s.exec w).2.find? k = w.runs.find? k := by
  cases found : w.runs.find? k with
  | none =>
    cases after : (s.exec w).2.find? k with
    | none => rfl
    | some row => exact absurd (RunStmt.insert_of_find?_exec found after).1 (isUpdate row)
  | some row =>
    have unselected : s.selects row = false := by
      refine Bool.eq_false_iff.mpr fun selected => ne ?_
      rw [← Table.key_of_find? found]
      exact ownOnly row selected
    rw [RunStmt.find?_exec_of_some found, RunStmt.apply, unselected]
    rfl

theorem onlyJournaled_bumpSeq (runId : String) (w : World) :
    OnlyJournaled runId w ((.run (.bumpSeq runId) : Act).exec w).2 where
  obligations := rfl
  decisions := rfl
  effects := rfl
  others _ ne := find?_exec_of_ne (s := .bumpSeq runId) (fun _ same => by cases same)
    (fun _ selected => by simpa [RunStmt.selects] using selected) w ne
  own row found := by
    have bumped := RunStmt.find?_exec_of_some (s := .bumpSeq runId) found
    have own : RunStmt.selects (.bumpSeq runId) row = true := by
      simpa [RunStmt.selects] using Table.key_of_find? found
    rw [RunStmt.apply, if_pos own] at bumped
    exact ⟨_, bumped⟩

/-- Taking the run's next number and filing the entry, whatever fails. -/
theorem onlyJournaled_journaled (runId : String) (payload : Int → Json) (ts : Int) {α : Type} (value : α)
    (w : World) :
    OnlyJournaled runId w (tape.alone (do
      let seq ← orElse (RunStore.nextSeq runId) 0
      orElse (RunStore.journal runId seq "run" (payload seq) ts) ()
      return value : StoreM α).run w).2 := by
  refine System.alone_of_all (S := tape) (I := OnlyJournaled runId w)
    (p := fun act => ∀ w, OnlyJournaled runId w (act.exec w).2)
    (fun _ _ keeps before => before.trans (keeps _)) ?_ (.refl runId w)
  have reads : ∀ w, OnlyJournaled runId w ((.run (.readSeq runId) : Act).exec w).2 := fun w => .refl runId w
  have files : ∀ (s : JournalStmt) w, OnlyJournaled runId w ((.journal s : Act).exec w).2 := fun s w =>
    ⟨rfl, rfl, rfl, fun _ _ => rfl, fun row found => ⟨row.seqCursor, found⟩⟩
  refine .exceptBind (all_orElse ?_) fun seq => .exceptBind (all_orElse ?_) fun _ => trivial
  · exact .exceptBind (all_query (onlyJournaled_bumpSeq runId)) fun _ => .exceptBind (all_query reads) fun _ => trivial
  · exact .exceptBind (all_query (files _)) fun _ => all_query (files _)

/-- What compacting the run leaves: the bodies are gone, the run is stamped, and nothing else has changed. -/
structure Compacts (row : RunRow) (ts : Int) (w w' : World) : Prop where
  obligations : w'.obligations = w.obligations
  decisions : w'.decisions = ((DecisionStmt.zeroDecisions row.runId).exec w).2
  effects : w'.effects = ((EffectStmt.zeroEffects row.runId).exec w).2
  others : ∀ k, k ≠ row.runId → w'.runs.find? k = w.runs.find? k
  stamped : ∃ cursor, w'.runs.find? row.runId = some { row with compactedAtMs := ts, seqCursor := cursor }

/-- The run's row with the bodies gone and the stamp set. -/
def stampedWorld (runId : String) (ts : Int) (w : World) : World :=
  { w with
    decisions := ((DecisionStmt.zeroDecisions runId).exec w).2
    effects := ((EffectStmt.zeroEffects runId).exec w).2
    runs := ((RunStmt.stampCompacted runId ts).exec w).2 }

theorem compacts_of_onlyJournaled {row : RunRow} {ts : Int} {w w' : World} (found : w.runs.find? row.runId = some row)
    (journaled : OnlyJournaled row.runId (stampedWorld row.runId ts w) w') : Compacts row ts w w' where
  obligations := journaled.obligations
  decisions := journaled.decisions
  effects := journaled.effects
  others k ne := by
    refine (journaled.others k ne).trans ?_
    exact find?_exec_of_ne (s := .stampCompacted row.runId ts) (fun _ same => by cases same)
      (fun _ selected => by simpa [RunStmt.selects] using selected) w ne
  stamped := by
    have stamped := RunStmt.find?_exec_of_some (s := .stampCompacted row.runId ts) found
    have own : RunStmt.selects (.stampCompacted row.runId ts) row = true := by simp [RunStmt.selects]
    rw [RunStmt.apply, if_pos own] at stamped
    obtain ⟨cursor, after⟩ := journaled.own _ stamped
    exact ⟨cursor, after⟩

section Compacting

variable {row : RunRow} {w : World}

/-- The server refuses a run that is not settled and leaves everything as it is. -/
theorem refused_compactRun (found : w.runs.find? row.runId = some row) (ended : RunStmt.isTerminal row.status)
    (endedAt : 0 < row.endedAtMs) (uncompacted : row.compactedAtMs = 0) (unsettled : isSettled w row.runId = false)
    (ts : Int) : (tape.alone (RunStore.compactRun row.runId ts).run w).2 = w := by
  have read : ((RunStmt.readCompaction row.runId).exec w).1 =
      .ok (some (row.status, row.endedAtMs, row.compactedAtMs)) := by simp [RunStmt.exec, found]
  have isEnded : (!RunStmt.isTerminal row.status || decide (row.endedAtMs ≤ 0)) = false := by simp [ended, endedAt]
  have notYet : ¬ 0 < row.compactedAtMs := by omega
  refine (congrArg Prod.snd (alone_query (s := .run (.readCompaction row.runId)) read)).trans ?_
  simp only [notYet, if_false, isEnded, Bool.false_eq_true]
  refine (congrArg Prod.snd (alone_query (s := .obligation (.countOpen row.runId)) rfl)).trans ?_
  by_cases open_ : (0 : Int) < openObligations w row.runId
  · exact congrArg (fun program => (tape.alone (ExceptT.run program) w).2) (if_pos open_)
  · refine (congrArg (fun program => (tape.alone (ExceptT.run program) w).2) (if_neg open_)).trans ?_
    refine (congrArg Prod.snd (alone_query (s := .effect (.countUnknown row.runId)) rfl)).trans ?_
    have unknown : (0 : Int) < unknownEffects w row.runId := by
      simp only [isSettled, Bool.and_eq_false_iff, decide_eq_false_iff_not] at unsettled
      omega
    exact congrArg (fun program => (tape.alone (ExceptT.run program) w).2) (if_pos unknown)

/-- A settled run is compacted. -/
theorem compacts_compactRun (found : w.runs.find? row.runId = some row) (ended : RunStmt.isTerminal row.status)
    (endedAt : 0 < row.endedAtMs) (uncompacted : row.compactedAtMs = 0) (settled : isSettled w row.runId = true)
    (ts : Int) : Compacts row ts w (tape.alone (RunStore.compactRun row.runId ts).run w).2 := by
  have read : ((RunStmt.readCompaction row.runId).exec w).1 =
      .ok (some (row.status, row.endedAtMs, row.compactedAtMs)) := by simp [RunStmt.exec, found]
  have isEnded : (!RunStmt.isTerminal row.status || decide (row.endedAtMs ≤ 0)) = false := by simp [ended, endedAt]
  have notYet : ¬ 0 < row.compactedAtMs := by omega
  simp only [isSettled, Bool.and_eq_true, decide_eq_true_eq] at settled
  have noneOpen : ¬ (0 : Int) < openObligations w row.runId := by omega
  have noneUnknown : ¬ (0 : Int) < unknownEffects w row.runId := by omega
  refine compacts_of_onlyJournaled found ?_
  -- read off statement by statement what the method leaves, down to the journal
  have through : ∀ {left left' : World}, left = left' → OnlyJournaled row.runId (stampedWorld row.runId ts w) left' →
      OnlyJournaled row.runId (stampedWorld row.runId ts w) left := fun same kept => same ▸ kept
  refine through (congrArg Prod.snd (alone_query (s := .run (.readCompaction row.runId)) read)) ?_
  simp only [notYet, if_false, isEnded, Bool.false_eq_true]
  refine through (congrArg Prod.snd (alone_query (s := .obligation (.countOpen row.runId)) rfl)) ?_
  refine through (congrArg (fun program => (tape.alone (ExceptT.run program) w).2) (if_neg noneOpen)) ?_
  refine through (congrArg Prod.snd (alone_query (s := .effect (.countUnknown row.runId)) rfl)) ?_
  refine through (congrArg (fun program => (tape.alone (ExceptT.run program) w).2) (if_neg noneUnknown)) ?_
  refine through (congrArg Prod.snd (alone_query (s := .decision (.sumBytes row.runId)) rfl)) ?_
  refine through (congrArg Prod.snd (alone_query (s := .effect (.sumBytes row.runId)) rfl)) ?_
  refine through (congrArg Prod.snd (alone_query (s := .decision (.zeroDecisions row.runId)) rfl)) ?_
  refine through (congrArg Prod.snd (alone_query (s := .effect (.zeroEffects row.runId)) rfl)) ?_
  refine through (congrArg Prod.snd (alone_query (s := .run (.stampCompacted row.runId ts)) rfl)) ?_
  exact onlyJournaled_journaled row.runId (fun _ => _) ts _ _

end Compacting

/-! ## One sweep -/

section Sweeping

variable {job : CompactJob} {r : RunRow} {ts : Int} {w w' : World}

/-- An update that does not touch what is counted. -/
theorem count_update {κ ρ : Type} [DecidableEq κ] {key : ρ → κ} (t : Table key) {counted : ρ → Bool} (cond : ρ → Bool)
    (u : Update key) (same : ∀ row, counted (u.apply row) = counted row) :
    (t.update cond u).count counted = t.count counted := by
  have each : ∀ row, counted (if cond row then u.apply row else row) = counted row := by
    intro row
    split
    · exact same row
    · rfl
  simp only [Table.count, Table.update, ← List.countP_eq_length_filter, List.countP_map]
  exact List.countP_congr fun row _ => by simp [each row]

/-- Compacting a run settles and unsettles nothing. -/
theorem Compacts.isSettled_eq (compacts : Compacts r ts w w') : isSettled w' = isSettled w := by
  funext runId
  have sameOpen : openObligations w' runId = openObligations w runId := by
    rw [openObligations, compacts.obligations, openObligations]
  have sameUnknown : unknownEffects w' runId = unknownEffects w runId := by
    rw [unknownEffects, compacts.effects]
    exact count_update w.effects _ _ fun _ => rfl
  rw [isSettled, sameOpen, sameUnknown, isSettled]

/-- The bodies of the run are gone, and what is gone stays gone. -/
theorem Compacts.zeroed {runId : String} (compacts : Compacts r ts w w') (before : runId = r.runId ∨ Zeroed runId w) :
    Zeroed runId w' where
  decisions row member own := by
    rw [compacts.decisions] at member
    obtain ⟨old, isOld, rfl⟩ := List.mem_map.mp member
    by_cases blanked : (old.runId = r.runId && DecisionStmt.hasPayload old) = true
    · rw [if_pos blanked]
      rfl
    · rw [if_neg blanked] at own ⊢
      cases before with
      | inl same => simpa [own, same] using blanked
      | inr zeroed => exact zeroed.decisions old isOld own
  effects row member own := by
    rw [compacts.effects] at member
    obtain ⟨old, isOld, rfl⟩ := List.mem_map.mp member
    by_cases blanked : (EffectStmt.zeroEffects r.runId).selects old = true
    · rw [if_pos blanked]
      exact ⟨rfl, rfl, rfl⟩
    · rw [if_neg blanked] at own ⊢
      cases before with
      | inl same => simpa [EffectStmt.selects, own, same, and_assoc] using blanked
      | inr zeroed => exact zeroed.effects old isOld own

/-- The service's cutoff. -/
def CompactJob.cutoff (job : CompactJob) : Int := if 0 < job.before then job.before else job.listAt

def CompactJob.window (job : CompactJob) : Nat := (if 0 < job.limit then job.limit else 100).toNat

/-- The runs that a sweep is after. -/
def CompactJob.hot (job : CompactJob) (row : RunRow) : Bool :=
  RunStmt.isTerminal row.status && row.compactedAtMs = 0 && 0 < row.endedAtMs && row.endedAtMs < job.cutoff

/-- What a sweep leaves of one run of its list. -/
def CompactJob.compacted (job : CompactJob) (r : RunRow) (w : World) : World :=
  (tape.alone (RunStore.compactRun r.runId (job.compactAt r.runId)).run w).2

theorem CompactJob.compacted_cases (found : w.runs.find? r.runId = some r) (isHot : job.hot r) :
    (isSettled w r.runId = false ∧ job.compacted r w = w) ∨
      (isSettled w r.runId = true ∧ Compacts r (job.compactAt r.runId) w (job.compacted r w)) := by
  simp only [hot, Bool.and_eq_true, decide_eq_true_eq] at isHot
  obtain ⟨⟨⟨ended, uncompacted⟩, endedAt⟩, -⟩ := isHot
  cases settled : isSettled w r.runId with
  | false => exact .inl ⟨rfl, refused_compactRun found ended endedAt uncompacted settled _⟩
  | true => exact .inr ⟨rfl, compacts_compactRun found ended endedAt uncompacted settled _⟩

/-- The body of the loop; `settled` is what was settled when the sweep began. -/
structure CompactJob.TakesUp (job : CompactJob) (settled : String → Bool) (r : RunRow) (w w' : World) (goesOn : Bool) :
    Prop where
  found : w.runs.find? r.runId = some r
  isHot : job.hot r
  same : isSettled w = settled
  left : w' = job.compacted r w
  goesOn : goesOn = true

theorem alone_compactAll_cons (job : CompactJob) (r : RunRow) (rest : List RunRow) (w : World) :
    (tape.alone (compactAll job (r :: rest)).run w).2 =
      (tape.alone (compactAll job rest).run (job.compacted r w)).2 := by
  rw [compactAll, System.alone_exceptBind tape (alone_tried _ w), left_last, Client.compactRun, left_rpc]
  rfl

theorem others_compacted (found : w.runs.find? r.runId = some r) (isHot : job.hot r) {k : String} (ne : k ≠ r.runId) :
    (job.compacted r w).runs.find? k = w.runs.find? k := by
  cases CompactJob.compacted_cases found isHot with
  | inl refused => rw [refused.2]
  | inr done => exact done.2.others k ne

/-- The rows are in the table as the sweep has read them. -/
abbrev Listed (job : CompactJob) (rows : List RunRow) (w : World) : Prop :=
  Serves.Read World.runs job.hot rows w

theorem Listed.rest {rest : List RunRow} (listed : Listed job (r :: rest) w) : Listed job rest (job.compacted r w) :=
  listed.next fun _ ne =>
    others_compacted (listed.found r List.mem_cons_self) (listed.isHot r List.mem_cons_self) ne

/-- What compacting or refusing one run keeps, a sweep keeps. -/
theorem compactAll_kept {I : World → Prop}
    (kept : ∀ r w, w.runs.find? r.runId = some r → job.hot r → I w → I (job.compacted r w)) {rows : List RunRow}
    (listed : Listed job rows w) (start : I w) : I (tape.alone (compactAll job rows).run w).2 := by
  induction rows generalizing w with
  | nil => exact start
  | cons r rest inductionHypothesis =>
    rw [alone_compactAll_cons]
    have first := kept r w (listed.found r List.mem_cons_self) (listed.isHot r List.mem_cons_self) start
    exact inductionHypothesis listed.rest first

theorem isSettled_compacted (found : w.runs.find? r.runId = some r) (isHot : job.hot r) :
    isSettled (job.compacted r w) = isSettled w := by
  cases CompactJob.compacted_cases found isHot with
  | inl refused => rw [refused.2]
  | inr done => exact done.2.isSettled_eq

theorem pass_compactAll {settled : String → Bool} {rows : List RunRow} (listed : Listed job rows w)
    (same : isSettled w = settled) :
    Sql.Pass (job.TakesUp settled) rows w (tape.alone (compactAll job rows).run w).2 := by
  induction rows generalizing w with
  | nil => exact .nil w
  | cons r rest inductionHypothesis =>
    rw [alone_compactAll_cons]
    have found := listed.found r List.mem_cons_self
    have isHot := listed.isHot r List.mem_cons_self
    exact .next ⟨found, isHot, same, rfl, rfl⟩
      (inductionHypothesis listed.rest ((isSettled_compacted found isHot).trans same))

/-- A stamp stands for bodies that are gone. -/
def StampsZeroed (runId : String) (w : World) : Prop :=
  ∀ row, w.runs.find? runId = some row → row.compactedAtMs ≠ 0 → Zeroed runId w

theorem stampsZeroed_compacted {runId : String} (found : w.runs.find? r.runId = some r) (isHot : job.hot r)
    (before : StampsZeroed runId w) : StampsZeroed runId (job.compacted r w) := by
  cases CompactJob.compacted_cases found isHot with
  | inl refused =>
    rw [refused.2]
    exact before
  | inr done =>
    intro row isRow stamped
    by_cases own : runId = r.runId
    · exact done.2.zeroed (.inl own)
    · rw [done.2.others runId own] at isRow
      exact done.2.zeroed (.inr (before row isRow stamped))

/-- `ORDER BY ended_at_ms`. -/
abbrev EndedFirst (a b : RunRow) : Prop := a.endedAtMs ≤ b.endedAtMs

instance endedFirst_total : Std.Total EndedFirst := ⟨fun a b => Int.le_total a.endedAtMs b.endedAtMs⟩

instance endedFirst_trans : IsTrans RunRow EndedFirst := ⟨fun _ _ _ => Int.le_trans⟩

/-- What a sweep leaves. -/
def compactTick (w : World) (job : CompactJob) : World := (tape.alone (compactOnce job).run w).2

/-- The list of a sweep. -/
abbrev CompactJob.list (job : CompactJob) (w : World) : List RunRow :=
  Sql.window EndedFirst job.window (w.runs.rows.filter job.hot)

theorem compactTick_eq (w : World) (job : CompactJob) :
    compactTick w job = (tape.alone (compactAll job (job.list w)).run w).2 := by
  have positive : (0 : Int) < if 0 < job.limit then job.limit else 100 := by
    split <;> omega
  have isListed : limitRows (if 0 < job.limit then job.limit else 100)
      (orderBy RunRow.endedAtMs (w.runs.rows.filter job.hot)) = job.list w := if_neg (by omega)
  have listed : tape.alone (Client.listCompactableRuns job.before job.limit job.listAt).run w =
      (.ok (job.list w), w) := by
    have asked : tape.alone (Client.listCompactableRuns job.before job.limit job.listAt).run w =
        (.ok (limitRows (if 0 < (if 0 < job.limit then job.limit else 100) then
          (if 0 < job.limit then job.limit else 100) else 100)
            (orderBy RunRow.endedAtMs (w.runs.rows.filter job.hot))), w) := rfl
    rw [if_pos positive, isListed] at asked
    exact asked
  rw [compactTick, compactOnce, System.alone_exceptBind tape listed]

/-- The runs that are still to be compacted and ended no later. -/
def waitsWith (endedAt : Int) (row : RunRow) : Bool :=
  RunStmt.isTerminal row.status && row.compactedAtMs = 0 && 0 < row.endedAtMs && row.endedAtMs ≤ endedAt

theorem waitsWith_of_hot {endedAt : Int} (isHot : job.hot r) (older : r.endedAtMs ≤ endedAt) :
    waitsWith endedAt r := by
  simp only [CompactJob.hot, Bool.and_eq_true, decide_eq_true_eq] at isHot
  simp [waitsWith, isHot.1, older]

theorem serves_compacted (job : CompactJob) (settled : String → Bool) (target : RunRow)
    (clock : ∀ runId, 0 < job.compactAt runId) :
    Serves World.runs EndedFirst target (job.TakesUp settled) job.hot (fun r => !settled r.runId)
      (waitsWith target.endedAtMs) (fun _ => True) (fun old new => new.compactedAtMs = job.compactAt old.runId) where
  waiting r isHot older := waitsWith_of_hot isHot older
  others r w w' goesOn taken found isHot k ne := by
    rw [taken.left]
    exact others_compacted found isHot ne
  fits _ _ _ _ _ _ _ _ _ := trivial
  skips r w w' goesOn taken isSkipped := by
    refine ⟨taken.goesOn, ?_⟩
    rw [← taken.same, Bool.not_eq_true'] at isSkipped
    cases CompactJob.compacted_cases taken.found taken.isHot with
    | inl refused => rw [taken.left, refused.2]
    | inr done =>
      rw [isSkipped] at done
      cases done.1
  serves r w w' goesOn taken found isHot older isFree _ := by
    rw [← taken.same, Bool.not_eq_false'] at isFree
    cases CompactJob.compacted_cases found isHot with
    | inl refused =>
      rw [isFree] at refused
      cases refused.1
    | inr done =>
      obtain ⟨cursor, isNew⟩ := done.2.stamped
      have stamped : job.compactAt r.runId ≠ 0 := (clock r.runId).ne'
      rw [taken.left]
      exact ⟨_, isNew, by simp [waitsWith, stamped], rfl⟩

/-- What is in front of the run does not keep a sweep from it: it is on the list and settled, and fewer runs that the
    server refuses ended no later than the list is long. -/
structure CompactJob.GetsTo (job : CompactJob) (row : RunRow) (w : World) : Prop where
  isHot : job.hot row
  settled : isSettled w row.runId
  few : (w.runs.rows.countP fun r => job.hot r && (!isSettled w r.runId && r.endedAtMs ≤ row.endedAtMs)) < job.window
  clock : ∀ runId, 0 < job.compactAt runId

/-- A list full of runs that the server refuses ended before the run. -/
structure CompactJob.IsBehind (job : CompactJob) (row : RunRow) (w : World) : Prop where
  full : job.window ≤ w.runs.rows.countP fun r => job.hot r && (!isSettled w r.runId && r.endedAtMs < row.endedAtMs)
  clock : ∀ runId, 0 < job.compactAt runId

/-- The run is compacted. -/
def Compacted (runId : String) (ts : Int) (w : World) : Prop :=
  (∃ row, w.runs.find? runId = some row ∧ row.compactedAtMs = ts) ∧ Zeroed runId w

theorem listed_list (job : CompactJob) (w : World) : Listed job (job.list w) w :=
  Serves.read_window job.window job.hot w

/-- A sweep that gets to a run compacts it, or leaves fewer that wait. -/
theorem compact_tick {row : RunRow} (getsTo : job.GetsTo row w) (found : w.runs.find? row.runId = some row) :
    Compacted row.runId (job.compactAt row.runId) (compactTick w job) ∨
      ((compactTick w job).runs.find? row.runId = some row ∧
        (compactTick w job).runs.count (waitsWith row.endedAtMs) < w.runs.count (waitsWith row.endedAtMs)) := by
  have pass := pass_compactAll (listed_list job w) rfl
  have uncompacted : StampsZeroed row.runId w := by
    intro same isRow stamped
    rw [found, Option.some.injEq] at isRow
    have isHot := getsTo.isHot
    simp [CompactJob.hot, isRow, stamped] at isHot
  rw [compactTick_eq]
  cases (serves_compacted job (isSettled w) row getsTo.clock).tick pass found getsTo.isHot (by simp [getsTo.settled])
    trivial getsTo.few with
  | inl served =>
    obtain ⟨new, isNew, stamped⟩ := served
    have zeroed := compactAll_kept (fun r w found isHot => stampsZeroed_compacted found isHot)
      (listed_list job w) uncompacted
    have some_ : new.compactedAtMs ≠ 0 := by
      rw [stamped]
      exact (getsTo.clock row.runId).ne'
    exact .inl ⟨⟨new, isNew, stamped⟩, zeroed new isNew some_⟩
  | inr waits => exact .inr waits

/-- A sweep does not get to a run that is behind. -/
theorem starved_compactTick {row : RunRow} (behind : job.IsBehind row w) (found : w.runs.find? row.runId = some row) :
    (compactTick w job).runs.find? row.runId = some row := by
  have pass := pass_compactAll (listed_list job w) rfl
  rw [compactTick_eq]
  refine (serves_compacted job (isSettled w) row behind.clock).starved pass found
    (behind.full.trans (List.countP_mono_left fun r _ => ?_))
  simp only [Bool.and_eq_true, Bool.not_eq_true', decide_eq_true_eq, decide_eq_false_iff_not]
  exact fun ⟨isHot, isRefused, older⟩ => ⟨isHot, isRefused, older.le, not_le.mpr older⟩

end Sweeping

/-! ## Sweep after sweep -/

/-- A sweep, after whatever the other processes have executed since the last one. -/
structure Sweep where
  others : List Act := []
  job : CompactJob

namespace Sweep

/-- What the sweep finds. -/
def meets (w : World) (sweep : Sweep) : World := sweep.others.foldl (fun w act => (act.exec w).2) w

def take (w : World) (sweep : Sweep) : World := compactTick (sweep.meets w) sweep.job

end Sweep

/-- A run that ended at `endedAt` is still to be compacted. -/
def Waiting (runId : String) (endedAt : Int) (w : World) : Prop :=
  ∃ row, w.runs.find? runId = some row ∧ row.endedAtMs = endedAt ∧ waitsWith endedAt row

/-- The sweep gets to the run, and the other processes have not let an older one join. -/
structure Sweep.GetsTo (sweep : Sweep) (runId : String) (endedAt : Int) (w : World) : Prop where
  joins : NoneJoins (waitsWith endedAt) w.runs (sweep.meets w).runs
  found : ∃ row, (sweep.meets w).runs.find? runId = some row ∧ row.endedAtMs = endedAt ∧
    sweep.job.GetsTo row (sweep.meets w)

/-- The sweep finds the run behind a list full of runs that the server refuses. -/
def Sweep.IsBehind (sweep : Sweep) (runId : String) (endedAt : Int) (w : World) : Prop :=
  ∃ row, (sweep.meets w).runs.find? runId = some row ∧ row.endedAtMs = endedAt ∧ waitsWith endedAt row ∧
    sweep.job.IsBehind row (sweep.meets w)

theorem take_of_getsTo {sweep : Sweep} {runId : String} {endedAt : Int} {w : World}
    (getsTo : sweep.GetsTo runId endedAt w) :
    Compacted runId (sweep.job.compactAt runId) (sweep.take w) ∨
      (Waiting runId endedAt (sweep.take w) ∧
        (sweep.take w).runs.count (waitsWith endedAt) < w.runs.count (waitsWith endedAt)) := by
  obtain ⟨row, found, rfl, reached⟩ := getsTo.found
  obtain rfl : row.runId = runId := Table.key_of_find? found
  cases compact_tick reached found with
  | inl compacted => exact .inl compacted
  | inr waits =>
    have isWaiting : waitsWith row.endedAtMs row := waitsWith_of_hot reached.isHot (Int.le_refl _)
    exact .inr ⟨⟨row, waits.1, rfl, isWaiting⟩, waits.2.trans_le getsTo.joins.count_le⟩

/-- Whatever the other processes do in between: a settled run that the sweeps get to is compacted within as many
    sweeps as there are runs waiting no later than it, and a run that they find behind a list of refused ones waits for
    ever. -/
theorem compacted_unless_behind_list {runId : String} {endedAt : Int} {w : World} {sweeps : List Sweep}
    (waiting : Waiting runId endedAt w) :
    (w.runs.count (waitsWith endedAt) ≤ sweeps.length →
      Along Sweep.take (fun w sweep => Waiting runId endedAt w → sweep.GetsTo runId endedAt w) w sweeps →
      ∃ earlier sweep later, sweeps = earlier ++ sweep :: later ∧
        Compacted runId (sweep.job.compactAt runId) (sweep.take (run Sweep.take w earlier))) ∧
    (Along Sweep.take (fun w sweep => sweep.IsBehind runId endedAt w) w sweeps →
      Waiting runId endedAt (run Sweep.take w sweeps)) := by
  constructor
  · intro enough along
    have positive : ∀ w, Waiting runId endedAt w → 0 < w.runs.count (waitsWith endedAt) := by
      intro w waits
      obtain ⟨row, found, -, isWaiting⟩ := waits
      exact Table.count_pos_of_find? found isWaiting
    exact exists_done (fun w : World => w.runs.count (waitsWith endedAt)) positive
      (fun _ _ waits getsTo => take_of_getsTo (getsTo waits)) waiting along enough
  · intro along
    refine run_invariant (fun w sweep _ behind => ?_) waiting along
    obtain ⟨row, found, sameEnd, isWaiting, behind⟩ := behind
    obtain rfl : row.runId = runId := Table.key_of_find? found
    exact ⟨row, starved_compactTick behind found, sameEnd, isWaiting⟩

/-! ### A run behind one that got stuck -/

/-- A run that ended at `endedAtMs`. -/
def endedRun (runId : String) (status : RunStatus) (endedAtMs : Int) : RunRow where
  runId := runId
  appName := "shop"
  userId := "u-1"
  sessionId := "s-1"
  invocationId := runId
  status := status.code
  seqCursor := 3
  leaseOwner := ""
  leaseExpiresAtMs := 0
  waitingOnGate := ""
  detailJson := ""
  startedAtMs := 1
  endedAtMs := endedAtMs
  tenantId := ""
  actor := ""
  subject := ""
  agentId := ""
  aiplexInstanceId := ""
  gatewayRoute := ""
  scopes := []
  labels := []
  compactedAtMs := 0

/-- The refund that the first run still owes. -/
def owedRefund : ObligationRecord where
  runId := "r-1"
  seq := 3
  effectKey := "c-1"
  kind := "refund"
  payload := .obj []
  status := ObligationStatus.pending.code
  tsMs := 4
  compensatorRef := ""
  attempts := 0
  maxAttempts := 8
  nextAttemptAtMs := 4
  lastError := ""
  claimedBy := ""
  claimExpiresAtMs := 0
  resultJson := ""

def plan : DecisionRecord where
  runId := "r-2"
  seq := 1
  decisionIndex := 0
  model := "m"
  requestJson := "{}"
  responseJson := "{}"
  rationale := ""
  policyVersion := ""
  tsMs := 2

/-- One run that got stuck with an obligation open, and one that ended well after it. -/
def endedRuns : World :=
  { World.empty with
    runs := ⟨[endedRun "r-1" .stuck 5, endedRun "r-2" .terminal 7], by decide⟩
    obligations := ⟨[owedRefund], by decide⟩
    decisions := ⟨[plan], by decide⟩ }

/-- A sweep at 20 over runs that ended before 10. -/
def sweepOf (limit : Int) : Sweep where
  job := { beforeMs := 10, limit, sdkNow := 20, listAt := 20, compactAt := fun _ => 20 }

/-- The first run alone fills a list of one, and is refused. -/
theorem take_sweepOf_one : (sweepOf 1).take endedRuns = endedRuns := by
  have first : (sweepOf 1).job.list endedRuns = [endedRun "r-1" .stuck 5] := by decide +kernel
  refine (compactTick_eq endedRuns (sweepOf 1).job).trans ?_
  rw [first, alone_compactAll_cons]
  have found : endedRuns.runs.find? "r-1" = some (endedRun "r-1" .stuck 5) := rfl
  exact refused_compactRun found (by decide) (by decide) rfl (by decide) 20

theorem second_run_compacted :
    (∃ earlier sweep later, [sweepOf 2, sweepOf 2] = earlier ++ sweep :: later ∧
      Compacted "r-2" (sweep.job.compactAt "r-2") (sweep.take (run Sweep.take endedRuns earlier))) ∧
    Waiting "r-2" 7 (run Sweep.take endedRuns [sweepOf 1, sweepOf 1, sweepOf 1]) := by
  have found : endedRuns.runs.find? "r-2" = some (endedRun "r-2" .terminal 7) := rfl
  have waiting : Waiting "r-2" 7 endedRuns := ⟨_, found, rfl, by decide⟩
  have clock : (0 : Int) < 20 := by decide
  constructor
  · have getsTo : (sweepOf 2).GetsTo "r-2" 7 endedRuns :=
      ⟨.refl _, _, found, rfl, by decide, by decide, by decide, fun _ => clock⟩
    have gone : ((sweepOf 2).take endedRuns).runs.rows.any
        (fun row => row.runId = "r-2" && waitsWith 7 row) = false := by
      decide +kernel
    have isGone : ¬ Waiting "r-2" 7 ((sweepOf 2).take endedRuns) := by
      intro waiting
      obtain ⟨row, isRow, -, waits⟩ := waiting
      have some_ := List.any_eq_false.mp gone row (Table.mem_of_find? isRow)
      simp [waits] at some_
      exact some_ (Table.key_of_find? isRow)
    exact (compacted_unless_behind_list waiting).1 (by decide)
      ⟨fun _ => getsTo, fun waits => absurd waits isGone, trivial⟩
  · have behind : (sweepOf 1).IsBehind "r-2" 7 endedRuns :=
      ⟨_, found, rfl, by decide, by decide, fun _ => clock⟩
    refine (compacted_unless_behind_list waiting).2 ⟨behind, ?_⟩
    rw [take_sweepOf_one]
    refine ⟨behind, ?_⟩
    rw [take_sweepOf_one]
    exact ⟨behind, trivial⟩

end Tape.Sdk
