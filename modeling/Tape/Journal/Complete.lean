import Tape.Journal.Fold
import Tape.Rules

/-! # A status and its journal entry

A method of the ledger writes a status in one statement and inserts the journal entry for it
in a later one.  In between the thread owes the entry.  A thread that fails or stops there
owes it for ever: the retry finds the row as it was left, and returns without an entry.
-/

namespace Tape.Journal

open Interleave

/-! ## Writes and entries -/

/-- The status that the event wrote. -/
def written : TapeEvent → Option (Item × Int)
  | ⟨_, .sql (.decision (.insertDecision row)), .ok _⟩ => some (.decision row.runId row.decisionIndex, decided)
  | ⟨_, .sql (.effect (.insertEffect row)), .ok _⟩ => some (.effect row.runId row.idempotencyKey, row.status)
  | ⟨_, .sql (.effect (.setOutcome runId key status ..)), .ok _⟩
  | ⟨_, .sql (.effect (.recordAttempt runId key status ..)), .ok _⟩
  | ⟨_, .sql (.effect (.recordObservation runId key status ..)), .ok _⟩ => some (.effect runId key, status)
  | ⟨_, .sql (.obligation (.insertObligation row)), .ok _⟩ => some (.obligation row.runId row.seq, row.status)
  | ⟨_, .sql (.obligation (.claimObligation runId seq ..)), .ok updated⟩ => claimed updated runId seq
  | ⟨_, .sql (.obligation (.recordAttempt runId seq status ..)), .ok _⟩
  | ⟨_, .sql (.obligation (.resolve runId seq status ..)), .ok _⟩ => some (.obligation runId seq, status)
  | _ => none
where
  claimed (updated : Nat) (runId : String) (seq : Int) : Option (Item × Int) :=
    if 0 < updated then some (.obligation runId seq, ObligationStatus.committed.code) else none

/-- The entry that the event inserted. -/
def inserted : TapeEvent → Option EventEntry
  | ⟨_, .sql (.journal (.insertEntry entry)), .ok _⟩ => some entry
  | _ => none

/-- The global number that the event drew. -/
def numberDrawn : TapeEvent → Option Int
  | ⟨_, .sql (.journal .nextGlobalSeq), .ok number⟩ => some number
  | _ => none

/-- The global number that thread `tid` drew in its last statement. -/
def drawn (tid : Nat) (log : List TapeEvent) : Option Int := (lastOwn tid log).bind numberDrawn

/-- The item that the event found. -/
def found : TapeEvent → Option Item
  | ⟨_, .sql (.effect (.getEffect runId key)), .ok row⟩ => row.bind fun _ => some (.effect runId key)
  | ⟨_, .sql (.obligation (.getObligation runId seq)), .ok row⟩ => row.bind fun _ => some (.obligation runId seq)
  | _ => none

/-- The item whose row an `UPDATE` takes to be there. -/
def updates : Act → Option Item
  | .sql (.effect (.setOutcome runId key ..)) | .sql (.effect (.recordAttempt runId key ..))
  | .sql (.effect (.recordObservation runId key ..)) => some (.effect runId key)
  | .sql (.obligation (.recordAttempt runId seq ..)) | .sql (.obligation (.resolve runId seq ..)) =>
    some (.obligation runId seq)
  | _ => none

/-- The act writes no status and inserts no entry. -/
def isQuiet : Act → Bool
  | .sql (.decision (.insertDecision _)) | .sql (.effect (.insertEffect _)) | .sql (.effect (.setOutcome ..))
  | .sql (.effect (.recordAttempt ..)) | .sql (.effect (.recordObservation ..))
  | .sql (.obligation (.insertObligation _)) | .sql (.obligation (.claimObligation ..))
  | .sql (.obligation (.recordAttempt ..)) | .sql (.obligation (.resolve ..)) | .sql (.journal (.insertEntry _)) => false
  | _ => true

/-- The status that thread `tid` has written and not journaled yet. -/
def owed (tid : Nat) : List TapeEvent → Option (Item × Int)
  | [] => none
  | event :: older =>
    if event.tid = tid then
      match written event with
      | some change => some change
      | none => if (inserted event).isSome then none else owed tid older
    else owed tid older

/-- The act, if it writes the item's status now, does so when no other thread owes an entry for it. -/
def exclusive (item : Item) (tid : Nat) (h : TapeHist) (act : Act) : Bool :=
  match written ⟨tid, act, (act.exec h.state).1⟩ with
  | some (changed, _) =>
    changed ≠ item || h.log.all fun event => event.tid = tid || (owed event.tid h.log).map Prod.fst ≠ some item
  | none => true

/-- A thread inserts the entry that it owes, under the number it has just drawn; it owes none when it writes a
    status, and it has found the row that it updates. -/
def Paired (tid : Nat) (log : List TapeEvent) : Act → Prop
  | .sql (.journal (.insertEntry entry)) => recorded entry = owed tid log ∧ drawn tid log = some entry.globalSeq
  | act => isQuiet act = false → owed tid log = none ∧
      ∀ item, updates act = some item → ∃ event ∈ log, found event = some item

/-! ## What an act does to a status -/

section Status

variable {tid : Nat} {act : Act} {res : act.Res} {w w' : World} {item : Item}

theorem effect_updated {s : EffectStmt} {runId key : String} {status : Int}
    (selects : ∀ row : EffectRecord, row.pk = (runId, key) → s.selects row) (assigns : ∀ row, (s.assign row).status = status)
    (there : (statusIn w (.effect runId key)).isSome) :
    statusIn { w with effects := (s.exec w).2 } (.effect runId key) = some status := by
  obtain ⟨row, isRow, -⟩ := Option.map_eq_some_iff.mp (Option.eq_some_of_isSome there)
  refine (congrArg (Option.map EffectRecord.status) (EffectStmt.find?_exec_of_some isRow)).trans ?_
  rw [Option.map_some, EffectStmt.apply, if_pos (selects row (Sql.Table.key_of_find? isRow)), assigns]

theorem obligation_updated {s : ObligationStmt} {runId : String} {seq status : Int} {row : ObligationRecord}
    (isRow : w.obligations.find? (runId, seq) = some row) (selects : s.selects row)
    (assigns : ∀ row, (s.assign row).status = status) :
    statusIn { w with obligations := (s.exec w).2 } (.obligation runId seq) = some status := by
  refine (congrArg (Option.map ObligationRecord.status) (ObligationStmt.find?_exec_of_some isRow)).trans ?_
  rw [Option.map_some, ObligationStmt.apply, if_pos selects, assigns]

theorem obligation_there {runId : String} {seq : Int} (there : (statusIn w (.obligation runId seq)).isSome) :
    ∃ row, w.obligations.find? (runId, seq) = some row ∧ row.pk = (runId, seq) := by
  obtain ⟨row, isRow, -⟩ := Option.map_eq_some_iff.mp (Option.eq_some_of_isSome there)
  exact ⟨row, isRow, Sql.Table.key_of_find? isRow⟩

/-- After a write the row has the status written. -/
theorem status_of_written {change : Item × Int} (answers : tape.Answers act w res w')
    (there : updates act = some change.1 → (statusIn w change.1).isSome)
    (isWritten : written ⟨tid, act, res⟩ = some change) : statusIn w' change.1 = some change.2 := by
  unfold written at isWritten
  split at isWritten
  next _ row value same =>
    cases same
    cases isWritten
    obtain ⟨executed, rfl⟩ := exec_of_ok answers
    exact congrArg (Option.map fun _ => decided) (find?_insertRow_of_ok executed.symm).2
  next _ row value same =>
    cases same
    cases isWritten
    obtain ⟨executed, rfl⟩ := exec_of_ok answers
    exact congrArg (Option.map EffectRecord.status) (find?_insertRow_of_ok executed.symm).2
  next same =>
    cases same
    cases isWritten
    obtain ⟨-, rfl⟩ := exec_of_ok answers
    exact effect_updated (fun row own => by simp [EffectStmt.selects, own]) (fun _ => rfl) (there rfl)
  next same =>
    cases same
    cases isWritten
    obtain ⟨-, rfl⟩ := exec_of_ok answers
    exact effect_updated (fun row own => by simp [EffectStmt.selects, own]) (fun _ => rfl) (there rfl)
  next same =>
    cases same
    cases isWritten
    obtain ⟨-, rfl⟩ := exec_of_ok answers
    exact effect_updated (fun row own => by simp [EffectStmt.selects, own]) (fun _ => rfl) (there rfl)
  next _ row value same =>
    cases same
    cases isWritten
    obtain ⟨executed, rfl⟩ := exec_of_ok answers
    exact congrArg (Option.map ObligationRecord.status) (find?_insertRow_of_ok executed.symm).2
  next _ runId seq claimer leaseExp now updated same =>
    cases same
    obtain ⟨executed, rfl⟩ := exec_of_ok answers
    -- a claim writes only where its WHERE finds the row
    obtain ⟨claimed, isClaim⟩ := Option.ite_none_right_eq_some.mp isWritten
    cases isClaim
    obtain rfl := Except.ok.inj executed
    obtain ⟨row, isRow, selected⟩ := (Sql.Table.count_pos_iff ..).mp claimed
    have own : row.pk = (runId, seq) := by
      simp only [ObligationStmt.selects, Bool.and_eq_true, decide_eq_true_eq] at selected
      exact selected.1
    exact obligation_updated (own ▸ isRow) selected fun _ => rfl
  next same =>
    cases same
    cases isWritten
    obtain ⟨-, rfl⟩ := exec_of_ok answers
    obtain ⟨row, isRow, own⟩ := obligation_there (there rfl)
    exact obligation_updated isRow (by simp [ObligationStmt.selects, own]) fun _ => rfl
  next same =>
    cases same
    cases isWritten
    obtain ⟨-, rfl⟩ := exec_of_ok answers
    obtain ⟨row, isRow, own⟩ := obligation_there (there rfl)
    exact obligation_updated isRow (by simp [ObligationStmt.selects, own]) fun _ => rfl
  next => cases isWritten

theorem effect_of_unwritten {s : EffectStmt} {row : EffectRecord}
    (unwritten : ∀ status, written ⟨tid, .effect s, (s.exec w).1⟩ ≠ some (.effect row.runId row.idempotencyKey, status)) :
    (s.apply row).status = row.status := by
  unfold EffectStmt.apply
  split
  next selected =>
    cases s with
    | setOutcome runId key status | recordAttempt runId key status | recordObservation runId key status =>
      obtain ⟨rfl, rfl⟩ := Prod.mk.inj (of_decide_eq_true selected)
      exact absurd rfl (unwritten status)
    | _ => rfl
  next => rfl

theorem obligation_of_unwritten {s : ObligationStmt} {row : ObligationRecord} (there : row ∈ w.obligations.rows)
    (unwritten : ∀ status, written ⟨tid, .obligation s, (s.exec w).1⟩ ≠ some (.obligation row.runId row.seq, status)) :
    (s.apply row).status = row.status := by
  unfold ObligationStmt.apply
  split
  next selected =>
    cases s with
    | claimObligation runId seq claimer leaseExp now =>
      have changed : 0 < w.obligations.count (ObligationStmt.claimObligation runId seq claimer leaseExp now).selects :=
        (Sql.Table.count_pos_iff ..).mpr ⟨row, Sql.Table.find?_key_of_mem there, selected⟩
      simp only [ObligationStmt.selects, Bool.and_eq_true, decide_eq_true_eq] at selected
      obtain ⟨rfl, rfl⟩ := Prod.mk.inj selected.1
      exact absurd (if_pos changed) (unwritten _)
    | recordAttempt runId seq status | resolve runId seq status =>
      obtain ⟨rfl, rfl⟩ := Prod.mk.inj (of_decide_eq_true selected)
      exact absurd rfl (unwritten status)
    | _ => rfl
  next => rfl

variable (tid) in
/-- A status that is not written stays as it is. -/
theorem status_of_unwritten (answers : tape.Answers act w res w')
    (unwritten : ∀ status, written ⟨tid, act, res⟩ ≠ some (item, status)) : statusIn w' item = statusIn w item := by
  cases item with
  | decision runId decisionIndex =>
    rcases decisions_cases answers with same | ⟨s, rfl, rfl, rfl⟩
    · simp only [statusIn, same]
    cases isRow : w.decisions.find? (runId, decisionIndex) with
    | some row =>
      rcases DecisionStmt.find?_exec_of_some (s := s) isRow with after | ⟨-, after⟩
      all_goals
        refine (congrArg (Option.map fun _ => decided) after).trans ?_
        simp only [statusIn, isRow, Option.map_some]
    | none =>
      -- a row that appears was inserted, and an insert writes
      have after : (s.exec w).2.find? (runId, decisionIndex) = none := by
        refine Option.eq_none_iff_forall_ne_some.mpr fun row isRow' => ?_
        obtain ⟨rfl, own⟩ := DecisionStmt.insert_of_find?_exec isRow isRow'
        obtain ⟨rfl, rfl⟩ := Prod.mk.inj own
        have accepted : ((DecisionStmt.insertDecision row).exec w).1 = .ok () := insertRow_accepted isRow isRow'
        exact unwritten decided (by simp only [Act.exec, Stmt.exec, accepted]; rfl)
      refine (congrArg (Option.map fun _ => decided) after).trans ?_
      rw [statusIn, isRow]
  | effect runId key =>
    rcases effects_cases answers with same | ⟨s, rfl, rfl, rfl⟩
    · simp only [statusIn, same]
    cases isRow : w.effects.find? (runId, key) with
    | some row =>
      have own : row.pk = (runId, key) := Sql.Table.key_of_find? isRow
      obtain ⟨rfl, rfl⟩ := Prod.mk.inj own
      have after := EffectStmt.find?_exec_of_some (s := s) isRow
      refine (congrArg (Option.map EffectRecord.status) after).trans ?_
      rw [Option.map_some, effect_of_unwritten unwritten, statusIn, isRow, Option.map_some]
    | none =>
      have after : (s.exec w).2.find? (runId, key) = none := by
        refine Option.eq_none_iff_forall_ne_some.mpr fun row isRow' => ?_
        obtain ⟨rfl, own⟩ := EffectStmt.insert_of_find?_exec isRow isRow'
        obtain ⟨rfl, rfl⟩ := Prod.mk.inj own
        have accepted : ((EffectStmt.insertEffect row).exec w).1 = .ok () := insertRow_accepted isRow isRow'
        exact unwritten row.status (by simp only [Act.exec, Stmt.exec, accepted]; rfl)
      refine (congrArg (Option.map EffectRecord.status) after).trans ?_
      rw [statusIn, isRow]
  | obligation runId seq =>
    rcases obligations_cases answers with same | ⟨s, rfl, rfl, rfl⟩
    · simp only [statusIn, same]
    cases isRow : w.obligations.find? (runId, seq) with
    | some row =>
      have own : row.pk = (runId, seq) := Sql.Table.key_of_find? isRow
      obtain ⟨rfl, rfl⟩ := Prod.mk.inj own
      have after := ObligationStmt.find?_exec_of_some (s := s) isRow
      refine (congrArg (Option.map ObligationRecord.status) after).trans ?_
      rw [Option.map_some, obligation_of_unwritten (Sql.Table.mem_of_find? isRow) unwritten, statusIn, isRow,
        Option.map_some]
    | none =>
      have after : (s.exec w).2.find? (runId, seq) = none := by
        refine Option.eq_none_iff_forall_ne_some.mpr fun row isRow' => ?_
        obtain ⟨rfl, own⟩ := ObligationStmt.insert_of_find?_exec isRow isRow'
        obtain ⟨rfl, rfl⟩ := Prod.mk.inj own
        have accepted : ((ObligationStmt.insertObligation row).exec w).1 = .ok () := insertRow_accepted isRow isRow'
        exact unwritten row.status (by simp only [Act.exec, Stmt.exec, accepted]; rfl)
      refine (congrArg (Option.map ObligationRecord.status) after).trans ?_
      rw [statusIn, isRow]

end Status

/-! ## The threads -/

/-- The methods that keep the ledger; a `complete_effect` names the outcome it was given. -/
def isLedgerCall : Call → Bool
  | .completeEffect _ _ status .. =>
    status = EffectStatus.confirmed.code || status = EffectStatus.failed.code || status = EffectStatus.unknown.code
  | .beginEffect .. | .reconcileEffect .. | .recordDecision .. | .registerCompensation .. | .claimObligation ..
  | .recordObligationAttempt .. | .resolveObligation .. => true
  | _ => false

abbrev ledgerContract (item : Item) : Nat → Call → Contract World Act Act.Res :=
  tape.tracked (fun tid _ h act => exclusive item tid h act) fun tid _ h act => Paired tid h.log act

/-- A method that has returned such a value owes no entry. -/
def settled {α : Type} (tid : Nat) (such : α → Bool) (result : Except StoreError α) (h : TapeHist) : Prop :=
  ∀ value, result = .ok value → such value → owed tid h.log = none

/-- A claim that has won has found its row. -/
def foundIfWon : Bool × Option ObligationRecord → Bool
  | (won, row) => !won || row.isSome

section Owed

variable {tid : Nat} {h h' : TapeHist} {event : TapeEvent} {log : List TapeEvent}

theorem owed_of_foreign (foreign : Foreign tid h h') : owed tid h'.log = owed tid h.log :=
  foreign.eq_of_ignores fun _ _ other => if_neg other

theorem owed_of_fresh (fresh : lastOwn tid log = none) : owed tid log = none := by
  induction log with
  | nil => rfl
  | cons event log inductionHypothesis =>
    rw [lastOwn, List.find?_eq_none] at fresh
    have other : event.tid ≠ tid := by simpa using fresh event List.mem_cons_self
    rw [owed, if_neg other]
    refine inductionHypothesis ?_
    rw [lastOwn, List.find?_eq_none]
    exact fun event member => fresh event (List.mem_cons_of_mem _ member)

theorem owed_cons_ne (other : event.tid ≠ tid) : owed tid (event :: log) = owed tid log := if_neg other

theorem owed_cons_written {change : Item × Int} (own : event.tid = tid) (isWritten : written event = some change) :
    owed tid (event :: log) = some change := by
  rw [owed, if_pos own, isWritten]

theorem unwritten_of_inserted {entry : EventEntry} (isInsert : inserted event = some entry) : written event = none := by
  unfold inserted at isInsert
  split at isInsert
  · rfl
  · cases isInsert

theorem owed_cons_inserted {entry : EventEntry} (own : event.tid = tid) (isInsert : inserted event = some entry) :
    owed tid (event :: log) = none := by
  rw [owed, if_pos own, unwritten_of_inserted isInsert]
  simp only [isInsert, Option.isSome_some, if_true]

theorem owed_cons_other (unwritten : written event = none) (uninserted : inserted event = none) :
    owed tid (event :: log) = owed tid log := by
  rw [owed, unwritten, uninserted]
  simp

theorem written_of_quiet (quiet : isQuiet event.op) : written event = none := by
  unfold written
  split
  case h_10 => rfl
  all_goals cases quiet

theorem inserted_of_quiet (quiet : isQuiet event.op) : inserted event = none := by
  unfold inserted
  split
  next => cases quiet
  next => rfl

theorem owed_cons_quiet (quiet : isQuiet event.op) : owed tid (event :: log) = owed tid log :=
  owed_cons_other (written_of_quiet quiet) (inserted_of_quiet quiet)

theorem paired_of_quiet {act : Act} (isQuiet : isQuiet act) : Paired tid log act := by
  unfold Paired
  split
  next => cases isQuiet
  next => exact fun noisy => absurd isQuiet (by simp [noisy])

end Owed

section Safety

variable {α β : Type} {item : Item} {tid : Nat} {call : Call} {h : TapeHist} {such : α → Bool}

theorem settled_error {e : StoreError} : settled tid such (.error e : Except StoreError α) h := fun _ isOk _ => by cases isOk

/-- A method may return while the thread owes nothing. -/
theorem safe_done {value : α} (free : owed tid h.log = none) :
    tape.Safe (ledgerContract item tid call) tid (settled tid such) (pure value : StoreM α).run h :=
  fun _ foreign _ _ _ => (owed_of_foreign foreign).trans free

/-- What neither writes a status nor journals leaves the debt as it is. -/
theorem safe_quiet {action : StoreM β} {f : β → StoreM α} (all : action.run.All fun act => isQuiet act)
    (rest : ∀ value h', owed tid h'.log = owed tid h.log →
      tape.Safe (ledgerContract item tid call) tid (settled tid such) (f value).run h') :
    tape.Safe (ledgerContract item tid call) tid (settled tid such) (action >>= f).run h := by
  have quiet : tape.Safe (ledgerContract item tid call) tid (fun _ h' => owed tid h'.log = owed tid h.log) action.run h := by
    refine System.Safe.of_all_knowing (fun h' => owed tid h'.log = owed tid h.log)
      (fun foreign same => (owed_of_foreign foreign).trans same) ?_ (fun _ _ same => same) all rfl
    intro h' act res state isQuiet permitted same answers
    exact ⟨⟨act, res, state, rfl, answers, permitted, paired_of_quiet isQuiet⟩, (owed_cons_quiet isQuiet).trans same⟩
  exact System.Safe.exceptBind (fun _ _ => settled_error) (quiet.mono fun _ _ same value _ => rest value _ same)

/-- What a statement that writes nothing reads. -/
theorem safe_read {s : Stmt} {f : s.Res → StoreM α} (isQuiet : isQuiet (.sql s))
    (rest : ∀ (value : s.Res) h', owed tid h'.log = owed tid h.log → ⟨tid, .sql s, Except.ok value⟩ ∈ h'.log →
      (∃ w, .ok value = (s.exec w).1) →
        tape.Safe (ledgerContract item tid call) tid (settled tid such) (f value).run h') :
    tape.Safe (ledgerContract item tid call) tid (settled tid such) (s.query >>= f).run h := by
  refine safe_query (fun _ _ => settled_error) fun h₁ res₁ state₁ foreign₁ permitted₁ answers₁ => ?_
  refine ⟨⟨_, res₁, state₁, rfl, answers₁, permitted₁, paired_of_quiet isQuiet⟩, fun value isOk => ?_⟩
  subst isOk
  refine rest value _ ?_ List.mem_cons_self ⟨_, (exec_of_ok answers₁).1⟩
  exact (owed_cons_quiet isQuiet).trans (owed_of_foreign foreign₁)

/-- After a write the thread owes the status it wrote. -/
theorem safe_write {s : Stmt} {f : s.Res → StoreM α}
    (pairs : ∀ log, owed tid log = none → (∀ item, updates (.sql s) = some item → ∃ event ∈ log, found event = some item) →
      Paired tid log (.sql s)) (noEntry : ∀ value : s.Res, inserted ⟨tid, .sql s, Except.ok value⟩ = none)
    (free : owed tid h.log = none)
    (there : ∀ item, updates (.sql s) = some item → ∃ event ∈ h.log, found event = some item)
    (rest : ∀ (value : s.Res) h', owed tid h'.log = written ⟨tid, .sql s, Except.ok value⟩ →
      tape.Safe (ledgerContract item tid call) tid (settled tid such) (f value).run h') :
    tape.Safe (ledgerContract item tid call) tid (settled tid such) (s.query >>= f).run h := by
  refine safe_query (fun _ _ => settled_error) fun h₁ res₁ state₁ foreign₁ permitted₁ answers₁ => ?_
  have free₁ := (owed_of_foreign foreign₁).trans free
  refine ⟨⟨_, res₁, state₁, rfl, answers₁, permitted₁, pairs _ free₁ fun item isUpdate => ?_⟩, fun value isOk => ?_⟩
  · obtain ⟨event, member, isFound⟩ := there item isUpdate
    exact ⟨event, foreign₁.mem member, isFound⟩
  · subst isOk
    refine rest value _ ?_
    cases isWritten : written ⟨tid, .sql s, .ok value⟩ with
    | some change => exact owed_cons_written rfl isWritten
    | none => exact (owed_cons_other isWritten (noEntry value)).trans free₁

/-- The entry that `journal_full` inserts. -/
def entry (runId : String) (seq : Int) (kind subject : String) (payload : Json) (ts globalSeq : Int) : EventEntry where
  runId := runId
  seq := seq
  kind := kind
  payload := payload
  tsMs := ts
  globalSeq := globalSeq
  subject := subject
  schemaVersion := 1
  traceId := ""
  spanId := ""
  parentSpanId := ""

/-- The entry that is owed settles the debt. -/
theorem safe_journal {runId kind : String} {seq ts : Int} {payload : Json}
    (records : ∀ subject globalSeq, recorded (entry runId seq kind subject payload ts globalSeq) = owed tid h.log) :
    tape.Safe (ledgerContract item tid call) tid (settled tid fun _ => true)
      (RunStore.journal runId seq kind payload ts).run h := by
  refine safe_query (fun _ _ => settled_error) fun h₁ res₁ state₁ foreign₁ permitted₁ answers₁ => ?_
  refine ⟨⟨_, res₁, state₁, rfl, answers₁, permitted₁, paired_of_quiet rfl⟩, fun globalSeq isOk => ?_⟩
  subst isOk
  have owes : owed tid (h₁.push tid (.journal .nextGlobalSeq) (.ok globalSeq) state₁).log = owed tid h.log :=
    (owed_cons_quiet rfl).trans (owed_of_foreign foreign₁)
  intro h₂ foreign₂ permitted₂ res₂ state₂ answers₂
  refine ⟨⟨_, res₂, state₂, rfl, answers₂, permitted₂, ?_, ?_⟩, fun h₃ foreign₃ value isOk _ => ?_⟩
  · exact (records _ globalSeq).trans (owes.symm.trans (owed_of_foreign foreign₂).symm)
  · have last : lastOwn tid h₂.log = some ⟨tid, .journal .nextGlobalSeq, .ok globalSeq⟩ :=
      foreign₂.lastOwn_eq.trans (lastOwn_push_self ..)
    exact congrArg (Option.bind · numberDrawn) last
  · subst isOk
    exact (owed_of_foreign foreign₃).trans (owed_cons_inserted rfl rfl)

theorem safe_entry {runId kind : String} {seq ts : Int} {payload : Json} {f : Unit → StoreM α}
    (records : ∀ subject globalSeq, recorded (entry runId seq kind subject payload ts globalSeq) = owed tid h.log)
    (rest : ∀ value h', owed tid h'.log = none →
      tape.Safe (ledgerContract item tid call) tid (settled tid such) (f value).run h') :
    tape.Safe (ledgerContract item tid call) tid (settled tid such) (RunStore.journal runId seq kind payload ts >>= f).run h :=
  System.Safe.exceptBind (fun _ _ => settled_error) 
    ((safe_journal records).mono fun _ h' settles value isOk => rest value h' (settles value isOk rfl))

theorem safe_final {program : StoreM α} (all : program.run.All fun act => isQuiet act) (free : owed tid h.log = none) :
    tape.Safe (ledgerContract item tid call) tid (settled tid such) program.run h := by
  refine System.Safe.of_all_knowing (fun h' => owed tid h'.log = none) (fun foreign free => (owed_of_foreign foreign).trans free)
    ?_ (fun _ _ free _ _ _ => free) all free
  intro h' act res state isQuiet permitted free answers
  exact ⟨⟨act, res, state, rfl, answers, permitted, paired_of_quiet isQuiet⟩, (owed_cons_quiet isQuiet).trans free⟩

theorem safe_nextSeq {runId : String} {f : Int → StoreM α}
    (rest : ∀ seq h', owed tid h'.log = owed tid h.log →
      tape.Safe (ledgerContract item tid call) tid (settled tid such) (f seq).run h') :
    tape.Safe (ledgerContract item tid call) tid (settled tid such) (RunStore.nextSeq runId >>= f).run h :=
  safe_quiet (.exceptBind (all_query rfl) fun _ => .exceptBind (all_query rfl) fun _ => trivial) rest

/-! ## The methods -/

theorem safe_recordDecision {runId model requestJson responseJson rationale policyVersion : String}
    {decisionIndex ts : Int} (free : owed tid h.log = none) :
    tape.Safe (ledgerContract item tid call) tid (settled tid fun _ => true)
      (RunStore.recordDecision runId decisionIndex model requestJson responseJson rationale policyVersion ts).run h := by
  refine safe_read rfl fun decision h₁ same₁ _ _ => ?_
  cases decision with
  | some recorded => exact safe_done (same₁.trans free)
  | none =>
    refine safe_nextSeq fun seq h₂ same₂ => ?_
    refine safe_write (fun _ free there _ => ⟨free, there⟩) (fun _ => rfl) (same₂.trans (same₁.trans free))
      (fun _ isUpdate => by cases isUpdate) fun _ h₃ owes => ?_
    exact safe_entry (fun _ _ => by rw [owes]; rfl) fun _ _ settles => safe_done settles

theorem safe_admitEffect {request : RunStore.EffectRequest} {ts : Int} (free : owed tid h.log = none) :
    tape.Safe (ledgerContract item tid call) tid (settled tid fun _ => true) (RunStore.admitEffect request ts).run h := by
  refine safe_read rfl fun row h₁ same₁ _ _ => ?_
  cases row with
  | some recorded => exact safe_done (same₁.trans free)
  | none =>
    have claimed : (RunStore.admitEffect.claimed request).run.All fun act => isQuiet act :=
      all_ite (all_query rfl) trivial
    refine safe_quiet claimed fun other h₂ same₂ => ?_
    cases other with
    | some other => exact safe_done (same₂.trans (same₁.trans free))
    | none =>
      refine safe_nextSeq fun seq h₃ same₃ => ?_
      refine safe_write (fun _ free there _ => ⟨free, there⟩) (fun _ => rfl)
        (same₃.trans (same₂.trans (same₁.trans free))) (fun _ isUpdate => by cases isUpdate) fun _ h₄ owes => ?_
      exact safe_entry (fun _ _ => by rw [owes]; rfl) fun _ _ settles => safe_done settles

theorem all_runScopesFor (server : Nat) (runId : String) :
    (RunStore.runScopesFor server runId).run.All fun act => isQuiet act := by
  refine .exceptBind (all_access rfl) fun cached => ?_
  cases cached with
  | some scopes => trivial
  | none => exact .exceptBind (all_query rfl) fun _ => .exceptBind (all_access rfl) fun _ => trivial

theorem safe_beginEffect {server : Nat} {request : RunStore.EffectRequest} {ts : Int} (free : owed tid h.log = none) :
    tape.Safe (ledgerContract item tid call) tid (settled tid fun _ => true) (RunStore.beginEffect server request ts).run h := by
  refine safe_ite (fun _ _ _ => settled_error) fun _ => safe_ite (fun _ _ _ => settled_error) fun _ =>
    safe_ite (fun _ _ _ => settled_error) fun _ => safe_ite (fun _ => safe_admitEffect free) fun _ => ?_
  refine safe_quiet (all_runScopesFor server request.runId) fun granted h₁ same₁ => ?_
  refine safe_ite (fun _ => safe_admitEffect (same₁.trans free)) fun _ => ?_
  refine safe_nextSeq fun seq h₂ same₂ => ?_
  -- an entry about the policy records no status
  have policy : owed tid h₂.log = none := same₂.trans (same₁.trans free)
  refine safe_orElse ((safe_journal fun _ _ => ?_).mono fun _ _ _ _ _ _ _ => settled_error)
  exact policy.symm

theorem status_of_isLedgerCall {runId key responseJson errorJson : String} {status ts : Int}
    (outcome : isLedgerCall (.completeEffect runId key status responseJson errorJson ts)) :
    status = EffectStatus.confirmed.code ∨ status = EffectStatus.failed.code ∨ status = EffectStatus.unknown.code := by
  simpa [isLedgerCall, or_assoc] using outcome

theorem safe_completeEffect {runId key responseJson errorJson : String} {status ts : Int}
    (outcome : isLedgerCall (.completeEffect runId key status responseJson errorJson ts)) (free : owed tid h.log = none) :
    tape.Safe (ledgerContract item tid call) tid (settled tid fun _ => true)
      (RunStore.completeEffect runId key status responseJson errorJson ts).run h := by
  refine safe_read rfl fun row h₁ same₁ isRead _ => ?_
  cases row with
  | none => exact safe_done (same₁.trans free)
  | some existing =>
    refine safe_ite (fun _ => safe_done (same₁.trans free)) fun _ => ?_
    refine safe_write (fun _ free there _ => ⟨free, there⟩) (fun _ => rfl) (same₁.trans free)
      (fun item isUpdate => ⟨_, isRead, isUpdate⟩) fun _ h₂ owes => ?_
    refine safe_nextSeq fun seq h₃ same₃ => safe_entry (fun _ _ => ?_) fun _ _ settles => safe_done settles
    rw [same₃, owes]
    rcases status_of_isLedgerCall outcome with rfl | rfl | rfl <;> rfl

theorem safe_reconcileEffect {runId key responseJson errorJson : String} {status ts : Int} (free : owed tid h.log = none) :
    tape.Safe (ledgerContract item tid call) tid (settled tid fun _ => true)
      (RunStore.reconcileEffect runId key status responseJson errorJson ts).run h := by
  refine safe_read rfl fun row h₁ same₁ isRead _ => ?_
  cases row with
  | none => exact safe_done (same₁.trans free)
  | some existing =>
    refine safe_ite (fun _ => safe_done (same₁.trans free)) fun _ => ?_
    refine safe_write (fun _ free there _ => ⟨free, there⟩) (fun _ => rfl) (same₁.trans free)
      (fun item isUpdate => ⟨_, isRead, isUpdate⟩) fun _ h₂ owes => ?_
    refine safe_nextSeq fun seq h₃ same₃ => safe_entry (fun _ _ => ?_) fun _ _ settles => safe_done settles
    rw [same₃, owes]
    rfl

theorem safe_registerCompensation {runId effectKey kind compensatorRef : String} {payload : Json} {maxAttempts ts : Int}
    (free : owed tid h.log = none) :
    tape.Safe (ledgerContract item tid call) tid (settled tid fun _ => true)
      (RunStore.registerCompensation runId effectKey kind payload compensatorRef maxAttempts ts).run h := by
  refine safe_read rfl fun row h₁ same₁ _ _ => ?_
  cases row with
  | some recorded => exact safe_done (same₁.trans free)
  | none =>
    refine safe_nextSeq fun seq h₂ same₂ => ?_
    refine safe_write (fun _ free there _ => ⟨free, there⟩) (fun _ => rfl) (same₂.trans (same₁.trans free))
      (fun _ isUpdate => by cases isUpdate) fun _ h₃ owes => ?_
    exact safe_entry (fun _ _ => by rw [owes]; rfl) fun _ _ settles => safe_done settles

/-- An obligation is read under its number. -/
theorem seq_of_getObligation {runId : String} {seq : Int} {row : ObligationRecord} {w : World}
    (answer : (.ok (some row) : Except StoreError (Option ObligationRecord)) =
      ((Stmt.obligation (.getObligation runId seq)).exec w).1) : row.seq = seq := by
  have isRow : some row = w.obligations.find? (runId, seq) := Except.ok.inj answer
  have own : row.pk = (runId, seq) := Sql.Table.key_of_find? isRow.symm
  exact (Prod.mk.inj own).2

theorem safe_claimObligation {runId claimer : String} {seq leaseTtlMs nowMs clock : Int} (free : owed tid h.log = none) :
    tape.Safe (ledgerContract item tid call) tid (settled tid foundIfWon)
      (RunStore.claimObligation runId seq claimer leaseTtlMs nowMs clock).run h := by
  refine safe_write (fun _ free there _ => ⟨free, there⟩) (fun _ => rfl) free (fun _ isUpdate => by cases isUpdate)
    fun (updated : Nat) h₁ owes => ?_
  refine safe_read rfl fun row h₂ same₂ _ answer => ?_
  refine safe_ite (fun claimed => ?_) fun lost => ?_
  · cases row with
    | none =>
      intro _ _ value isOk found
      cases isOk
      cases found
    | some row =>
      obtain ⟨_, answer⟩ := answer
      obtain rfl := seq_of_getObligation answer
      refine safe_nextSeq fun number h₃ same₃ => safe_entry (fun _ _ => ?_) fun _ _ settles => safe_done settles
      rw [same₃, same₂, owes]
      exact (if_pos claimed).symm
  · refine safe_done (same₂.trans (owes.trans ?_))
    exact if_neg lost

theorem safe_recordObligationAttempt {runId error : String} {seq nextAttemptAtMs ts : Int} (free : owed tid h.log = none) :
    tape.Safe (ledgerContract item tid call) tid (settled tid fun _ => true)
      (RunStore.recordObligationAttempt runId seq error nextAttemptAtMs ts).run h := by
  refine safe_read rfl fun row h₁ same₁ isRead answer => ?_
  cases row with
  | none => exact safe_done (same₁.trans free)
  | some existing =>
    obtain ⟨_, answer⟩ := answer
    obtain rfl := seq_of_getObligation answer
    refine safe_write (fun _ free there _ => ⟨free, there⟩) (fun _ => rfl) (same₁.trans free)
      (fun item isUpdate => ⟨_, isRead, isUpdate⟩) fun _ h₂ owes => ?_
    refine safe_nextSeq fun number h₃ same₃ => safe_entry (fun _ _ => ?_) fun _ _ settles => safe_final (all_query rfl) settles
    rw [same₃, owes]
    change _ = some (Item.obligation runId existing.seq,
      if _ then ObligationStatus.stuck.code else ObligationStatus.pending.code)
    generalize (decide (nextAttemptAtMs ≤ 0) || decide (existing.maxAttempts ≤ existing.attempts + 1)) = terminal
    cases terminal <;> rfl

theorem safe_resolveObligation {runId resultJson : String} {seq status ts : Int} (free : owed tid h.log = none) :
    tape.Safe (ledgerContract item tid call) tid (settled tid fun _ => true)
      (RunStore.resolveObligation runId seq status resultJson ts).run h := by
  refine safe_read rfl fun row h₁ same₁ isRead answer => ?_
  cases row with
  | none => exact safe_done (same₁.trans free)
  | some existing =>
    obtain ⟨_, answer⟩ := answer
    obtain rfl := seq_of_getObligation answer
    refine safe_write (fun _ free there _ => ⟨free, there⟩) (fun _ => rfl) (same₁.trans free)
      (fun item isUpdate => ⟨_, isRead, isUpdate⟩) fun _ h₂ owes => ?_
    refine safe_nextSeq fun number h₃ same₃ => safe_entry (fun _ _ => ?_) fun _ _ settles => safe_final (all_query rfl) settles
    rw [same₃, owes]
    change _ = some (Item.obligation runId existing.seq, if _ then status else ObligationStatus.compensated.code)
    split
    next terminal =>
      simp only [Bool.or_eq_true, decide_eq_true_eq] at terminal
      rcases terminal with rfl | rfl <;> rfl
    next => rfl

end Safety

/-- The method has returned, and what it returned is no error. -/
def succeeded : (call : Call) → call.Out → Bool
  | .beginEffect .., .ok _ | .completeEffect .., .ok _ | .reconcileEffect .., .ok _ | .recordDecision .., .ok _
  | .registerCompensation .., .ok _ | .recordObligationAttempt .., .ok _ | .resolveObligation .., .ok _ => true
  | .claimObligation .., .ok claim => foundIfWon claim
  | _, _ => false

theorem safe_succeeds {α : Type} {item : Item} {tid : Nat} {call : Call} {h : TapeHist} {such : α → Bool}
    {succeeds : Except StoreError α → Bool} {program : StoreM α} (ok : ∀ value, succeeds (.ok value) → such value)
    (error : ∀ e, succeeds (.error e) = false) (safe : tape.Safe (ledgerContract item tid call) tid (settled tid such)
      program.run h) :
    tape.Safe (ledgerContract item tid call) tid (fun result h => succeeds result → owed tid h.log = none) program.run h := by
  refine safe.mono fun result h settles isOk => ?_
  cases result with
  | ok value => exact settles value rfl (ok value isOk)
  | error e =>
    rw [error] at isOk
    cases isOk

/-- A method of the ledger that has succeeded owes no entry. -/
theorem ledger_compose (item : Item) : System.Compose tape (fun call => isLedgerCall call) (ledgerContract item)
    fun tid call result h => succeeded call result → owed tid h.log = none := by
  refine System.tracked_compose fun {tid call h} admitted fresh => ?_
  have free := owed_of_fresh fresh
  cases call with
  | beginEffect => exact safe_succeeds (fun _ _ => rfl) (fun _ => rfl) (safe_beginEffect free)
  | completeEffect => exact safe_succeeds (fun _ _ => rfl) (fun _ => rfl) (safe_completeEffect admitted free)
  | reconcileEffect => exact safe_succeeds (fun _ _ => rfl) (fun _ => rfl) (safe_reconcileEffect free)
  | recordDecision => exact safe_succeeds (fun _ _ => rfl) (fun _ => rfl) (safe_recordDecision free)
  | registerCompensation => exact safe_succeeds (fun _ _ => rfl) (fun _ => rfl) (safe_registerCompensation free)
  | claimObligation => exact safe_succeeds (fun _ => id) (fun _ => rfl) (safe_claimObligation free)
  | recordObligationAttempt => exact safe_succeeds (fun _ _ => rfl) (fun _ => rfl) (safe_recordObligationAttempt free)
  | resolveObligation => exact safe_succeeds (fun _ _ => rfl) (fun _ => rfl) (safe_resolveObligation free)
  | _ => cases admitted

/-! ## The invariant -/

section Step

variable {item : Item} {tid : Nat} {h : TapeHist} {act : Act} {res : act.Res} {state : World}

variable (tid) in
/-- The journal grows by the entry that was inserted. -/
theorem journal_after (answers : tape.Answers act h.state res state) :
    state.journal.rows = h.state.journal.rows ++ (inserted ⟨tid, act, res⟩).toList := by
  cases answers with
  | fault failed =>
    have uninserted : inserted ⟨tid, act, res⟩ = none := by
      unfold inserted
      split
      next same =>
        cases same
        cases failed
      next => rfl
    rw [uninserted, Option.toList_none, List.append_nil]
  | exec =>
    rcases act with (s | s | s | s | s | s | s | s | s | s | s) | _ | _
    case sql.journal =>
      cases s with
      | insertEntry entry =>
        change (insertRow "tape_journal" h.state.journal (fun old => old.globalSeq = entry.globalSeq) entry).2.rows =
          h.state.journal.rows ++ (inserted ⟨tid, .journal (.insertEntry entry),
            (insertRow "tape_journal" h.state.journal (fun old => old.globalSeq = entry.globalSeq) entry).1⟩).toList
        unfold insertRow
        split
        next accepted => exact Sql.Table.rows_insert accepted
        next => exact (List.append_nil _).symm
      | _ => exact (List.append_nil _).symm
    all_goals exact (List.append_nil _).symm

variable (tid) in
/-- A number that is drawn is the counter's new value. -/
theorem counter_after (answers : tape.Answers act h.state res state) :
    h.state.globalSeq ≤ state.globalSeq ∧ ∀ number, numberDrawn ⟨tid, act, res⟩ = some number →
      number = state.globalSeq ∧ h.state.globalSeq < number := by
  constructor
  · cases answers with
    | fault _ => exact le_refl _
    | exec =>
      rcases act with (s | s | s | s | s | s | s | s | s | s | s) | _ | _
      case sql.journal =>
        cases s with
        | nextGlobalSeq => exact (Int.lt_succ _).le
        | _ => exact le_refl _
      all_goals exact le_refl _
  · intro number isDrawn
    unfold numberDrawn at isDrawn
    split at isDrawn
    next same =>
      cases same
      cases isDrawn
      obtain ⟨executed, rfl⟩ := exec_of_ok answers
      obtain rfl := Except.ok.inj executed
      exact ⟨rfl, Int.lt_succ _⟩
    next => cases isDrawn

theorem drawn_push_self : drawn tid (h.push tid act res state).log = numberDrawn ⟨tid, act, res⟩ := by
  rw [drawn, lastOwn_push_self, Option.bind_some]

theorem drawn_push_ne {other : Nat} (ne : other ≠ tid) : drawn other (h.push tid act res state).log = drawn other h.log := by
  rw [drawn, lastOwn_push_ne h act res state ne, drawn]

/-- A row that was found is there. -/
theorem there_of_found (answers : tape.Answers act h.state res state) (isFound : found ⟨tid, act, res⟩ = some item) :
    (statusIn h.state item).isSome := by
  unfold found at isFound
  split at isFound
  next _ runId key row same =>
    cases same
    obtain ⟨executed, -⟩ := exec_of_ok answers
    obtain ⟨record, isRow, isItem⟩ := Option.bind_eq_some_iff.mp isFound
    cases isItem
    have isRecord : h.state.effects.find? (runId, key) = some record := (Except.ok.inj executed).symm.trans isRow
    simp only [statusIn, isRecord, Option.map_some, Option.isSome_some]
  next _ runId seq row same =>
    cases same
    obtain ⟨executed, -⟩ := exec_of_ok answers
    obtain ⟨record, isRow, isItem⟩ := Option.bind_eq_some_iff.mp isFound
    cases isItem
    have isRecord : h.state.obligations.find? (runId, seq) = some record := (Except.ok.inj executed).symm.trans isRow
    simp only [statusIn, isRecord, Option.map_some, Option.isSome_some]
  next => cases isFound

/-- What a thread owes it has written. -/
theorem own_of_owed {log : List TapeEvent} {change : Item × Int} (owes : owed tid log = some change) :
    ∃ event ∈ log, event.tid = tid ∧ written event = some change := by
  induction log with
  | nil => cases owes
  | cons event log inductionHypothesis =>
    have older (owes : owed tid log = some change) : ∃ event' ∈ event :: log, event'.tid = tid ∧
      written event' = some change := by
      obtain ⟨earlier, member, own⟩ := inductionHypothesis owes
      exact ⟨earlier, List.mem_cons_of_mem _ member, own⟩
    by_cases own : event.tid = tid
    · cases isWritten : written event with
      | some wrote =>
        rw [owed_cons_written own isWritten] at owes
        exact ⟨event, List.mem_cons_self, own, isWritten.trans owes⟩
      | none =>
        cases isInsert : inserted event with
        | some entry =>
          rw [owed_cons_inserted own isInsert] at owes
          cases owes
        | none =>
          rw [owed_cons_other isWritten isInsert] at owes
          exact older owes
    · rw [owed_cons_ne own] at owes
      exact older owes

theorem unwritten_of_fault (failed : act.fault = some res) : written ⟨tid, act, res⟩ = none := by
  cases act with
  | sql s =>
    obtain rfl := Option.some.inj failed
    unfold written
    split
    case h_10 => rfl
    all_goals
      next same => cases same
  | cache c => cases failed
  | outside x => cases failed

theorem paired_of_written {change : Item × Int} (paired : Paired tid h.log act)
    (isWritten : written ⟨tid, act, res⟩ = some change) :
    owed tid h.log = none ∧ ∀ item, updates act = some item → ∃ event ∈ h.log, found event = some item := by
  unfold Paired at paired
  split at paired
  next => cases isWritten
  next =>
    refine paired ?_
    by_contra quiet
    rw [written_of_quiet (by simpa using quiet)] at isWritten
    cases isWritten

theorem paired_of_inserted {entry : EventEntry} (paired : Paired tid h.log act)
    (isInsert : inserted ⟨tid, act, res⟩ = some entry) :
    recorded entry = owed tid h.log ∧ drawn tid h.log = some entry.globalSeq := by
  unfold inserted at isInsert
  split at isInsert
  next same =>
    cases same
    cases isInsert
    exact paired
  next => cases isInsert

/-- A status was written when no other thread owed an entry for the item. -/
theorem alone_of_exclusive {status : Int} (answers : tape.Answers act h.state res state)
    (isExclusive : exclusive item tid h act) (isWritten : written ⟨tid, act, res⟩ = some (item, status)) {other : Nat}
    {owing : Int} (owes : owed other h.log = some (item, owing)) : other = tid := by
  have executed : res = (act.exec h.state).1 := by
    rcases answers_cases answers with ⟨executed, -⟩ | ⟨failed, -⟩
    · exact executed
    · rw [unwritten_of_fault failed] at isWritten
      cases isWritten
  rw [exclusive, ← executed, isWritten] at isExclusive
  obtain ⟨event, member, rfl, -⟩ := own_of_owed owes
  simp only [ne_eq, not_true_eq_false, decide_false, Bool.false_or, List.all_eq_true, Bool.or_eq_true,
    decide_eq_true_eq] at isExclusive
  exact (isExclusive event member).resolve_right (by simp [owes])

end Step

/-- The item's status is in the journal, or owed: the fold is the projection unless a thread owes an entry, and
    then the projection has what it owes, and the entry comes after every other about the item. -/
structure Complete (item : Item) (h : TapeHist) : Prop where
  there : ∀ event ∈ h.log, found event = some item → (statusIn h.state item).isSome
  counted : ∀ entry ∈ h.state.journal.rows, entry.globalSeq ≤ h.state.globalSeq
  drawn : ∀ tid number, drawn tid h.log = some number → number ≤ h.state.globalSeq
  alone : ∀ tid other status status', owed tid h.log = some (item, status) → owed other h.log = some (item, status') →
    other = tid
  owing : ∀ tid status, owed tid h.log = some (item, status) → statusIn h.state item = some status
  ahead : ∀ tid status number, owed tid h.log = some (item, status) → Journal.drawn tid h.log = some number →
    ∀ entry ∈ h.state.journal.rows, isAbout item entry → entry.globalSeq < number
  settled : (∀ tid status, owed tid h.log ≠ some (item, status)) →
    foldJournal h.state.journal.rows item = statusIn h.state item
  journaled : ∀ event ∈ h.log, ∀ status, written event = some (item, status) →
    owed event.tid h.log = some (item, status) ∨ ∃ entry ∈ h.state.journal.rows, recorded entry = some (item, status) ∧
      ∃ later ∈ h.log, later.tid = event.tid ∧ inserted later = some entry

section Push

variable {item : Item} {tid : Nat} {h : TapeHist} {act : Act} {res : act.Res} {state : World}

/-- Numbers are drawn from the counter. -/
theorem Complete.drawn_push (complete : Complete item h) (answers : tape.Answers act h.state res state) {other : Nat}
    {number : Int} (isDrawn : Journal.drawn other (h.push tid act res state).log = some number) :
    number ≤ state.globalSeq := by
  obtain ⟨grows, draws⟩ := counter_after tid answers
  by_cases own : other = tid
  · subst own
    rw [drawn_push_self] at isDrawn
    exact (draws number isDrawn).1.le
  · rw [drawn_push_ne own] at isDrawn
    exact (complete.drawn other number isDrawn).trans grows

theorem Complete.there_push (complete : Complete item h) (answers : tape.Answers act h.state res state)
    (still : (statusIn h.state item).isSome → (statusIn state item).isSome) :
    ∀ event ∈ (h.push tid act res state).log, found event = some item → (statusIn state item).isSome := by
  intro event member isFound
  rcases List.mem_cons.mp member with rfl | member
  · exact still (there_of_found answers isFound)
  · exact still (complete.there event member isFound)

/-- A write that was journaled stays so. -/
theorem journaled_push {event : TapeEvent} {status : Int} (rows : h.state.journal.rows ⊆ state.journal.rows)
    (done : ∃ entry ∈ h.state.journal.rows, recorded entry = some (item, status) ∧
      ∃ later ∈ h.log, later.tid = event.tid ∧ inserted later = some entry) :
    ∃ entry ∈ state.journal.rows, recorded entry = some (item, status) ∧
      ∃ later ∈ (h.push tid act res state).log, later.tid = event.tid ∧ inserted later = some entry := by
  obtain ⟨entry, listed, isRecord, later, known, both⟩ := done
  exact ⟨entry, rows listed, isRecord, later, List.mem_cons_of_mem _ known, both⟩

theorem uninserted_of_written {event : TapeEvent} {change : Item × Int} (isWritten : written event = some change) :
    inserted event = none := by
  unfold inserted
  split
  · cases isWritten
  · rfl

theorem undrawn_of_written {event : TapeEvent} {change : Item × Int} (isWritten : written event = some change) :
    numberDrawn event = none := by
  unfold numberDrawn
  split
  · cases isWritten
  · rfl

/-- An event that changes neither the item's status nor a debt for it, nor inserts an entry about it. -/
theorem Complete.push_other (complete : Complete item h) (answers : tape.Answers act h.state res state)
    (unwritten : ∀ status, written ⟨tid, act, res⟩ ≠ some (item, status))
    (frame : ∀ other status, owed other (h.push tid act res state).log = some (item, status) ↔
      owed other h.log = some (item, status))
    (apart : ∀ entry, inserted ⟨tid, act, res⟩ = some entry →
      isAbout item entry = false ∧ entry.globalSeq ≤ h.state.globalSeq) : Complete item (h.push tid act res state) := by
  have status : statusIn state item = statusIn h.state item := status_of_unwritten tid answers unwritten
  have rows := journal_after tid answers
  obtain ⟨grows, draws⟩ := counter_after tid answers
  constructor
  · exact complete.there_push answers fun there => status ▸ there
  · intro entry member
    rw [Hist.push_state, rows] at member
    rcases List.mem_append.mp member with member | new
    · exact (complete.counted entry member).trans grows
    · exact (apart entry (Option.mem_toList.mp new)).2.trans grows
  · exact fun _ _ isDrawn => complete.drawn_push answers isDrawn
  · simp only [frame]
    exact complete.alone
  · simp only [frame, Hist.push_state, status]
    exact complete.owing
  · intro other status' number isOwed isDrawn entry member about
    rw [Hist.push_state, rows] at member
    -- an entry that is already there is below what the thread drew since
    rcases List.mem_append.mp member with listed | new
    · by_cases own : other = tid
      · subst own
        rw [drawn_push_self] at isDrawn
        exact (complete.counted entry listed).trans_lt (draws number isDrawn).2
      · rw [drawn_push_ne own] at isDrawn
        exact complete.ahead other status' number ((frame ..).mp isOwed) isDrawn entry listed about
    · rw [(apart entry (Option.mem_toList.mp new)).1] at about
      cases about
  · intro settled
    rw [Hist.push_state, rows, status, ← complete.settled fun other status' isOwed =>
      settled other status' ((frame ..).mpr isOwed)]
    -- entries about other items do not change the fold
    cases isInsert : inserted ⟨tid, act, res⟩ with
    | none => rw [Option.toList_none, List.append_nil]
    | some entry => exact foldJournal_append_other (apart entry isInsert).1
  · intro event member status' isWritten
    rcases List.mem_cons.mp member with rfl | member
    · exact absurd isWritten (unwritten status')
    · rw [frame]
      refine (complete.journaled event member status' isWritten).imp_right (journaled_push fun entry listed => ?_)
      rw [Hist.push_state, rows]
      exact List.mem_append_left _ listed

/-- A write of the item's status makes the thread owe the entry for it. -/
theorem Complete.push_written (complete : Complete item h) (answers : tape.Answers act h.state res state)
    (isExclusive : exclusive item tid h act) (paired : Paired tid h.log act) {status : Int}
    (isWritten : written ⟨tid, act, res⟩ = some (item, status)) : Complete item (h.push tid act res state) := by
  obtain ⟨free, there⟩ := paired_of_written paired isWritten
  have owes : owed tid (h.push tid act res state).log = some (item, status) := owed_cons_written rfl isWritten
  have onlyOwn : ∀ other status', owed other (h.push tid act res state).log = some (item, status') → other = tid := by
    intro other status' isOwed
    by_contra ne
    rw [Hist.push_log, owed_cons_ne (Ne.symm ne)] at isOwed
    exact ne (alone_of_exclusive answers isExclusive isWritten isOwed)
  have writes : statusIn state item = some status := by
    refine status_of_written answers (fun isUpdate => ?_) isWritten
    obtain ⟨event, member, isFound⟩ := there item isUpdate
    exact complete.there event member isFound
  have rows : state.journal.rows = h.state.journal.rows := by
    rw [journal_after tid answers, uninserted_of_written isWritten, Option.toList_none, List.append_nil]
  constructor
  · exact complete.there_push answers fun _ => by rw [writes]; rfl
  · intro entry member
    rw [Hist.push_state, rows] at member
    exact (complete.counted entry member).trans (counter_after tid answers).1
  · exact fun _ _ isDrawn => complete.drawn_push answers isDrawn
  · intro first second _ _ firstOwes secondOwes
    rw [onlyOwn first _ firstOwes, onlyOwn second _ secondOwes]
  · intro other status' isOwed
    obtain rfl := onlyOwn other status' isOwed
    exact writes.trans (congrArg (Option.map Prod.snd) (owes.symm.trans isOwed))
  · intro other status' number isOwed isDrawn
    obtain rfl := onlyOwn other status' isOwed
    rw [drawn_push_self, undrawn_of_written isWritten] at isDrawn
    cases isDrawn
  · exact fun settled => absurd owes (settled tid status)
  · intro event member status' isWrite
    rcases List.mem_cons.mp member with rfl | member
    · rw [isWritten] at isWrite
      exact .inl (owes.trans isWrite)
    · rcases complete.journaled event member status' isWrite with isOwed | done
      · -- the thread that owed the entry is the one that writes, and it owes none before
        have own := alone_of_exclusive answers isExclusive isWritten isOwed
        rw [own, free] at isOwed
        cases isOwed
      · exact .inr (journaled_push (fun _ listed => rows ▸ listed) done)

/-- The entry that was owed brings the journal up to date. -/
theorem Complete.push_inserted (complete : Complete item h) (answers : tape.Answers act h.state res state)
    (paired : Paired tid h.log act) {entry : EventEntry} {status : Int}
    (isInsert : inserted ⟨tid, act, res⟩ = some entry) (isRecord : recorded entry = some (item, status)) :
    Complete item (h.push tid act res state) := by
  obtain ⟨isEntry, isDrawn⟩ := paired_of_inserted paired isInsert
  have isOwed := isEntry.symm.trans isRecord
  have unwritten := unwritten_of_inserted isInsert
  have nobody : ∀ other status', owed other (h.push tid act res state).log ≠ some (item, status') := by
    intro other status' owes
    by_cases own : other = tid
    · rw [own, Hist.push_log, owed_cons_inserted rfl isInsert] at owes
      cases owes
    · rw [Hist.push_log, owed_cons_ne (Ne.symm own)] at owes
      exact own (complete.alone tid other _ _ isOwed owes)
  have status_eq : statusIn state item = statusIn h.state item :=
    status_of_unwritten tid answers fun _ isWritten => by rw [unwritten] at isWritten; cases isWritten
  have rows : state.journal.rows = h.state.journal.rows ++ [entry] := by
    rw [journal_after tid answers, isInsert, Option.toList_some]
  constructor
  · exact complete.there_push answers fun there => status_eq ▸ there
  · intro other member
    refine le_trans ?_ (counter_after tid answers).1
    rw [Hist.push_state, rows] at member
    rcases List.mem_append.mp member with listed | new
    · exact complete.counted other listed
    · rw [List.mem_singleton.mp new]
      exact complete.drawn tid _ isDrawn
  · exact fun _ _ isDrawn => complete.drawn_push answers isDrawn
  · exact fun _ _ _ _ owes => absurd owes (nobody _ _)
  · exact fun _ _ owes => absurd owes (nobody _ _)
  · exact fun _ _ _ owes => absurd owes (nobody _ _)
  · intro _
    rw [Hist.push_state, rows, status_eq, complete.owing tid status isOwed]
    exact foldJournal_append_last isRecord (complete.ahead tid status _ isOwed isDrawn)
  · intro event member status' isWritten
    rcases List.mem_cons.mp member with rfl | member
    · rw [unwritten] at isWritten
      cases isWritten
    · right
      rcases complete.journaled event member status' isWritten with owes | done
      · -- the debt of this write is the one that is settled
        obtain own := complete.alone tid event.tid _ _ isOwed owes
        rw [own, isOwed] at owes
        cases owes
        exact ⟨entry, by simp [rows], isRecord, _, List.mem_cons_self, own.symm, isInsert⟩
      · refine journaled_push (fun _ listed => ?_) done
        rw [Hist.push_state, rows]
        exact List.mem_append_left _ listed

theorem Complete.push (complete : Complete item h) (answers : tape.Answers act h.state res state)
    (isExclusive : exclusive item tid h act) (paired : Paired tid h.log act) :
    Complete item (h.push tid act res state) := by
  cases isWritten : written ⟨tid, act, res⟩ with
  | some change =>
    obtain ⟨changed, status⟩ := change
    by_cases same : changed = item
    · subst same
      exact complete.push_written answers isExclusive paired isWritten
    · -- a write of another item: the thread owes an entry for that one now
      obtain ⟨free, -⟩ := paired_of_written paired isWritten
      refine complete.push_other answers (fun _ isItem => ?_) (fun other _ => ?_) fun entry isInsert => ?_
      · rw [isWritten, Option.some.injEq] at isItem
        exact same (congrArg Prod.fst isItem)
      · by_cases own : other = tid
        · rw [own, free, Hist.push_log, owed_cons_written rfl isWritten]
          simp [same]
        · rw [Hist.push_log, owed_cons_ne (Ne.symm own)]
      · rw [uninserted_of_written isWritten] at isInsert
        cases isInsert
  | none =>
    cases isInsert : inserted ⟨tid, act, res⟩ with
    | none =>
      refine complete.push_other answers (fun _ isItem => ?_) (fun _ _ => ?_) fun _ isEntry => ?_
      · rw [isWritten] at isItem
        cases isItem
      · rw [Hist.push_log, owed_cons_other isWritten isInsert]
      · rw [isInsert] at isEntry
        cases isEntry
    | some entry =>
      -- an entry is inserted by the thread that owes it, under the number it drew
      obtain ⟨isEntry, isDrawn⟩ := paired_of_inserted paired isInsert
      cases about : isAbout item entry with
      | true =>
        obtain ⟨⟨_, status⟩, isRecord, rfl⟩ := Option.map_eq_some_iff.mp (of_decide_eq_true about)
        exact complete.push_inserted answers paired isInsert isRecord
      | false =>
        refine complete.push_other answers (fun _ isItem => ?_) (fun other status => ?_) fun _ isEntry' => ?_
        · rw [isWritten] at isItem
          cases isItem
        · by_cases own : other = tid
          · rw [own, ← isEntry, Hist.push_log, owed_cons_inserted rfl isInsert]
            refine iff_of_false (by simp) fun isRecord => ?_
            simp [isAbout, isRecord] at about
          · rw [Hist.push_log, owed_cons_ne (Ne.symm own)]
        · rw [isInsert] at isEntry'
          cases isEntry'
          exact ⟨about, complete.drawn tid _ isDrawn⟩

end Push

/-! ## Completeness -/

/-- The thread of the event has returned, and no error. -/
def returned (c : TapeConfig) (event : TapeEvent) : Prop :=
  ∃ call result, c.pool[event.tid]? = some ⟨call, .ret result⟩ ∧ succeeded call result

/-- **The journal is complete.**  Along every interleaving of the ledger's methods, from any database in which
    the fold of the journal gives the item's status and the counter has reached every entry: if the status is
    only written while no other call owes the journal an entry for it, then every write of the status was
    journaled by the same call, or is owed still; and where no call owes an entry for the item, the fold of the
    journal gives its status.  No call that has succeeded owes one: the fold gives the status where every call
    that has written it has neither failed nor stopped. -/
theorem journal_complete (item : Item) (w : World) (agrees : foldJournal w.journal.rows item = statusIn w item)
    (counted : ∀ entry ∈ w.journal.rows, entry.globalSeq ≤ w.globalSeq) (choices : List (Choice Call))
    (isExclusive : tape.Along (System.Permits (fun call => isLedgerCall call)
      fun tid _ h act => exclusive item tid h act) (quiet w) choices) :
    let c := tape.run (quiet w) choices
    (∀ event ∈ c.log, ∀ status, written event = some (item, status) →
        owed event.tid c.log = some (item, status) ∨ ∃ entry ∈ c.state.journal.rows,
          recorded entry = some (item, status) ∧ ∃ later ∈ c.log, later.tid = event.tid ∧ inserted later = some entry) ∧
      ((∀ tid status, owed tid c.log ≠ some (item, status)) →
        foldJournal c.state.journal.rows item = statusIn c.state item) ∧
      (∀ event, returned c event → owed event.tid c.log = none) ∧
      ((∀ event ∈ c.log, ∀ status, written event = some (item, status) → returned c event) →
        foldJournal c.state.journal.rows item = statusIn c.state item) := by
  intro c
  -- the invariant holds of the whole run
  have complete : Complete item c.toHist := by
    refine System.run_tracked (I := fun h => Complete item h) (ledger_compose item) ?_ (quiet_owned w)
      (System.poolSafe_of_empty rfl) ?_ isExclusive
    · exact fun tid call h act res state _ answers isExclusive paired complete =>
        complete.push answers isExclusive paired
    · constructor
      · exact fun _ member => by cases member
      · exact counted
      · exact fun _ _ isDrawn => by cases isDrawn
      · exact fun _ _ _ _ owes => by cases owes
      · exact fun _ _ owes => by cases owes
      · exact fun _ _ _ owes => by cases owes
      · exact fun _ => agrees
      · exact fun _ member => by cases member
  have safe := System.run_safe (ledger_compose item) (quiet_owned w) (System.poolSafe_of_empty rfl) isExclusive
  -- a call that has returned has paid
  have free : ∀ event, returned c event → owed event.tid c.log = none := by
    rintro event ⟨call, result, done, isOk⟩
    exact safe.returned done isOk
  refine ⟨complete.journaled, complete.settled, free, fun all => complete.settled fun tid status owes => ?_⟩
  obtain ⟨event, member, rfl, isWritten⟩ := own_of_owed owes
  rw [free event (all event member status isWritten)] at owes
  cases owes

/-! ## Torn writes -/

/-- A database with one run, right after it has begun. -/
def begunWorld : World :=
  (tape.run (quiet (World.empty .sqlite)) (serve 0 (.beginRun 0 "app" "user" "s" "i" {} "A" 60000 1 "r"))).state

def beginWire : Call := .beginEffect 0 { runId := "r", toolName := "send_wire", customKey := "wire" } 10

def completeWire : Call := .completeEffect "r" "wire" EffectStatus.confirmed.code "sent" "" 20

def wire : Item := .effect "r" "wire"

def afterWire (choices : List (Choice Call)) : TapeConfig := tape.run (quiet begunWorld) choices

/-- Thread `tid` has returned a record. -/
def returnedRecord (c : TapeConfig) (tid : Nat) : Bool :=
  match c.pool[tid]? with
  | some ⟨.beginEffect .., .ret (.ok _)⟩ => true
  | some ⟨.completeEffect .., .ret (.ok (some _))⟩ => true
  | _ => false

/-- The number for the entry cannot be drawn after the effect was inserted, and the call is tried again. -/
def tornBegin : List (Choice Call) :=
  [.spawn beginWire, .exec 0, .exec 0, .exec 0, .exec 0, .fault 0] ++ serve 1 beginWire

/-- The process stops after the outcome was set, and the call is tried again. -/
def tornComplete : List (Choice Call) :=
  serve 0 beginWire ++ [.spawn completeWire, .exec 1, .exec 1] ++ serve 2 completeWire

/-- Both retries succeed; one effect has no entry, and the other is pending in the journal. -/
theorem torn_writes_not_journaled :
    (returnedRecord (afterWire tornBegin) 1 ∧ statusIn (afterWire tornBegin).state wire = some EffectStatus.pending.code ∧
        foldJournal (afterWire tornBegin).state.journal.rows wire = none) ∧
      returnedRecord (afterWire tornComplete) 2 ∧
        statusIn (afterWire tornComplete).state wire = some EffectStatus.confirmed.code ∧
        foldJournal (afterWire tornComplete).state.journal.rows wire = some EffectStatus.pending.code := by
  refine ⟨⟨?_, ?_, ?_⟩, ?_, ?_, ?_⟩ <;> decide +kernel

/-- The outcome cannot be set at first, and the call is tried again. -/
def retriedComplete : List (Choice Call) :=
  serve 0 beginWire ++ [.spawn completeWire, .exec 1, .fault 1] ++ serve 2 completeWire

theorem retried_complete_journaled :
    foldJournal (afterWire retriedComplete).state.journal.rows wire = some EffectStatus.confirmed.code := by
  have free : ∀ event ∈ (afterWire retriedComplete).log, owed event.tid (afterWire retriedComplete).log = none := by
    decide +kernel
  have confirmed : statusIn (afterWire retriedComplete).state wire = some EffectStatus.confirmed.code := by decide +kernel
  unfold afterWire at free confirmed ⊢
  obtain ⟨-, settled, -⟩ := journal_complete wire begunWorld (by decide +kernel) (by decide +kernel) retriedComplete
    (by decide +kernel)
  rw [settled, confirmed]
  intro tid status owes
  obtain ⟨event, member, rfl, -⟩ := own_of_owed owes
  rw [free event member] at owes
  cases owes

end Tape.Journal
