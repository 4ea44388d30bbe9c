import Mathlib.Data.List.Induction
import Tape.System

/-! # Folding the journal

The statuses that the projections `tape_decisions`, `tape_effects` and
`tape_obligations` hold, and the statuses that the entries of the journal record.
The journal is folded in the order of its global numbers.
-/

namespace Tape.Journal

/-- What the ledger keeps a status of. -/
inductive Item where
  | decision (runId : String) (decisionIndex : Int)
  | effect (runId key : String)
  | obligation (runId : String) (seq : Int)
  deriving DecidableEq, Repr

/-- A decision has no status; it is there or not. -/
def decided : Int := 0

/-- The status in the projection. -/
def statusIn (w : World) : Item → Option Int
  | .decision runId decisionIndex => (w.decisions.find? (runId, decisionIndex)).map fun _ => decided
  | .effect runId key => (w.effects.find? (runId, key)).map EffectRecord.status
  | .obligation runId seq => (w.obligations.find? (runId, seq)).map ObligationRecord.status

/-! ## What an entry records -/

/-- The status that the payload of an `effect` entry names. -/
def effectStatus (payload : Json) : Option Int :=
  match payload.strAt "status" with
  | "pending" => some EffectStatus.pending.code
  | "confirmed" => some EffectStatus.confirmed.code
  | "failed" => some EffectStatus.failed.code
  | "unknown" => some EffectStatus.unknown.code
  | "reconciled" => some (payload.intAt "resolved_to")
  | _ => none

def obligationStatus (payload : Json) : Option Int :=
  match payload.strAt "status" with
  | "pending" => some ObligationStatus.pending.code
  | "committed" => some ObligationStatus.committed.code
  | "compensated" => some ObligationStatus.compensated.code
  | "stuck" => some ObligationStatus.stuck.code
  | _ => none

/-- The entry of a registration has the obligation's own number; the others name it. -/
def obligationSeq (entry : EventEntry) : Int :=
  if entry.payload.strAt "transition" = "registered" then entry.seq else entry.payload.intAt "obligation_seq"

/-- The item and the status that an entry records. -/
def recorded (entry : EventEntry) : Option (Item × Int) :=
  match entry.kind with
  | "decision" => some (.decision entry.runId (entry.payload.intAt "decision_index"), decided)
  | "effect" =>
    (effectStatus entry.payload).map fun status => (.effect entry.runId (entry.payload.strAt "idempotency_key"), status)
  | "obligation" =>
    (obligationStatus entry.payload).map fun status => (.obligation entry.runId (obligationSeq entry), status)
  | _ => none

/-- The entry is one about the item. -/
def isAbout (item : Item) (entry : EventEntry) : Bool := (recorded entry).map Prod.fst = some item

/-! ## The fold -/

def recordEntry (statuses : Item → Option Int) (entry : EventEntry) : Item → Option Int :=
  match recorded entry with
  | some (item, status) => Function.update statuses item (some status)
  | none => statuses

/-- The statuses that the entries record, one after the other in `global_seq` order. -/
def foldJournal (entries : List EventEntry) : Item → Option Int :=
  (orderBy EventEntry.globalSeq entries).foldl recordEntry fun _ => none

section Sorting

variable {ρ : Type} {key : ρ → Int}

theorem filter_orderedInsert {cond : ρ → Bool} {row : ρ} {rows : List ρ}
    (sorted : rows.Pairwise fun a b => key a ≤ key b) :
    (rows.orderedInsert (fun a b => key a ≤ key b) row).filter cond =
      if cond row then (rows.filter cond).orderedInsert (fun a b => key a ≤ key b) row else rows.filter cond := by
  induction rows with
  | nil => simp [List.filter_cons]
  | cons first rows inductionHypothesis =>
    obtain ⟨least, sorted⟩ := List.pairwise_cons.mp sorted
    rw [List.orderedInsert_cons]
    split
    next before =>
      rw [List.filter_cons]
      split
      · -- the new row comes before everything that is kept
        have kept : ∀ other ∈ (first :: rows).filter cond, key row ≤ key other := by
          intro other member
          rcases List.mem_cons.mp (List.mem_of_mem_filter member) with rfl | member
          · exact before
          · exact before.trans (least other member)
        cases rest : (first :: rows).filter cond with
        | nil => rfl
        | cons other others => rw [List.orderedInsert_cons, if_pos (kept other (by simp [rest]))]
      · rfl
    next after =>
      rw [List.filter_cons, inductionHypothesis sorted, List.filter_cons]
      by_cases holds : cond first
      · simp only [holds, if_true, List.orderedInsert_cons, if_neg after]
        split <;> rfl
      · simp only [holds, if_false, Bool.false_eq_true]

/-- `ORDER BY` after `WHERE` is `WHERE` after `ORDER BY`. -/
theorem filter_orderBy (cond : ρ → Bool) (rows : List ρ) :
    (orderBy key rows).filter cond = orderBy key (rows.filter cond) := by
  induction rows with
  | nil => rfl
  | cons row rows inductionHypothesis =>
    have sorted : (orderBy key rows).Pairwise fun a b => key a ≤ key b := by
      apply List.pairwise_insertionSort
    rw [show orderBy key (row :: rows) = (orderBy key rows).orderedInsert (fun a b => key a ≤ key b) row from rfl,
      filter_orderedInsert sorted, inductionHypothesis, List.filter_cons]
    split <;> rfl

/-- A row that comes after all others is the last one. -/
theorem orderBy_append_last {row : ρ} {rows : List ρ} (last : ∀ other ∈ rows, key other ≤ key row) :
    orderBy key (rows ++ [row]) = orderBy key rows ++ [row] := by
  induction rows with
  | nil => rfl
  | cons first rows inductionHypothesis =>
    have before := last first List.mem_cons_self
    have inserted : ∀ sorted : List ρ, (sorted ++ [row]).orderedInsert (fun a b => key a ≤ key b) first =
        sorted.orderedInsert (fun a b => key a ≤ key b) first ++ [row] := by
      intro sorted
      induction sorted with
      | nil => simp [before]
      | cons other sorted inductionHypothesis =>
        simp only [List.cons_append, List.orderedInsert_cons, inductionHypothesis]
        split <;> rfl
    calc orderBy key (first :: rows ++ [row])
        = (orderBy key (rows ++ [row])).orderedInsert (fun a b => key a ≤ key b) first := rfl
      _ = (orderBy key rows ++ [row]).orderedInsert (fun a b => key a ≤ key b) first := by
        rw [inductionHypothesis fun other member => last other (List.mem_cons_of_mem _ member)]
      _ = orderBy key (first :: rows) ++ [row] := inserted _

end Sorting

section Fold

variable {item : Item} {entries : List EventEntry} {entry : EventEntry}

theorem recordEntry_of_other {statuses : Item → Option Int} (other : isAbout item entry = false) :
    recordEntry statuses entry item = statuses item := by
  cases isRecord : recorded entry with
  | none => simp only [recordEntry, isRecord]
  | some change =>
    obtain ⟨changed, status⟩ := change
    have ne : item ≠ changed := by
      rintro rfl
      simp [isAbout, isRecord] at other
    simp only [recordEntry, isRecord, Function.update_of_ne ne]

theorem recordEntry_of_recorded {statuses : Item → Option Int} {status : Int}
    (isRecord : recorded entry = some (item, status)) : recordEntry statuses entry item = some status := by
  simp only [recordEntry, isRecord, Function.update_self]

/-- Only the entries about an item count for it. -/
theorem foldl_recordEntry (statuses : Item → Option Int) (entries : List EventEntry) :
    entries.foldl recordEntry statuses item = (entries.filter (isAbout item)).foldl recordEntry statuses item := by
  induction entries using List.reverseRecOn with
  | nil => rfl
  | append_singleton entries entry inductionHypothesis =>
    rw [List.foldl_concat, List.filter_append]
    by_cases about : isAbout item entry
    · obtain ⟨⟨changed, status⟩, isRecord, rfl⟩ := Option.map_eq_some_iff.mp (of_decide_eq_true about)
      rw [List.filter_cons_of_pos about, List.filter_nil, List.foldl_concat, recordEntry_of_recorded isRecord,
        recordEntry_of_recorded isRecord]
    · have other := Bool.eq_false_of_not_eq_true about
      rw [List.filter_cons_of_neg about, List.filter_nil, List.append_nil, recordEntry_of_other other,
        inductionHypothesis]

theorem foldJournal_filter : foldJournal entries item = foldJournal (entries.filter (isAbout item)) item := by
  rw [foldJournal, foldl_recordEntry, filter_orderBy, foldJournal]

theorem foldJournal_append_other (other : isAbout item entry = false) :
    foldJournal (entries ++ [entry]) item = foldJournal entries item := by
  rw [foldJournal_filter, List.filter_append, List.filter_cons_of_neg (by simp [other]), List.filter_nil, List.append_nil,
    ← foldJournal_filter]

/-- The last entry about an item decides its status. -/
theorem foldJournal_append_last {status : Int} (isRecord : recorded entry = some (item, status))
    (last : ∀ other ∈ entries, isAbout item other → other.globalSeq < entry.globalSeq) :
    foldJournal (entries ++ [entry]) item = some status := by
  have about : isAbout item entry := by simp [isAbout, isRecord]
  rw [foldJournal_filter, List.filter_append, List.filter_cons_of_pos about, List.filter_nil, foldJournal,
    orderBy_append_last, List.foldl_concat, recordEntry_of_recorded isRecord]
  intro other member
  obtain ⟨listed, isAbout⟩ := List.mem_filter.mp member
  exact (last other listed isAbout).le

end Fold

end Tape.Journal
