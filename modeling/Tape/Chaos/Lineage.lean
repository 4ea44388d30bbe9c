import Tape.Chaos.Snapshot
import Tape.Journal.Decided
import Tape.Sql.Dict

/-! # Lineage

`chaos/lineage.py` reads a run's journal in one pass and notes for each entry what it came of: a decision
of the one before, an effect of its decision, an obligation of its effect.  The pass finds parents in
dicts from the keys of the entries so far to their numbers.
-/

namespace Tape.Chaos

open Interleave Journal

structure LineageNode where
  seq : Int
  kind : String
  payload : Json
  /-- Zero stands for a root. -/
  parentSeq : Int
  breakingFailpoint : String

structure LineageGraph where
  runId : String
  nodes : List LineageNode

/-- A dict from keys to numbers of entries. -/
abbrev Seqs (κ : Type) := Sql.Table (Prod.fst : κ × Int → κ)

namespace Seqs

variable {κ : Type} [DecidableEq κ]

/-- `seqs.get(key)`. -/
def get? (seqs : Seqs κ) (key : κ) : Option Int := (seqs.find? key).map Prod.snd

/-- `seqs.setdefault(key, seq)`. -/
def setDefault (seqs : Seqs κ) (key : κ) (seq : Int) : Seqs κ :=
  if (seqs.find? key).isSome then seqs else seqs.put (key, seq)

theorem get?_put (seqs : Seqs κ) (key key' : κ) (seq : Int) :
    get? (seqs.put (key, seq)) key' = if key = key' then some seq else get? seqs key' := by
  unfold get?
  rw [Sql.Table.find?_put]
  by_cases same : key = key' <;> simp [same]

theorem get?_setDefault (seqs : Seqs κ) (key key' : κ) (seq : Int) :
    get? (setDefault seqs key seq) key' = if key = key' then some ((get? seqs key).getD seq) else get? seqs key' := by
  unfold setDefault
  split
  next there =>
    obtain ⟨row, found⟩ := Option.isSome_iff_exists.mp there
    by_cases same : key = key'
    · subst same
      simp [get?, found]
    · simp [same]
  next absent =>
    rw [get?_put]
    have absent_ : get? seqs key = none := by simpa [get?] using absent
    simp [absent_]

end Seqs

namespace LineageGraph

structure Dicts where
  decisionSeqs : Seqs Int := .empty
  effectSeqs : Seqs String := .empty
  gateSeqs : Seqs String := .empty

/-- `int(payload.get("decision_index", -1) or -1)`; the store writes a number there, or nothing. -/
def decisionIndex (payload : Json) : Int :=
  match payload.get? "decision_index" with
  | some (.int index) => if index = 0 then -1 else index
  | _ => -1

/-- `(payload.get("status") or "").lower()`. -/
def statusOf (entry : EventEntry) : String := (entry.payload.strAt "status").toLower

/-- What the loop's body writes into the dicts. -/
def record (dicts : Dicts) (entry : EventEntry) : Dicts :=
  if entry.kind = "decision" then
    { dicts with decisionSeqs := dicts.decisionSeqs.put (decisionIndex entry.payload, entry.seq) }
  else if entry.kind = "effect" then
    let key := entry.payload.strAt "idempotency_key"
    if key ≠ "" ∧ statusOf entry = "pending" then
      { dicts with effectSeqs := Seqs.setDefault dicts.effectSeqs key entry.seq }
    else dicts
  else if entry.kind = "gate" then
    let gate := entry.payload.strAt "gate"
    if gate ≠ "" then { dicts with gateSeqs := Seqs.setDefault dicts.gateSeqs gate entry.seq } else dicts
  else dicts

/-- What it finds in them, once it has written. -/
def parent (dicts : Dicts) (entry : EventEntry) : Int :=
  if entry.kind = "decision" then (Seqs.get? dicts.decisionSeqs (decisionIndex entry.payload - 1)).getD 0
  else if entry.kind = "effect" then (Seqs.get? dicts.decisionSeqs (decisionIndex entry.payload)).getD 0
  else if entry.kind = "obligation" then (Seqs.get? dicts.effectSeqs (entry.payload.strAt "effect_key")).getD 0
  else 0

def failpoint (entry : EventEntry) : String :=
  if entry.kind = "run" then
    if entry.payload.strAt "status" = "running" then "tape::begin_run::post_db" else "tape::end_run::post_db"
  else if entry.kind = "decision" then "tape::record_decision::post_db"
  else if entry.kind = "effect" then
    if entry.payload.strAt "idempotency_key" = "" then ""
    else if statusOf entry = "pending" then "tape::begin_effect::post_db"
    else if statusOf entry = "confirmed" then "tape::complete_effect::post_db"
    else if ["failed", "unknown", "reconciled"].contains (statusOf entry) then "tape::reconcile_effect::post_db"
    else "tape::begin_effect::post_db"
  else if entry.kind = "obligation" then
    if ["compensated", "stuck"].contains (statusOf entry) then "tape::resolve_obligation::post_db"
    else "tape::register_compensation::post_db"
  else if entry.kind = "gate" then
    if ["delivered", "resolved"].contains (statusOf entry) then "tape::send_signal::post_db"
    else "tape::await_signal::post_db"
  else if entry.kind = "value" then
    if entry.payload.get? "deleted" matches some (.bool true) then "tape::delete_value::post_db"
    else "tape::write_value::post_db"
  else ""

/-- The loop, given what the stream sends before the deadline. -/
def walk : Dicts → List EventEntry → List LineageNode
  | _, [] => []
  | dicts, entry :: rest =>
    { seq := entry.seq, kind := entry.kind, payload := entry.payload, parentSeq := parent (record dicts entry) entry,
      breakingFailpoint := failpoint entry } ::
      if isLast entry then [] else walk (record dicts entry) rest

def fromRun (runId : String) (entries : List EventEntry) : LineageGraph := ⟨runId, walk {} entries⟩

def edges (graph : LineageGraph) : List (Int × Int) :=
  (graph.nodes.filter fun node => 0 < node.parentSeq).map fun node => (node.parentSeq, node.seq)

end LineageGraph

/-! ## What the edges are meant to be -/

/-- The entry is of decision `index`. -/
def Decides (index : Int) (entry : EventEntry) : Prop :=
  entry.kind = "decision" ∧ entry.payload.get? "decision_index" = some (.int index)

/-- The entry begins an effect that is attributed to decision `index`. -/
def AttributedTo (index : Int) (entry : EventEntry) : Prop :=
  entry.kind = "effect" ∧ entry.payload.get? "decision_index" = some (.int index)

/-- The entry begins the effect with the key. -/
def Begins (key : String) (entry : EventEntry) : Prop :=
  (∃ index, AttributedTo index entry) ∧ entry.payload.strAt "idempotency_key" = key

/-- The entry is of an obligation to invert the effect with the key. -/
def Inverts (key : String) (entry : EventEntry) : Prop :=
  entry.kind = "obligation" ∧ entry.payload.strAt "effect_key" = key

/-- The edges lead to each decision from the one before, to each effect from its decision, and to each obligation
    from its effect. -/
structure RightEdges (entries : List EventEntry) (edges : List (Int × Int)) : Prop where
  decision : ∀ index > 0, ∀ entry ∈ entries, Decides index entry → ∀ before ∈ entries, Decides (index - 1) before →
    (before.seq, entry.seq) ∈ edges
  root : ∀ entry ∈ entries, Decides 0 entry → ∀ seq, (seq, entry.seq) ∉ edges
  effect : ∀ index ≥ 0, ∀ entry ∈ entries, AttributedTo index entry → ∀ decision ∈ entries, Decides index decision →
    (decision.seq, entry.seq) ∈ edges
  unattributed : ∀ index < 0, ∀ entry ∈ entries, AttributedTo index entry → ∀ seq, (seq, entry.seq) ∉ edges
  obligation : ∀ key, ∀ entry ∈ entries, Inverts key entry → ∀ effect ∈ entries, Begins key effect →
    (effect.seq, entry.seq) ∈ edges

/-! ## When they are -/

/-- The entry is of the effect with the key while that is pending: it begins it, or puts it off. -/
def Pending (key : String) (entry : EventEntry) : Prop :=
  entry.kind = "effect" ∧ entry.payload.strAt "idempotency_key" = key ∧ key ≠ "" ∧
    LineageGraph.statusOf entry = "pending"

/-- `before` has a number, and a smaller one. -/
def Precedes (before entry : EventEntry) : Prop := 0 < before.seq ∧ before.seq < entry.seq

/-- What there is with `P` precedes `entry`. -/
def PrecededBy (entries : List EventEntry) (P : EventEntry → Prop) (entry : EventEntry) : Prop :=
  ∀ before ∈ entries, P before → Precedes before entry

/-- The journal does not have both of the first two decisions, no effect outside of decisions begins behind the first
    one, and everything is behind what it came of. -/
structure Tellable (entries : List EventEntry) : Prop where
  second : ∀ entry ∈ entries, Decides 1 entry → ∀ first ∈ entries, ¬ Decides 0 first
  decision : ∀ index > 1, ∀ entry ∈ entries, Decides index entry → PrecededBy entries (Decides (index - 1)) entry
  effect : ∀ index ≥ 0, ∀ entry ∈ entries, AttributedTo index entry → PrecededBy entries (Decides index) entry
  unattributed : ∀ entry ∈ entries, AttributedTo (-1) entry → ∀ first ∈ entries, Decides 0 first → ¬ Precedes first entry
  obligation : ∀ key, ∀ entry ∈ entries, Inverts key entry → ∀ effect ∈ entries, Begins key effect →
    Precedes effect entry ∧ ∀ other ∈ entries, Pending key other → effect.seq ≤ other.seq

/-! ## The dicts -/

/-- What is found is the number of the last entry with `P`. -/
def IsLast (entries : List EventEntry) (P : EventEntry → Prop) : Option Int → Prop
  | none => ∀ entry ∈ entries, ¬ P entry
  | some seq => (∃ entry ∈ entries, P entry ∧ entry.seq = seq) ∧ ∀ entry ∈ entries, P entry → entry.seq ≤ seq

/-- What is found is the number of the first one. -/
def IsFirst (entries : List EventEntry) (P : EventEntry → Prop) : Option Int → Prop
  | none => ∀ entry ∈ entries, ¬ P entry
  | some seq => (∃ entry ∈ entries, P entry ∧ entry.seq = seq) ∧ ∀ entry ∈ entries, P entry → seq ≤ entry.seq

section Found

variable {earlier entries : List EventEntry} {entry : EventEntry} {P P' : EventEntry → Prop} {found : Option Int}

theorem IsLast.congr (isLast : IsLast entries P found) (same : ∀ entry ∈ entries, P entry ↔ P' entry) :
    IsLast entries P' found := by
  cases found with
  | none => exact fun entry isEntry holds => isLast entry isEntry ((same entry isEntry).mpr holds)
  | some seq =>
    obtain ⟨⟨entry, isEntry, holds, number⟩, last⟩ := isLast
    refine ⟨⟨entry, isEntry, (same entry isEntry).mp holds, number⟩, ?_⟩
    exact fun other isOther holds => last other isOther ((same other isOther).mpr holds)

theorem IsLast.snoc_of_not (isLast : IsLast entries P found) (not : ¬ P entry) : IsLast (entries ++ [entry]) P found := by
  cases found with
  | none => simpa [IsLast, or_imp, forall_and, not] using isLast
  | some seq =>
    obtain ⟨⟨last, isEntry, holds, number⟩, bounded⟩ := isLast
    refine ⟨⟨last, List.mem_append_left _ isEntry, holds, number⟩, ?_⟩
    simpa [or_imp, forall_and, not] using bounded

theorem IsLast.snoc (above : ∀ earlier ∈ entries, earlier.seq < entry.seq) (holds : P entry) :
    IsLast (entries ++ [entry]) P (some entry.seq) := by
  refine ⟨⟨entry, by simp, holds, rfl⟩, fun other isOther _ => ?_⟩
  cases List.mem_append.mp isOther with
  | inl old => exact (above other old).le
  | inr new => rw [List.mem_singleton.mp new]

theorem IsFirst.snoc_of_not (isFirst : IsFirst entries P found) (not : ¬ P entry) :
    IsFirst (entries ++ [entry]) P found := by
  cases found with
  | none => simpa [IsFirst, or_imp, forall_and, not] using isFirst
  | some seq =>
    obtain ⟨⟨first, isEntry, holds, number⟩, bounded⟩ := isFirst
    refine ⟨⟨first, List.mem_append_left _ isEntry, holds, number⟩, ?_⟩
    simpa [or_imp, forall_and, not] using bounded

theorem IsFirst.snoc (isFirst : IsFirst entries P found) (above : ∀ earlier ∈ entries, earlier.seq < entry.seq)
    (holds : P entry) : IsFirst (entries ++ [entry]) P (some (found.getD entry.seq)) := by
  cases found with
  | none =>
    refine ⟨⟨entry, by simp, holds, rfl⟩, fun other isOther otherHolds => ?_⟩
    cases List.mem_append.mp isOther with
    | inl old => exact absurd otherHolds (isFirst other old)
    | inr new => simp [List.mem_singleton.mp new]
  | some seq =>
    obtain ⟨⟨first, isEntry, firstHolds, number⟩, bounded⟩ := isFirst
    refine ⟨⟨first, List.mem_append_left _ isEntry, firstHolds, number⟩, fun other isOther otherHolds => ?_⟩
    cases List.mem_append.mp isOther with
    | inl old => exact bounded other old otherHolds
    | inr new =>
      rw [List.mem_singleton.mp new, Option.getD_some, ← number]
      exact (above first isEntry).le

/-- The last one is the one there is, and has a number. -/
theorem IsLast.precededBy_iff (isLast : IsLast earlier P found) (single : ∀ a ∈ entries, P a → ∀ b ∈ entries, P b → a = b)
    (splits : ∀ other, other ∈ earlier ↔ other ∈ entries ∧ other.seq < entry.seq) :
    (∀ before ∈ entries, P before → 0 < before.seq ∧ before.seq = found.getD 0) ↔ PrecededBy entries P entry := by
  constructor
  · intro finds before isBefore holds
    obtain ⟨positive, same⟩ := finds before isBefore holds
    cases found with
    | none =>
      simp only [Option.getD_none] at same
      omega
    | some seq =>
      obtain ⟨⟨last, isEarlier, lastHolds, number⟩, -⟩ := isLast
      have less := ((splits last).mp isEarlier).2
      simp only [Option.getD_some] at same
      exact ⟨positive, by omega⟩
  · intro preceded before isBefore holds
    obtain ⟨positive, less⟩ := preceded before isBefore holds
    have isEarlier := (splits before).mpr ⟨isBefore, less⟩
    refine ⟨positive, ?_⟩
    cases found with
    | none => exact absurd holds (isLast before isEarlier)
    | some seq =>
      obtain ⟨⟨last, lastEarlier, lastHolds, number⟩, -⟩ := isLast
      obtain rfl := single last ((splits last).mp lastEarlier).1 lastHolds before isBefore holds
      exact number

/-- There is none with a number. -/
theorem IsLast.absent_iff (isLast : IsLast earlier P found)
    (splits : ∀ other, other ∈ earlier ↔ other ∈ entries ∧ other.seq < entry.seq) :
    ¬ 0 < found.getD 0 ↔ ∀ before ∈ entries, P before → ¬ Precedes before entry := by
  cases found with
  | none =>
    simp only [Option.getD_none, lt_irrefl, not_false_eq_true, true_iff]
    exact fun before isBefore holds precedes => isLast before ((splits before).mpr ⟨isBefore, precedes.2⟩) holds
  | some seq =>
    obtain ⟨⟨last, lastEarlier, lastHolds, number⟩, latest⟩ := isLast
    obtain ⟨isEntry, less⟩ := (splits last).mp lastEarlier
    simp only [Option.getD_some]
    constructor
    · intro unnumbered before isBefore holds precedes
      have bounded := latest before ((splits before).mpr ⟨isBefore, precedes.2⟩) holds
      have positive := precedes.1
      omega
    · exact fun absent positive => absent last isEntry lastHolds ⟨by omega, by omega⟩

/-- The first one is `before`. -/
theorem IsFirst.precedes_iff (isFirst : IsFirst earlier P found)
    (splits : ∀ other, other ∈ earlier ↔ other ∈ entries ∧ other.seq < entry.seq) {before : EventEntry}
    (isBefore : before ∈ entries) (holds : P before) :
    (0 < before.seq ∧ before.seq = found.getD 0) ↔
      Precedes before entry ∧ ∀ other ∈ entries, P other → before.seq ≤ other.seq := by
  constructor
  · rintro ⟨positive, same⟩
    cases found with
    | none =>
      simp only [Option.getD_none] at same
      omega
    | some seq =>
      obtain ⟨⟨first, firstEarlier, -, number⟩, bounded⟩ := isFirst
      have less := ((splits first).mp firstEarlier).2
      simp only [Option.getD_some] at same
      refine ⟨⟨positive, by omega⟩, fun other isOther otherHolds => ?_⟩
      by_cases otherLess : other.seq < entry.seq
      · have least := bounded other ((splits other).mpr ⟨isOther, otherLess⟩) otherHolds
        omega
      · omega
  · rintro ⟨⟨positive, less⟩, least⟩
    have isEarlier := (splits before).mpr ⟨isBefore, less⟩
    refine ⟨positive, ?_⟩
    cases found with
    | none => exact absurd holds (isFirst before isEarlier)
    | some seq =>
      obtain ⟨⟨first, firstEarlier, firstHolds, number⟩, bounded⟩ := isFirst
      have atLeast := least first ((splits first).mp firstEarlier).1 firstHolds
      have atMost := bounded before isEarlier holds
      simp only [Option.getD_some]
      omega

end Found

namespace LineageGraph

/-- The dicts as the entries so far have made them. -/
structure Tracks (entries : List EventEntry) (dicts : Dicts) : Prop where
  decisions : ∀ index, IsLast entries (fun entry => entry.kind = "decision" ∧ decisionIndex entry.payload = index)
    (Seqs.get? dicts.decisionSeqs index)
  effects : ∀ key, IsFirst entries (Pending key) (Seqs.get? dicts.effectSeqs key)

theorem tracks_nil : Tracks [] {} where
  decisions _ := by simp [Seqs.get?, IsLast]
  effects _ := by simp [Seqs.get?, IsFirst]

theorem Tracks.record {entries : List EventEntry} {dicts : Dicts} (tracks : Tracks entries dicts) {entry : EventEntry}
    (above : ∀ earlier ∈ entries, earlier.seq < entry.seq) : Tracks (entries ++ [entry]) (record dicts entry) := by
  -- an entry that is not of the dict's kind leaves it as it is
  have decisions_kept (other : entry.kind ≠ "decision") (index : Int) :
      IsLast (entries ++ [entry]) (fun entry => entry.kind = "decision" ∧ decisionIndex entry.payload = index)
        (Seqs.get? dicts.decisionSeqs index) := (tracks.decisions index).snoc_of_not fun holds => other holds.1
  have effects_kept (key : String) (not : ¬ Pending key entry) := (tracks.effects key).snoc_of_not not
  unfold LineageGraph.record
  split
  next isDecision =>
    constructor
    · intro index
      rw [Seqs.get?_put]
      split
      next same => exact IsLast.snoc above ⟨isDecision, same⟩
      next other => exact (tracks.decisions index).snoc_of_not fun holds => other holds.2
    · exact fun key => effects_kept key fun pending => by simp [Pending, isDecision] at pending
  next notDecision =>
    split
    next isEffect =>
      dsimp only
      split
      next begins =>
        refine ⟨decisions_kept notDecision, fun key => ?_⟩
        rw [Seqs.get?_setDefault]
        split
        next same =>
          subst same
          exact (tracks.effects _).snoc above ⟨isEffect, rfl, begins.1, begins.2⟩
        next other => exact effects_kept key fun pending => other pending.2.1
      next ends =>
        refine ⟨decisions_kept notDecision, fun key => effects_kept key fun pending => ends ⟨?_, pending.2.2.2⟩⟩
        rw [pending.2.1]
        exact pending.2.2.1
    next notEffect =>
      have effects (key : String) := effects_kept key fun pending => notEffect pending.1
      split
      · dsimp only
        split <;> exact ⟨decisions_kept notDecision, effects⟩
      · exact ⟨decisions_kept notDecision, effects⟩

/-! ## The edges -/

theorem mem_edges_cons {runId : String} {node : LineageNode} {nodes : List LineageNode} {seq child : Int} :
    (seq, child) ∈ edges ⟨runId, node :: nodes⟩ ↔
      (0 < seq ∧ seq = node.parentSeq ∧ child = node.seq) ∨ (seq, child) ∈ edges ⟨runId, nodes⟩ := by
  unfold edges
  by_cases positive : 0 < node.parentSeq
  · simp only [List.filter_cons, positive, decide_true, if_true, List.map_cons, List.mem_cons, Prod.mk.injEq]
    constructor
    · rintro (⟨rfl, rfl⟩ | later)
      · exact .inl ⟨positive, rfl, rfl⟩
      · exact .inr later
    · rintro (⟨-, rfl, rfl⟩ | later)
      · exact .inl ⟨rfl, rfl⟩
      · exact .inr later
  · simp only [List.filter_cons, positive, decide_false]
    constructor
    · exact .inr
    · rintro (⟨positive', rfl, -⟩ | later)
      · exact absurd positive' positive
      · exact later

/-- Edges lead to entries. -/
theorem child_of_mem_edges {runId : String} {seq child : Int} {dicts : Dicts} {rest : List EventEntry}
    (isEdge : (seq, child) ∈ edges ⟨runId, walk dicts rest⟩) : ∃ entry ∈ rest, entry.seq = child := by
  induction rest generalizing dicts with
  | nil => simp [edges, walk] at isEdge
  | cons head rest inductionHypothesis =>
    rw [walk, mem_edges_cons] at isEdge
    cases isEdge with
    | inl here => exact ⟨head, List.mem_cons_self, here.2.2.symm⟩
    | inr later =>
      split at later
      · simp [edges] at later
      · obtain ⟨entry, isEntry, number⟩ := inductionHypothesis later
        exact ⟨entry, List.mem_cons_of_mem _ isEntry, number⟩

/-- The edges into an entry are those that the dicts tell at that point. -/
theorem edges_walk {rest earlier : List EventEntry} {dicts : Dicts} (tracks : Tracks earlier dicts)
    (strict : (earlier ++ rest).Pairwise fun a b => a.seq < b.seq) {entry : EventEntry} (isEntry : entry ∈ upToLast rest) :
    ∃ dicts' earlier', Tracks earlier' dicts' ∧
      (∀ other, other ∈ earlier' ↔ other ∈ earlier ++ upToLast rest ∧ other.seq < entry.seq) ∧
      ∀ runId seq, (seq, entry.seq) ∈ edges ⟨runId, walk dicts rest⟩ ↔
        0 < seq ∧ seq = parent (LineageGraph.record dicts' entry) entry := by
  induction rest generalizing earlier dicts with
  | nil => simp [upToLast] at isEntry
  | cons head rest inductionHypothesis =>
    obtain ⟨strictEarlier, strictRest, across⟩ := List.pairwise_append.mp strict
    -- the journal is read in the order of seq, so the dicts know just what is older
    have above : ∀ other ∈ earlier, other.seq < head.seq := fun other isOther => across other isOther head List.mem_cons_self
    have below : ∀ other ∈ rest, head.seq < other.seq := (List.pairwise_cons.mp strictRest).1
    rw [upToLast, List.mem_cons] at isEntry
    cases isEntry with
    | inl same =>
      subst same
      refine ⟨dicts, earlier, tracks, fun other => ?_, fun runId seq => ?_⟩
      · constructor
        · exact fun isOther => ⟨List.mem_append_left _ isOther, above other isOther⟩
        · rintro ⟨isOther, less⟩
          cases List.mem_append.mp isOther with
          | inl old => exact old
          | inr new =>
            cases List.mem_cons.mp (mem_of_mem_upToLast new) with
            | inl same => exact absurd less (by simp [same])
            | inr later => exact absurd (below other later) (by omega)
      · rw [walk, mem_edges_cons]
        -- an edge into this entry is drawn when the walk is at it, and never later
        have none_later : (seq, entry.seq) ∉
            edges ⟨runId, if isLast entry then [] else walk (LineageGraph.record dicts entry) rest⟩ := by
          split
          · simp [edges]
          · intro isEdge
            obtain ⟨other, isOther, number⟩ := child_of_mem_edges isEdge
            exact absurd (below other isOther) (by omega)
        simp [none_later]
    | inr later =>
      split at later
      next => cases later
      next goesOn =>
        have strict' : (earlier ++ [head] ++ rest).Pairwise fun a b => a.seq < b.seq := by simpa using strict
        obtain ⟨dicts', earlier', tracks', splits, isEdge⟩ := inductionHypothesis (tracks.record above) strict' later
        refine ⟨dicts', earlier', tracks', fun other => ?_, fun runId seq => ?_⟩
        · rw [splits, upToLast, if_neg goesOn]
          simp
        · rw [← isEdge runId, walk, if_neg goesOn, mem_edges_cons]
          have different : entry.seq ≠ head.seq := by
            have less := below entry (mem_of_mem_upToLast later)
            omega
          simp [different]

/-! ## Whom the dicts tell -/

/-- Under which number a decision is in the dict: the first one is taken for none. -/
def dictIndex (index : Int) : Int := if index = 0 then -1 else index

section Parents

variable {index : Int} {entry : EventEntry} {key : String}

theorem decisionIndex_eq (isIndex : entry.payload.get? "decision_index" = some (.int index)) :
    decisionIndex entry.payload = dictIndex index := by
  simp [decisionIndex, dictIndex, isIndex]

theorem parent_of_decides (dicts : Dicts) (decides : Decides index entry) :
    parent (LineageGraph.record dicts entry) entry = (Seqs.get? dicts.decisionSeqs (dictIndex index - 1)).getD 0 := by
  have apart : dictIndex index ≠ dictIndex index - 1 := by omega
  simp [parent, LineageGraph.record, decides.1, decisionIndex_eq decides.2, Seqs.get?_put, apart]

theorem parent_of_attributed (dicts : Dicts) (attributed : AttributedTo index entry) :
    parent (LineageGraph.record dicts entry) entry = (Seqs.get? dicts.decisionSeqs (dictIndex index)).getD 0 := by
  have kept : (LineageGraph.record dicts entry).decisionSeqs = dicts.decisionSeqs := by
    simp only [LineageGraph.record, attributed.1]
    split <;> simp_all
    split <;> rfl
  simp [parent, attributed.1, kept, decisionIndex_eq attributed.2]

theorem parent_of_inverts (dicts : Dicts) (inverts : Inverts key entry) :
    parent (LineageGraph.record dicts entry) entry = (Seqs.get? dicts.effectSeqs key).getD 0 := by
  simp [parent, LineageGraph.record, inverts.1, inverts.2]

/-- A decision's entry has a number for the decision. -/
theorem decides_of_written (isWritten : Written entry.kind entry.payload) (isDecision : entry.kind = "decision") :
    ∃ index, Decides index entry := by
  unfold Decides
  generalize entry.kind = kind at isWritten isDecision ⊢
  generalize entry.payload = payload at isWritten ⊢
  cases isWritten with
  | decision index => exact ⟨index, isDecision, by simp [Json.get?]⟩
  | _ => simp at isDecision

theorem deriveKey_ne (runId tool : String) (decisionIndex callIndex : Int) :
    RunStore.deriveKey runId decisionIndex tool callIndex ≠ "" := by
  intro empty
  have none_ : (RunStore.deriveKey runId decisionIndex tool callIndex).length = 0 := by rw [empty, String.length_empty]
  have slash : "/".length = 1 := rfl
  unfold RunStore.deriveKey at none_
  split at none_
  all_goals
    simp only [String.length_append] at none_
    omega

/-- An effect is pending when it begins, under a key of its own. -/
theorem pending_of_begins (isWritten : Written entry.kind entry.payload) (begins : Begins key entry) :
    Pending key entry := by
  obtain ⟨⟨index, isEffect, isIndex⟩, isKey⟩ := begins
  unfold Pending statusOf
  generalize entry.kind = kind at isWritten isEffect ⊢
  generalize entry.payload = payload at isWritten isIndex isKey ⊢
  cases isWritten with
  | effect r =>
    have keyed : r.key ≠ "" := by
      unfold RunStore.EffectRequest.key
      split
      · exact deriveKey_ne _ _ _ _
      next custom => simpa using custom
    have isKey' : r.key = key := by simpa [Json.strAt, Json.get?] using isKey
    refine ⟨isEffect, isKey, isKey' ▸ keyed, ?_⟩
    have lower : "pending".toLower = "pending" := by decide +kernel
    simpa [Json.strAt, Json.get?] using lower
  | completed | reconciled | attempted | observed => simp [Json.get?] at isIndex
  | _ => simp at isEffect

end Parents

/-- A journal of one run: numbered, as the methods write it, with decisions from zero on, and one entry for each. -/
structure OfRun (entries : List EventEntry) : Prop where
  strict : entries.Pairwise fun a b => a.seq < b.seq
  written : AllWritten entries
  natural : ∀ entry ∈ entries, ∀ index, Decides index entry → 0 ≤ index
  single : ∀ index, ∀ a ∈ entries, Decides index a → ∀ b ∈ entries, Decides index b → a = b

section Told

variable {entries : List EventEntry} (ofRun : OfRun entries)

include ofRun

/-- What the dict has under `index` is the last entry of the decision that is there under it. -/
theorem OfRun.last (index : Int) {earlier : List EventEntry} {dicts : Dicts} (tracks : Tracks earlier dicts)
    (sub : ∀ entry ∈ earlier, entry ∈ entries) :
    IsLast earlier (fun entry => ∃ decided ≥ 0, Decides decided entry ∧ dictIndex decided = index)
      (Seqs.get? dicts.decisionSeqs index) := by
  refine (tracks.decisions index).congr fun entry isEarlier => ?_
  constructor
  · rintro ⟨isDecision, same⟩
    obtain ⟨decided, decides⟩ := decides_of_written (ofRun.written entry (sub entry isEarlier)) isDecision
    refine ⟨decided, ofRun.natural entry (sub entry isEarlier) decided decides, decides, ?_⟩
    rw [← decisionIndex_eq decides.2, same]
  · rintro ⟨decided, -, decides, same⟩
    exact ⟨decides.1, (decisionIndex_eq decides.2).trans same⟩

/-- The decision that is in the dict under `index`, for one that is not the first. -/
theorem OfRun.last_later {index : Int} (later : 0 < index) {earlier : List EventEntry} {dicts : Dicts}
    (tracks : Tracks earlier dicts) (sub : ∀ entry ∈ earlier, entry ∈ entries) :
    IsLast earlier (Decides index) (Seqs.get? dicts.decisionSeqs index) := by
  refine (ofRun.last index tracks sub).congr fun entry isEarlier => ?_
  constructor
  · rintro ⟨decided, natural, decides, same⟩
    obtain rfl : decided = index := by
      unfold dictIndex at same
      split at same <;> omega
    exact decides
  · intro decides
    exact ⟨index, later.le, decides, if_neg (by omega)⟩

/-- Under `-1` is the first decision. -/
theorem OfRun.last_first {earlier : List EventEntry} {dicts : Dicts} (tracks : Tracks earlier dicts)
    (sub : ∀ entry ∈ earlier, entry ∈ entries) :
    IsLast earlier (Decides 0) (Seqs.get? dicts.decisionSeqs (-1)) := by
  refine (ofRun.last (-1) tracks sub).congr fun entry isEarlier => ?_
  constructor
  · rintro ⟨decided, natural, decides, same⟩
    obtain rfl : decided = 0 := by
      unfold dictIndex at same
      split at same <;> omega
    exact decides
  · exact fun decides => ⟨0, le_refl _, decides, rfl⟩

/-- Under zero, and below `-1`, is nothing. -/
theorem OfRun.none_there {index : Int} (other : index = 0 ∨ index < -1) {earlier : List EventEntry} {dicts : Dicts}
    (tracks : Tracks earlier dicts) (sub : ∀ entry ∈ earlier, entry ∈ entries) :
    Seqs.get? dicts.decisionSeqs index = none := by
  have last := ofRun.last index tracks sub
  cases found : Seqs.get? dicts.decisionSeqs index with
  | none => rfl
  | some seq =>
    rw [found] at last
    obtain ⟨⟨entry, -, ⟨decided, natural, -, same⟩, -⟩, -⟩ := last
    unfold dictIndex at same
    split at same <;> omega

theorem OfRun.single_shown (index : Int) :
    ∀ a ∈ upToLast entries, Decides index a → ∀ b ∈ upToLast entries, Decides index b → a = b :=
  fun a isA aDecides b isB bDecides =>
    ofRun.single index a (mem_of_mem_upToLast isA) aDecides b (mem_of_mem_upToLast isB) bDecides

variable {entry : EventEntry} (isEntry : entry ∈ upToLast entries) {runId : String}

include isEntry

/-- The dicts at an entry, and the edges that they make. -/
theorem OfRun.told (runId : String) : ∃ dicts earlier, Tracks earlier dicts ∧
    (∀ other, other ∈ earlier ↔ other ∈ upToLast entries ∧ other.seq < entry.seq) ∧
    (∀ other ∈ earlier, other ∈ entries) ∧
    ∀ seq, (seq, entry.seq) ∈ (fromRun runId entries).edges ↔
      0 < seq ∧ seq = parent (LineageGraph.record dicts entry) entry := by
  obtain ⟨dicts, earlier, tracks, splits, isEdge⟩ := edges_walk tracks_nil (by simpa using ofRun.strict) isEntry
  refine ⟨dicts, earlier, tracks, by simpa using splits, fun other isOther => ?_, isEdge runId⟩
  have isShown := ((splits other).mp isOther).1
  exact mem_of_mem_upToLast (by simpa using isShown)

theorem OfRun.edge_later {index : Int} (later : 1 < index) (decides : Decides index entry) :
    (∀ before ∈ upToLast entries, Decides (index - 1) before → (before.seq, entry.seq) ∈ (fromRun runId entries).edges) ↔
      PrecededBy (upToLast entries) (Decides (index - 1)) entry := by
  obtain ⟨dicts, earlier, tracks, splits, sub, isEdge⟩ := ofRun.told isEntry runId
  have last := ofRun.last_later (by omega : 0 < index - 1) tracks sub
  have same : dictIndex index = index := if_neg (by omega)
  simp only [isEdge, parent_of_decides dicts decides, same]
  exact last.precededBy_iff (ofRun.single_shown _) splits

/-- No edge leads to the second decision. -/
theorem OfRun.edge_second (decides : Decides 1 entry) (seq : Int) : (seq, entry.seq) ∉ (fromRun runId entries).edges := by
  obtain ⟨dicts, earlier, tracks, splits, sub, isEdge⟩ := ofRun.told isEntry runId
  have absent := ofRun.none_there (.inl rfl) tracks sub
  rw [isEdge, parent_of_decides dicts decides]
  simp only [dictIndex, one_ne_zero, if_false, sub_self, absent, Option.getD_none]
  omega

theorem OfRun.edge_root (decides : Decides 0 entry) (seq : Int) : (seq, entry.seq) ∉ (fromRun runId entries).edges := by
  obtain ⟨dicts, earlier, tracks, splits, sub, isEdge⟩ := ofRun.told isEntry runId
  have absent := ofRun.none_there (.inr (by decide : (-2 : Int) < -1)) tracks sub
  rw [isEdge, parent_of_decides dicts decides]
  simp only [dictIndex, if_true, Int.reduceNeg, Int.reduceSub, absent, Option.getD_none]
  omega

theorem OfRun.edge_attributed {index : Int} (natural : 0 ≤ index) (attributed : AttributedTo index entry) :
    (∀ decision ∈ upToLast entries, Decides index decision →
        (decision.seq, entry.seq) ∈ (fromRun runId entries).edges) ↔
      PrecededBy (upToLast entries) (Decides index) entry := by
  obtain ⟨dicts, earlier, tracks, splits, sub, isEdge⟩ := ofRun.told isEntry runId
  have last : IsLast earlier (Decides index) (Seqs.get? dicts.decisionSeqs (dictIndex index)) := by
    by_cases first : index = 0
    · subst first
      exact ofRun.last_first tracks sub
    · rw [dictIndex, if_neg first]
      exact ofRun.last_later (by omega) tracks sub
  simp only [isEdge, parent_of_attributed dicts attributed]
  exact last.precededBy_iff (ofRun.single_shown _) splits

/-- An effect outside of decisions is taken for one of the first decision. -/
theorem OfRun.edge_unattributed (attributed : AttributedTo (-1) entry) :
    (∀ seq, (seq, entry.seq) ∉ (fromRun runId entries).edges) ↔
      ∀ first ∈ upToLast entries, Decides 0 first → ¬ Precedes first entry := by
  obtain ⟨dicts, earlier, tracks, splits, sub, isEdge⟩ := ofRun.told isEntry runId
  rw [← (ofRun.last_first tracks sub).absent_iff splits]
  simp only [isEdge, parent_of_attributed dicts attributed]
  constructor
  · exact fun noEdge positive => noEdge _ ⟨positive, rfl⟩
  · rintro absent seq ⟨positive, rfl⟩
    exact absent positive

theorem OfRun.edge_below {index : Int} (below : index < -1) (attributed : AttributedTo index entry) (seq : Int) :
    (seq, entry.seq) ∉ (fromRun runId entries).edges := by
  obtain ⟨dicts, earlier, tracks, splits, sub, isEdge⟩ := ofRun.told isEntry runId
  have absent := ofRun.none_there (.inr below) tracks sub
  have same : dictIndex index = index := if_neg (by omega)
  rw [isEdge, parent_of_attributed dicts attributed, same, absent, Option.getD_none]
  omega

theorem OfRun.edge_inverts {key : String} (inverts : Inverts key entry) {effect : EventEntry}
    (isEffect : effect ∈ upToLast entries) (begins : Begins key effect) :
    (effect.seq, entry.seq) ∈ (fromRun runId entries).edges ↔
      Precedes effect entry ∧ ∀ other ∈ upToLast entries, Pending key other → effect.seq ≤ other.seq := by
  obtain ⟨dicts, earlier, tracks, splits, sub, isEdge⟩ := ofRun.told isEntry runId
  have pending := pending_of_begins (ofRun.written effect (mem_of_mem_upToLast isEffect)) begins
  rw [isEdge, parent_of_inverts dicts inverts]
  exact (tracks.effects key).precedes_iff splits isEffect pending

end Told

/-- The edges of the graph are right exactly if the journal is one where they can be told. -/
theorem OfRun.rightEdges_iff {entries : List EventEntry} (ofRun : OfRun entries) (runId : String) :
    RightEdges (upToLast entries) (fromRun runId entries).edges ↔ Tellable (upToLast entries) := by
  constructor
  · intro right
    constructor
    · intro entry isEntry decides first isFirst decides'
      exact ofRun.edge_second isEntry decides _ (right.decision 1 one_pos entry isEntry decides first isFirst decides')
    · intro index later entry isEntry decides
      exact (ofRun.edge_later isEntry later decides).mp (right.decision index (by omega) entry isEntry decides)
    · intro index natural entry isEntry attributed
      exact (ofRun.edge_attributed isEntry natural attributed).mp (right.effect index natural entry isEntry attributed)
    · intro entry isEntry attributed
      exact (ofRun.edge_unattributed isEntry attributed).mp (right.unattributed (-1) (by decide) entry isEntry attributed)
    · intro key entry isEntry inverts effect isEffect begins
      exact (ofRun.edge_inverts isEntry inverts isEffect begins).mp
        (right.obligation key entry isEntry inverts effect isEffect begins)
  · intro tellable
    constructor
    · intro index positive entry isEntry decides
      by_cases second : index = 1
      · subst second
        exact fun first isFirst decides' => absurd decides' (tellable.second entry isEntry decides first isFirst)
      · have later : 1 < index := by omega
        exact (ofRun.edge_later isEntry later decides).mpr (tellable.decision index later entry isEntry decides)
    · exact fun entry isEntry decides => ofRun.edge_root isEntry decides
    · intro index natural entry isEntry attributed
      exact (ofRun.edge_attributed isEntry natural attributed).mpr (tellable.effect index natural entry isEntry attributed)
    · intro index negative entry isEntry attributed
      by_cases none_ : index = -1
      · subst none_
        exact (ofRun.edge_unattributed isEntry attributed).mpr (tellable.unattributed entry isEntry attributed)
      · exact ofRun.edge_below isEntry (by omega) attributed
    · intro key entry isEntry inverts effect isEffect begins
      exact (ofRun.edge_inverts isEntry inverts isEffect begins).mpr
        (tellable.obligation key entry isEntry inverts effect isEffect begins)

end LineageGraph

/-! ## The journals of runs -/

/-- A run's entries have different numbers. -/
theorem journalRange_strict (w : World) (runId : String) (fromSeq : Int) :
    (journalRange w runId fromSeq).Pairwise fun a b => a.seq < b.seq := by
  have sorted : (journalRange w runId fromSeq).Pairwise fun a b => a.seq ≤ b.seq := List.pairwise_insertionSort _ _
  have keys : (w.journal.rows.filter fun row => row.runId = runId && fromSeq ≤ row.seq).Pairwise fun a b =>
      a.pk ≠ b.pk := by
    have nodup := w.journal.nodup
    rw [List.Nodup, List.pairwise_map] at nodup
    exact nodup.sublist List.filter_sublist
  have different : (journalRange w runId fromSeq).Pairwise fun a b => a.pk ≠ b.pk :=
    (List.perm_insertionSort _ _).symm.pairwise keys fun apart same => apart same.symm
  refine (sorted.and different).imp_of_mem fun {a b} isA isB both => lt_of_le_of_ne both.1 fun same => both.2 ?_
  have sameRun : a.runId = b.runId := (mem_of_mem_journalRange isA).2.trans (mem_of_mem_journalRange isB).2.symm
  exact Prod.ext sameRun same

/-- The lineage of a run has the right edges exactly if its journal does not have both of the first two decisions, no
    effect outside of decisions begins behind the first one, and everything is behind what it came of. -/
theorem lineage_right_iff (runId : String) (dialect : Subjects.Dialect) (choices : List (Choice Call)) (named : runId ≠ "")
    (natural : ∀ entry ∈ history dialect choices runId, ∀ index, Decides index entry → 0 ≤ index) :
    RightEdges (upToLast (history dialect choices runId))
        (LineageGraph.fromRun runId (history dialect choices runId)).edges ↔
      Tellable (upToLast (history dialect choices runId)) := by
  have filed := run_filed (w := World.empty dialect) (fun entry isEntry => (List.not_mem_nil isEntry).elim) choices
  have ofRun : LineageGraph.OfRun (history dialect choices runId) := by
    refine ⟨journalRange_strict _ _ _, fun entry isEntry => written_of_mem_journalRange filed named isEntry, natural, ?_⟩
    intro index a isA aDecides b isB bDecides
    obtain ⟨aRow, aRun⟩ := mem_of_mem_journalRange isA
    obtain ⟨bRow, bRun⟩ := mem_of_mem_journalRange isB
    exact one_entry_per_decision dialect choices runId index aRow ⟨aRun, aDecides⟩ bRow ⟨bRun, bDecides⟩
  exact ofRun.rightEdges_iff runId

/-! ## The second decision is a root -/

instance (index : Int) (entry : EventEntry) : Decidable (Decides index entry) := inferInstanceAs (Decidable (_ ∧ _))

def decision (tid : Nat) (index : Int) : List (Choice Call) :=
  serve tid (.recordDecision "r" index "model" "{}" "{}" "" "" (10 * (index + 1)))

/-- A run of two decisions. -/
def decidedTwice : List (Choice Call) :=
  serve 0 (.beginRun 0 "app" "user" "s" "inv-1" {} "A" 60000 1 "r") ++ decision 1 0 ++ decision 2 1

theorem second_decision_rootless : ¬ RightEdges (upToLast (history .sqlite decidedTwice "r"))
    (LineageGraph.fromRun "r" (history .sqlite decidedTwice "r")).edges := by
  intro right
  have rootless : (LineageGraph.fromRun "r" (history .sqlite decidedTwice "r")).edges = [] := by decide +kernel
  have second : ∃ entry ∈ upToLast (history .sqlite decidedTwice "r"), Decides 1 entry := by decide +kernel
  have first : ∃ entry ∈ upToLast (history .sqlite decidedTwice "r"), Decides 0 entry := by decide +kernel
  obtain ⟨entry, isEntry, decides⟩ := second
  obtain ⟨before, isBefore, decides'⟩ := first
  have edge := right.decision 1 one_pos entry isEntry decides before isBefore decides'
  rw [rootless] at edge
  cases edge

theorem lineage_of_two_decisions : "r" ≠ "" ∧
    (∀ entry ∈ history .sqlite decidedTwice "r", ∀ index, Decides index entry → 0 ≤ index) ∧
    (RightEdges (upToLast (history .sqlite decidedTwice "r"))
        (LineageGraph.fromRun "r" (history .sqlite decidedTwice "r")).edges ↔
      Tellable (upToLast (history .sqlite decidedTwice "r"))) := by
  have natural : ∀ entry ∈ history .sqlite decidedTwice "r", ∀ index, Decides index entry → 0 ≤ index := by
    intro entry isEntry index decides
    have computed : ∀ entry ∈ history .sqlite decidedTwice "r", 0 ≤ entry.payload.intAt "decision_index" := by
      decide +kernel
    have natural := computed entry isEntry
    simp only [Json.intAt, decides.2] at natural
    exact natural
  exact ⟨by simp, natural, lineage_right_iff "r" .sqlite decidedTwice (by simp) natural⟩

end Tape.Chaos
