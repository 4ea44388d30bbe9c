import Tape.Bigtable.ReactionStore
import Tape.Bigtable.Segments

/-! # Row keys

Every record has a row, under a key that joins a tag and the ids of the record by `#`.  The ids are joined as
they are, so that one with a `#` of its own can be read as several.  Numbers are padded.
-/

namespace Tape.BigtableRunStore

open Bigtable Segments

/-! ## Padded numbers -/

section Pad

variable {width : Nat} {n a b : Int}

theorem toList_toString (n : Nat) : (toString n).toList = Nat.toDigits 10 n := Nat.toList_repr

theorem toList_pad_of_nonneg (nonneg : 0 ≤ n) :
    (pad width n).toList = zeros (width - (toString n.natAbs).length) n.natAbs := by
  rw [pad, if_neg (by omega), String.toList_append, String.toList_ofList, toList_toString]
  rfl

theorem toList_pad_of_neg (negative : n < 0) :
    (pad width n).toList = '-' :: zeros (width - 1 - (toString n.natAbs).length) n.natAbs := by
  simp only [pad, if_pos negative, String.toList_append, String.toList_ofList, toList_toString, zeros, List.append_assoc]
  exact List.singleton_append

theorem hash_not_mem_zeros (count n : Nat) : '#' ∉ zeros count n := by
  intro member
  have digit := List.all_eq_true.mp (all_zeros count n) '#' member
  cases digit

/-- A padded number is one segment. -/
theorem hash_not_mem_pad (width : Nat) (n : Int) : '#' ∉ (pad width n).toList := by
  by_cases negative : n < 0
  · rw [toList_pad_of_neg negative]
    simp [hash_not_mem_zeros]
  · rw [toList_pad_of_nonneg (by omega)]
    exact hash_not_mem_zeros _ _

variable (width n) in
theorem signed_pad : parseI64.signed (pad width n).toList = some n := by
  by_cases negative : n < 0
  · rw [toList_pad_of_neg negative]
    show (digits? (zeros _ n.natAbs)).map (fun (k : Nat) => -(k : Int)) = some n
    rw [digits?_zeros, Option.map_some]
    exact congrArg some (by omega)
  · rw [toList_pad_of_nonneg (by omega), signed_zeros]
    exact congrArg some (by omega)

variable (width) in
/-- It is parsed back. -/
theorem parseI64_pad (bound : inI64 n) : parseI64 (pad width n) = some n := by
  rw [parseI64, signed_pad, Option.filter_some, if_pos (by simpa using bound)]

theorem pad_injective (boundA : inI64 a) (boundB : inI64 b) (same : pad width a = pad width b) : a = b := by
  have parsed := parseI64_pad width boundA
  rw [same, parseI64_pad width boundB] at parsed
  exact (Option.some.inj parsed).symm

@[simp] theorem pad20_inj {a b : I64} : pad20 a = pad20 b ↔ a = b :=
  ⟨fun same => Subtype.ext (pad_injective a.2 b.2 same), fun same => by rw [same]⟩

@[simp] theorem pad10_inj {a b : I32} : pad10 a = pad10 b ↔ a = b :=
  ⟨fun same => Subtype.ext (pad_injective (inI64_of_inI32 a.2) (inI64_of_inI32 b.2) same), fun same => by rw [same]⟩

theorem length_pad (nonneg : 0 ≤ n) (bound : n < 10 ^ width) (pos : 0 < width) : (pad width n).toList.length = width := by
  have short : (toString n.natAbs).length ≤ width := by
    rw [← String.length_toList, toList_toString]
    refine (Nat.length_toDigits_le_iff (by omega) pos).mpr ?_
    have cast : ((10 ^ width : Nat) : Int) = 10 ^ width := by norm_cast
    omega
  rw [toList_pad_of_nonneg nonneg, zeros, List.length_append, List.length_replicate, ← toList_toString, String.length_toList]
  omega

/-- Numbers that fit are ordered as their texts are. -/
theorem pad_lt_iff (nonnegA : 0 ≤ a) (nonnegB : 0 ≤ b) (boundA : a < 10 ^ width) (boundB : b < 10 ^ width)
    (pos : 0 < width) : (pad width a).toList < (pad width b).toList ↔ a < b := by
  have same : (pad width a).toList.length = (pad width b).toList.length := by
    rw [length_pad nonnegA boundA pos, length_pad nonnegB boundB pos]
  rw [toList_pad_of_nonneg nonnegA, toList_pad_of_nonneg nonnegB] at same ⊢
  rw [lt_iff_ofDigitChars_lt (all_zeros _ _) (all_zeros _ _) same, ofDigitChars_zeros, ofDigitChars_zeros]
  omega

end Pad

/-! ## The keys -/

def rkIdx (app user session inv : String) : String := "idx#" ++ app ++ "#" ++ user ++ "#" ++ session ++ "#" ++ inv

def rkRoute (app user session : String) : String := "route#" ++ app ++ "#" ++ user ++ "#" ++ session

def rkDecision (runId : String) (i : Int) : String := "d#" ++ runId ++ "#" ++ pad20 i

def rkBudget (runId : String) : String := "b#" ++ runId

def rkSignal (runId gate : String) : String := "sig#" ++ runId ++ "#" ++ gate

def rkSession (app user session : String) : String := "sess#" ++ app ++ "#" ++ user ++ "#" ++ session

def rkEvent (app user session : String) (ord : Int) : String :=
  "ev#" ++ app ++ "#" ++ user ++ "#" ++ session ++ "#" ++ pad20 ord

def rkBusinessKey (connector businessKey : String) : String := "bk#" ++ connector ++ "#" ++ businessKey

def rkCursor (reactionId : String) (shard : Int) : String := "cursor#" ++ reactionId ++ "#" ++ pad10 shard

def rkTimer (runId timerId : String) : String := "tmr#" ++ runId ++ "#" ++ timerId

def rkValue (ns key : String) : String := "val#" ++ ns ++ "#" ++ key

/-- `key.trim_start_matches(tag)`. -/
def trimKey (tag key : String) : String := String.ofList (trimStartMatches tag.toList key.toList)

/-- A record, by what identifies it.  An effect is one of a run. -/
inductive RowId where
  | run (runId : String)
  | idx (app user session inv : String)
  | route (app user session : String)
  | decision (runId : String) (i : I64)
  | effect (runId key : String)
  | obligation (runId : String) (seq : I64)
  | budget (runId : String)
  | signal (runId gate : String)
  | session (app user session : String)
  | event (app user session : String) (ord : I64)
  | journal (runId : String) (seq : I64)
  | businessKey (connector businessKey : String)
  | journalGs (globalSeq : I64)
  | metaGlobalSeq
  | reaction (reactionId : String)
  | cursor (reactionId : String) (shard : I32)
  | task (taskId : String)
  | taskidx (reactionId : String) (shard : I32) (sourceGlobalSeq : I64)
  | pending (reactionId : String) (shard : I32) (taskId : String)
  | timer (runId timerId : String)
  | value (ns key : String)

namespace RowId

def key : RowId → String
  | run runId => rkRun runId
  | idx app user name inv => rkIdx app user name inv
  | route app user name => rkRoute app user name
  | decision runId i => rkDecision runId i
  | effect _ key => rkEffect key
  | obligation runId seq => rkObligation runId seq
  | budget runId => rkBudget runId
  | signal runId gate => rkSignal runId gate
  | session app user name => rkSession app user name
  | event app user name ord => rkEvent app user name ord
  | journal runId seq => rkJournal runId seq
  | businessKey connector name => rkBusinessKey connector name
  | journalGs globalSeq => rkJournalGs globalSeq
  | metaGlobalSeq => rkMetaGlobalSeq
  | reaction reactionId => rkReaction reactionId
  | cursor reactionId shard => rkCursor reactionId shard
  | task taskId => rkTask taskId
  | taskidx reactionId shard sourceGlobalSeq => rkTaskidx reactionId shard sourceGlobalSeq
  | pending reactionId shard taskId => rkPending reactionId shard taskId
  | timer runId timerId => rkTimer runId timerId
  | value ns key => rkValue ns key

/-- What a key begins with: it tells the kind of the record. -/
def tag : RowId → String
  | run .. => "r"
  | idx .. => "idx"
  | route .. => "route"
  | decision .. => "d"
  | effect .. => "e"
  | obligation .. => "o"
  | budget .. => "b"
  | signal .. => "sig"
  | session .. => "sess"
  | event .. => "ev"
  | journal .. => "j"
  | businessKey .. => "bk"
  | journalGs .. => "jg"
  | metaGlobalSeq => "meta"
  | reaction .. => "react"
  | cursor .. => "cursor"
  | task .. => "task"
  | taskidx .. => "taskidx"
  | pending .. => "pending"
  | timer .. => "tmr"
  | value .. => "val"

/-- The ids that are joined, in their order. -/
def ids : RowId → List String
  | run id | budget id | reaction id | task id => [id]
  | idx app user name inv => [app, user, name, inv]
  | route app user name | session app user name | event app user name _ => [app, user, name]
  | decision id _ | obligation id _ | journal id _ | cursor id _ | taskidx id _ _ => [id]
  | effect _ key => [key]
  | signal id other | businessKey id other | timer id other | value id other | pending id _ other => [id, other]
  | journalGs _ | metaGlobalSeq => []

/-- What follows them: numbers, and a name that is always the same. -/
def numbers : RowId → List String
  | decision _ n | obligation _ n | event _ _ _ n | journal _ n | journalGs n => [pad20 n]
  | cursor _ shard => [pad10 shard]
  | taskidx _ shard n => [pad10 shard, pad20 n]
  | metaGlobalSeq => ["global_seq"]
  | _ => []

/-- What is joined after the tag. -/
def fields : RowId → List String
  | pending reactionId shard taskId => [reactionId, pad10 shard, taskId]
  | id => id.ids ++ id.numbers

/-- The segments of a key after its tag. -/
def segments (id : RowId) : List (List Char) := Segments.segments '#' (id.fields.map String.toList)

theorem toList_key (id : RowId) : id.key.toList = join '#' (id.tag.toList :: id.fields.map String.toList) := by
  cases id <;> simp [key, rkRun, rkIdx, rkRoute, rkDecision, rkEffect, rkObligation, rkBudget, rkSignal, rkSession, rkEvent,
    rkJournal, rkBusinessKey, rkJournalGs, rkMetaGlobalSeq, rkReaction, rkCursor, rkTask, rkTaskidx, rkPending, rkTimer,
    rkValue, tag, fields, ids, numbers, join]

theorem hash_not_mem_tag (id : RowId) : '#' ∉ id.tag.toList := by
  cases id <;> simp [tag]

theorem splitOn_key (id : RowId) : id.key.toList.splitOn '#' = id.tag.toList :: id.segments := by
  rw [toList_key, splitOn_join (List.cons_ne_nil _ _), segments_cons, List.splitOn_eq_singleton (hash_not_mem_tag id)]
  rfl

/-- A key tells the kind of its record, and the segments of its ids. -/
theorem key_eq_iff {a b : RowId} : a.key = b.key ↔ a.tag = b.tag ∧ a.segments = b.segments := by
  constructor
  · intro same
    have split := splitOn_key a
    rw [same, splitOn_key b] at split
    obtain ⟨tags, rest⟩ := List.cons.inj split
    exact ⟨String.toList_inj.mp tags.symm, rest.symm⟩
  · rintro ⟨tags, rest⟩
    have split : a.key.toList.splitOn '#' = b.key.toList.splitOn '#' := by
      rw [splitOn_key, splitOn_key, tags, rest]
    exact String.toList_inj.mp (splitOn_injective split)

end RowId

end Tape.BigtableRunStore
