import Mathlib
import Tape.Subjects.Path

/-! # What a subject says

A subject is the path `/tape/<kind>/<verb>/<dim1>/<dim2>…` of a journal entry's kind, its
verb and its dimensions.  Every dimension goes through `encode_segment`, which confuses
the empty string with `_` and nothing else; the verb of a run, an obligation or a gate is
the entry's status in lower case and is not encoded.
-/

namespace Tape.Subjects

/-! ## Segments -/

/-- What may stand between two slashes of a subject. -/
def IsSegment (text : List Char) : Prop := text ≠ [] ∧ '/' ∉ text ∧ '*' ∉ text

/-- The same name, but that the empty one is written `_`. -/
def SameSegment (a b : String) : Prop := a = b ∨ (a = "" ∧ b = "_") ∨ (a = "_" ∧ b = "")

theorem SameSegment.refl (a : String) : SameSegment a a := .inl rfl

section Encode

/-- A byte percent-encoded, or kept as a character. -/
def escapeByte (escapes : UInt8 → Bool) (b : UInt8) : List Char :=
  if escapes b then ['%', hexDigit (b.toNat / 16), hexDigit (b.toNat % 16)] else [byteChar b]

theorem encodeSegment_empty : encodeSegment "" = "_" := rfl

theorem toList_encodeSegment {s : String} (nonempty : s ≠ "") :
    (encodeSegment s).toList = (asBytes s).flatMap (escapeByte needsEscape) := by
  rw [encodeSegment, if_neg (by simpa using nonempty), String.toList_ofList]
  rfl

theorem hexDigit_inj : ∀ n < 16, ∀ m < 16, hexDigit n = hexDigit m → n = m := by decide

section Code

variable {escapes other : UInt8 → Bool}

/-- A byte that is kept is not one of the characters that are escaped. -/
theorem byteChar_kept {b c : UInt8} (escaped : escapes c = true) (kept : escapes b = false) : byteChar b ≠ byteChar c := by
  intro same
  rw [byteChar_inj same, escaped] at kept
  cases kept

theorem escapeByte_ne_nil (b : UInt8) : escapeByte escapes b ≠ [] := by
  unfold escapeByte
  split <;> simp

/-- The codes of the bytes form a prefix code, and keep apart what is escaped from what is kept. -/
theorem escapeByte_cut (percent : escapes 0x25 = true) (percentOther : other 0x25 = true) {a b : UInt8} {x y : List Char}
    (same : escapeByte escapes a ++ x = escapeByte other b ++ y) : a = b ∧ escapes a = other b ∧ x = y := by
  unfold escapeByte at same
  split at same
  next escaped =>
    split at same
    next escapedOther =>
      simp only [List.cons_append, List.nil_append, List.cons.injEq, true_and] at same
      obtain ⟨high, low, rest⟩ := same
      have boundA := a.toNat_lt
      have boundB := b.toNat_lt
      have sameHigh := hexDigit_inj _ (by omega) _ (by omega) high
      have sameLow := hexDigit_inj _ (by omega) _ (by omega) low
      exact ⟨UInt8.toNat_inj.mp (by omega), by rw [escaped, escapedOther], rest⟩
    next kept =>
      simp only [List.cons_append, List.nil_append, List.cons.injEq] at same
      exact absurd same.1.symm (byteChar_kept percentOther (by simpa using kept))
  next kept =>
    split at same
    next =>
      simp only [List.cons_append, List.nil_append, List.cons.injEq] at same
      exact absurd same.1 (byteChar_kept percent (by simpa using kept))
    next keptOther =>
      simp only [List.cons_append, List.nil_append, List.cons.injEq] at same
      exact ⟨byteChar_inj same.1, by simp_all, same.2⟩

/-- Two texts have one code exactly if they are one text, all of whose bytes both codes treat alike. -/
theorem escapeBytes_eq_iff (percent : escapes 0x25 = true) (percentOther : other 0x25 = true) {a b : List UInt8} :
    a.flatMap (escapeByte escapes) = b.flatMap (escapeByte other) ↔ a = b ∧ ∀ byte ∈ a, escapes byte = other byte := by
  induction a generalizing b with
  | nil => cases b <;> simp [escapeByte_ne_nil]
  | cons byte a inductionHypothesis =>
    cases b with
    | nil => simp [escapeByte_ne_nil]
    | cons second b =>
      rw [List.flatMap_cons, List.flatMap_cons, List.cons.injEq, List.forall_mem_cons]
      constructor
      · intro same
        obtain ⟨rfl, alike, rest⟩ := escapeByte_cut percent percentOther same
        obtain ⟨rfl, others⟩ := inductionHypothesis.mp rest
        exact ⟨⟨rfl, rfl⟩, alike, others⟩
      · rintro ⟨⟨rfl, rfl⟩, alike, others⟩
        rw [inductionHypothesis.mpr ⟨rfl, others⟩, escapeByte, escapeByte, alike]

/-- An escaped character does not occur in the code. -/
theorem not_mem_escapeBytes {c : UInt8} (escaped : escapes c = true) (notPercent : byteChar c ≠ '%')
    (notHex : ∀ n < 16, hexDigit n ≠ byteChar c) (bytes : List UInt8) :
    byteChar c ∉ bytes.flatMap (escapeByte escapes) := by
  intro member
  obtain ⟨b, -, inCode⟩ := List.mem_flatMap.mp member
  have bound := b.toNat_lt
  unfold escapeByte at inCode
  split at inCode
  next =>
    have high := notHex (b.toNat / 16) (by omega)
    have low := notHex (b.toNat % 16) (by omega)
    simp [notPercent, Ne.symm high, Ne.symm low] at inCode
  next kept =>
    rw [Bool.not_eq_true] at kept
    exact byteChar_kept escaped kept (List.mem_singleton.mp inCode).symm

/-- With slash and star escaped the code may stand between two slashes. -/
theorem clean_escapeBytes (slash : escapes 0x2f = true) (star : escapes 0x2a = true) (bytes : List UInt8) :
    '/' ∉ bytes.flatMap (escapeByte escapes) ∧ '*' ∉ bytes.flatMap (escapeByte escapes) :=
  ⟨not_mem_escapeBytes (c := 0x2f) slash (by decide) (by decide) bytes,
    not_mem_escapeBytes (c := 0x2a) star (by decide) (by decide) bytes⟩

end Code

theorem encodeBytes_inj {a b : List UInt8}
    (same : a.flatMap (escapeByte needsEscape) = b.flatMap (escapeByte needsEscape)) : a = b :=
  ((escapeBytes_eq_iff rfl rfl).mp same).1

theorem encodeSegment_eq_underscore {s : String} (nonempty : s ≠ "") : encodeSegment s = "_" ↔ s = "_" := by
  have underscore : (encodeSegment "_").toList = ['_'] := by decide +kernel
  constructor
  · intro same
    have codes : (asBytes s).flatMap (escapeByte needsEscape) = (asBytes "_").flatMap (escapeByte needsEscape) := by
      rw [← toList_encodeSegment nonempty, ← toList_encodeSegment (by decide), same, underscore]
      rfl
    exact asBytes_inj (encodeBytes_inj codes)
  · rintro rfl
    exact String.toList_inj.mp underscore

theorem encodeSegment_eq_iff (a b : String) : encodeSegment a = encodeSegment b ↔ SameSegment a b := by
  by_cases emptyA : a = ""
  · by_cases emptyB : b = ""
    · simp [emptyA, emptyB, SameSegment]
    · rw [emptyA, encodeSegment_empty, eq_comm, encodeSegment_eq_underscore emptyB]
      simp [SameSegment, Ne.symm emptyB]
  · by_cases emptyB : b = ""
    · rw [emptyB, encodeSegment_empty, encodeSegment_eq_underscore emptyA]
      simp [SameSegment, emptyA]
    · have codes : encodeSegment a = encodeSegment b ↔ a = b := by
        constructor
        · intro same
          rw [← String.toList_inj, toList_encodeSegment emptyA, toList_encodeSegment emptyB] at same
          exact asBytes_inj (encodeBytes_inj same)
        · exact congrArg encodeSegment
      rw [codes]
      simp [SameSegment, emptyA, emptyB]

theorem isSegment_encodeSegment (s : String) : IsSegment (encodeSegment s).toList := by
  by_cases empty : s = ""
  · subst empty
    simp [encodeSegment_empty, IsSegment]
  rw [toList_encodeSegment empty, IsSegment]
  refine ⟨?_, clean_escapeBytes rfl rfl (asBytes s)⟩
  intro isEmpty
  have none_ : asBytes s = asBytes "" := encodeBytes_inj isEmpty
  exact empty (asBytes_inj none_)

end Encode

/-! ## Kinds -/

/-- The kinds of journal entries that `derive` knows. -/
inductive Kind where
  | run | decision | effect | obligation | gate | value | event
  deriving DecidableEq, Repr

namespace Kind

def name : Kind → String
  | run => "run"
  | decision => "decision"
  | effect => "effect"
  | obligation => "obligation"
  | gate => "gate"
  | value => "value"
  | event => "event"

/-- How many segments follow the leading slash, by the table of the design. -/
def segmentCount : Kind → Nat
  | run => 7
  | event => 6
  | _ => 5

/-- The flag of a value's entry. -/
def isDeleted (payload : Json) : Bool :=
  match payload.get? "deleted" with
  | some (.bool flag) => flag
  | _ => false

/-- What stands after the kind. -/
def verb (toLowercase : String → String) (kind : Kind) (payload : Json) : String :=
  let status := toLowercase (payload.strAt "status")
  match kind with
  | run => status
  | decision => "recorded"
  | effect => if status ∈ ["pending", "confirmed", "failed", "unknown", "reconciled"] then status else "pending"
  | obligation => if status.isEmpty then "registered" else status
  | gate => if status.isEmpty then "waiting" else status
  | value => if isDeleted payload then "deleted" else "changed"
  | event => "appended"

/-- The names a subject is about. -/
def names (kind : Kind) (payload : Json) : List String :=
  match kind with
  | run => [payload.strAt "app", payload.strAt "user", payload.strAt "session", payload.strAt "run_id"]
  | decision => [payload.strAt "run_id"]
  | effect => [payload.strAt "tool", payload.strAt "run_id"]
  | obligation => [payload.strAt "kind", payload.strAt "run_id"]
  | gate => [payload.strAt "gate", payload.strAt "run_id"]
  | value => [(valueDims payload).1, (valueDims payload).2]
  | event => [payload.strAt "app", payload.strAt "user", payload.strAt "session"]

/-- The number a decision's subject ends in. -/
def index (kind : Kind) (payload : Json) : Option Int :=
  match kind with
  | decision => some (payload.intAt "decision_index")
  | _ => none

/-- The dimension fields of a payload: the status as it is written, or whether a value was deleted,
    and the names. -/
def dimensions (kind : Kind) (payload : Json) : List String :=
  match kind with
  | run | effect | obligation | gate => payload.strAt "status" :: kind.names payload
  | value => (if isDeleted payload then "deleted" else "changed") :: kind.names payload
  | decision | event => kind.names payload

/-- The status becomes a segment: in lower case it has no slash and no star, and a run's is not empty. -/
def StatusFits (toLowercase : String → String) (kind : Kind) (payload : Json) : Prop :=
  let status := (toLowercase (payload.strAt "status")).toList
  match kind with
  | run => IsSegment status
  | obligation | gate => '/' ∉ status ∧ '*' ∉ status
  | _ => True

/-- The statuses of two payloads have one verb: they differ by case, or both stand for the verb that
    the code takes when it knows none. -/
def SameVerb (toLowercase : String → String) (kind : Kind) (p q : Json) : Prop :=
  let a := toLowercase (p.strAt "status")
  let b := toLowercase (q.strAt "status")
  match kind with
  | run => a = b
  | effect => a = b ∨ ∀ verb ∈ ["confirmed", "failed", "unknown", "reconciled"], a ≠ verb ∧ b ≠ verb
  | obligation => a = b ∨ (a = "" ∧ b = "registered") ∨ (a = "registered" ∧ b = "")
  | gate => a = b ∨ (a = "" ∧ b = "waiting") ∨ (a = "waiting" ∧ b = "")
  | value => isDeleted p = isDeleted q
  | decision | event => True

/-- Two payloads that differ, but no further than the status by case or by having no verb of its own,
    and a name by being empty or `_`. -/
def Confused (toLowercase : String → String) (kind : Kind) (p q : Json) : Prop :=
  kind.dimensions p ≠ kind.dimensions q ∧ kind.SameVerb toLowercase p q ∧
    List.Forall₂ SameSegment (kind.names p) (kind.names q) ∧ kind.index p = kind.index q

end Kind

section Derive

variable {toLowercase : String → String} {kind : Kind} {p q : Json}

/-- The segments after the verb. -/
def tailSegments (kind : Kind) (payload : Json) : List (List Char) :=
  ((kind.names payload).map fun name => (encodeSegment name).toList) ++
    (kind.index payload).toList.map fun index => (toString index).toList

theorem tailSegments_ne_nil (kind : Kind) (payload : Json) : tailSegments kind payload ≠ [] := by
  cases kind <;> simp [tailSegments, Kind.names]

theorem joinSlash_cons (segment : List Char) {segments : List (List Char)} (some_ : segments ≠ []) :
    joinSlash (segment :: segments) = segment ++ '/' :: joinSlash segments := by
  obtain ⟨next, others, rfl⟩ := List.exists_cons_of_ne_nil some_
  rfl

/-- The path that `derive` builds. -/
theorem derive_path (toLowercase : String → String) (kind : Kind) (payload : Json) :
    (deriveWith toLowercase kind.name payload).toList = joinSlash ([] :: "tape".toList :: kind.name.toList ::
      (kind.verb toLowercase payload).toList :: tailSegments kind payload) := by
  cases kind with
  | value =>
    by_cases deleted : payload.get? "deleted" = some (.bool true)
    · have isDeleted : Kind.isDeleted payload = true := by simp [Kind.isDeleted, deleted]
      simp [deriveWith, Kind.name, Kind.verb, deleted, isDeleted, tailSegments, Kind.names, Kind.index, joinSlash]
      rfl
    · have isDeleted : Kind.isDeleted payload = false := by
        unfold Kind.isDeleted
        split <;> simp_all
      simp only [deriveWith, Kind.name, Kind.verb, isDeleted, String.reduceEq, if_false, if_true, Bool.false_eq_true]
      simp [tailSegments, Kind.names, Kind.index, joinSlash]
      rfl
  | _ => simp [deriveWith, Kind.name, Kind.verb, tailSegments, Kind.names, Kind.index, joinSlash]

/-- A number has digits, and perhaps a sign. -/
theorem isSegment_toString (n : Int) : IsSegment (toString n).toList := by
  have digits : ∀ m : Nat, IsSegment m.repr.toList := by
    intro m
    have isDigit : ∀ c ∈ Nat.toDigits 10 m, c.isDigit = true :=
      fun c member => Nat.isDigit_of_mem_toDigits (by decide) (by decide) member
    rw [Nat.toList_repr]
    exact ⟨Nat.toDigits_ne_nil, fun member => absurd (isDigit _ member) (by decide),
      fun member => absurd (isDigit _ member) (by decide)⟩
  rw [Int.toString_eq_repr, Int.repr_eq_if]
  split
  · exact digits _
  · have plain := digits (-n).toNat
    rw [String.toList_append]
    exact ⟨by simp, by simpa using plain.2.1, by simpa using plain.2.2⟩

theorem isSegment_tailSegments (kind : Kind) (payload : Json) :
    ∀ segment ∈ tailSegments kind payload, IsSegment segment := by
  intro segment member
  simp only [tailSegments, List.mem_append, List.mem_map, Option.mem_toList] at member
  rcases member with ⟨name, -, rfl⟩ | ⟨index, -, rfl⟩
  · exact isSegment_encodeSegment name
  · exact isSegment_toString index

theorem length_tailSegments (kind : Kind) (payload : Json) :
    (tailSegments kind payload).length + 3 = kind.segmentCount := by
  cases kind <;> rfl

/-- A text before the last segments may hold slashes of its own. -/
theorem splitSlash_before (text : List Char) {segments : List (List Char)} (some_ : segments ≠ [])
    (clean : ∀ segment ∈ segments, '/' ∉ segment) :
    splitSlash (joinSlash (text :: segments)) = splitSlash text ++ segments := by
  rw [joinSlash_cons text some_]
  induction text using segments_induction with
  | last whole plain =>
    rw [splitSlash_append plain, splitSlash_of_clean plain, splitSlash_joinSlash some_ clean]
    rfl
  | more first rest plain inductionHypothesis =>
    rw [List.append_assoc, List.cons_append, splitSlash_append plain, splitSlash_append plain, inductionHypothesis]
    rfl

/-- The segments of a derived subject. -/
theorem splitSlash_derive (toLowercase : String → String) (kind : Kind) (payload : Json) :
    splitSlash (deriveWith toLowercase kind.name payload).toList =
      [] :: "tape".toList :: kind.name.toList ::
        (splitSlash (kind.verb toLowercase payload).toList ++ tailSegments kind payload) := by
  have clean : ∀ segment ∈ tailSegments kind payload, '/' ∉ segment :=
    fun segment member => (isSegment_tailSegments kind payload segment member).2.1
  have cleanKind : '/' ∉ kind.name.toList := by cases kind <;> decide
  rw [derive_path, joinSlash_cons _ (by simp), joinSlash_cons _ (by simp), joinSlash_cons _ (by simp),
    List.nil_append, splitSlash_slash, splitSlash_append (by decide), splitSlash_append cleanKind,
    splitSlash_before _ (tailSegments_ne_nil kind payload) clean]

/-- The segments after the leading slash are as many as documented, and each is one. -/
def WellFormed (kind : Kind) (subject : String) : Prop :=
  ∃ segments, splitSlash subject.toList = [] :: segments ∧ segments.length = kind.segmentCount ∧
    ∀ segment ∈ segments, IsSegment segment

/-- A label of the store's own, or in its absence a verb of the code's. -/
theorem isSegment_orElse {status verb : String} (fits : IsSegment verb.toList) :
    IsSegment (if status.isEmpty then verb else status).toList ↔ '/' ∉ status.toList ∧ '*' ∉ status.toList := by
  by_cases empty : status = ""
  · simp [empty, fits]
  · simp [empty, IsSegment]

theorem isSegment_verb_iff (toLowercase : String → String) (kind : Kind) (payload : Json) :
    IsSegment (kind.verb toLowercase payload).toList ↔ kind.StatusFits toLowercase payload := by
  cases kind with
  | run => rfl
  | decision | event => simp [Kind.verb, Kind.StatusFits, IsSegment]
  | effect =>
    simp only [Kind.verb, Kind.StatusFits, iff_true]
    split
    next label =>
      simp only [List.mem_cons, List.not_mem_nil, or_false] at label
      rcases label with label | label | label | label | label <;> simp [label, IsSegment]
    next => simp [IsSegment]
  | obligation | gate => exact isSegment_orElse (by simp [IsSegment])
  | value =>
    simp only [Kind.verb, Kind.StatusFits, iff_true]
    split <;> simp [IsSegment]

/-- Where the status fits, the verb is one segment. -/
theorem splitSlash_of_fits {toLowercase : String → String} {kind : Kind} {payload : Json}
    (fits : kind.StatusFits toLowercase payload) :
    splitSlash (deriveWith toLowercase kind.name payload).toList = [] :: "tape".toList :: kind.name.toList ::
      (kind.verb toLowercase payload).toList :: tailSegments kind payload := by
  have segment := (isSegment_verb_iff toLowercase kind payload).mpr fits
  rw [splitSlash_derive, splitSlash_of_clean segment.2.1]
  rfl

theorem wellFormed_derive_iff (toLowercase : String → String) (kind : Kind) (payload : Json) :
    WellFormed kind (deriveWith toLowercase kind.name payload) ↔ kind.StatusFits toLowercase payload := by
  rw [← isSegment_verb_iff, WellFormed, splitSlash_derive]
  constructor
  · rintro ⟨segments, isSplit, count, fit⟩
    obtain ⟨-, rfl⟩ := List.cons.inj isSplit
    have lengths := length_tailSegments kind payload
    simp only [List.length_cons, List.length_append, length_splitSlash] at count
    have clean : '/' ∉ (kind.verb toLowercase payload).toList := List.count_eq_zero.mp (by omega)
    refine fit _ ?_
    simp [splitSlash_of_clean clean]
  · intro fit
    refine ⟨_, rfl, ?_, ?_⟩
    · simp [splitSlash_of_clean fit.2.1, ← length_tailSegments kind payload]
    · have nameFits : IsSegment kind.name.toList := by cases kind <;> simp [IsSegment, Kind.name]
      have tapeFits : IsSegment "tape".toList := by simp [IsSegment]
      intro segment member
      simp only [splitSlash_of_clean fit.2.1, List.mem_cons, List.mem_append, List.not_mem_nil, or_false] at member
      rcases member with rfl | rfl | rfl | member
      · exact tapeFits
      · exact nameFits
      · exact fit
      · exact isSegment_tailSegments kind payload segment member

theorem tailSegments_eq_iff (kind : Kind) (p q : Json) :
    tailSegments kind p = tailSegments kind q ↔
      List.Forall₂ SameSegment (kind.names p) (kind.names q) ∧ kind.index p = kind.index q := by
  have names : ∀ a b : List String,
      (a.map fun name => (encodeSegment name).toList) = (b.map fun name => (encodeSegment name).toList) ↔
        List.Forall₂ SameSegment a b := by
    intro a b
    rw [← List.forall₂_eq_eq_eq, List.forall₂_map_left_iff, List.forall₂_map_right_iff]
    simp only [String.toList_inj, encodeSegment_eq_iff]
  have numbers : ∀ a b : Option Int,
      (a.toList.map fun index => (toString index).toList) = (b.toList.map fun index => (toString index).toList) ↔
        a = b := by
    intro a b
    cases a <;> cases b <;> simp [String.toList_inj, Int.repr_inj]
  have lengths : ((kind.names p).map fun name => (encodeSegment name).toList).length =
      ((kind.names q).map fun name => (encodeSegment name).toList).length := by
    cases kind <;> rfl
  rw [← names, ← numbers]
  exact ⟨fun same => List.append_inj same lengths, fun same => congrArg₂ (· ++ ·) same.1 same.2⟩

/-- Two payloads of one kind share a subject exactly when verb, names and index say the same. -/
theorem derive_eq_iff (toLowercase : String → String) (kind : Kind) (p q : Json) :
    deriveWith toLowercase kind.name p = deriveWith toLowercase kind.name q ↔
      kind.verb toLowercase p = kind.verb toLowercase q ∧
        List.Forall₂ SameSegment (kind.names p) (kind.names q) ∧ kind.index p = kind.index q := by
  rw [← tailSegments_eq_iff]
  constructor
  · intro same
    have parts := congrArg (fun subject => splitSlash subject.toList) same
    simp only [splitSlash_derive, List.cons.injEq, true_and] at parts
    have lengths : (tailSegments kind p).length = (tailSegments kind q).length := by
      have lengthP := length_tailSegments kind p
      have lengthQ := length_tailSegments kind q
      omega
    obtain ⟨verbs, tails⟩ := List.append_inj' parts lengths
    exact ⟨String.toList_inj.mp (splitSlash_inj verbs), tails⟩
  · rintro ⟨verbs, tails⟩
    rw [← String.toList_inj, derive_path, derive_path, verbs, tails]

theorem orElse_eq_iff {a b verb : String} (nonempty : verb ≠ "") :
    (if a.isEmpty then verb else a) = (if b.isEmpty then verb else b) ↔
      a = b ∨ (a = "" ∧ b = verb) ∨ (a = verb ∧ b = "") := by
  by_cases emptyA : a = ""
  · by_cases emptyB : b = ""
    · simp [emptyA, emptyB]
    · simp [emptyA, emptyB, Ne.symm emptyB, Ne.symm nonempty]
      exact eq_comm
  · by_cases emptyB : b = ""
    · simp [emptyA, emptyB, nonempty]
    · simp [emptyA, emptyB]

theorem verb_eq_iff (toLowercase : String → String) (kind : Kind) (p q : Json) :
    kind.verb toLowercase p = kind.verb toLowercase q ↔ kind.SameVerb toLowercase p q := by
  cases kind with
  | run => rfl
  | decision | event => simp [Kind.verb, Kind.SameVerb]
  | effect =>
    simp only [Kind.verb, Kind.SameVerb]
    generalize toLowercase (p.strAt "status") = a
    generalize toLowercase (q.strAt "status") = b
    simp only [List.mem_cons, List.not_mem_nil, or_false, forall_eq_or_imp, forall_eq]
    split <;> split <;> grind
  | obligation | gate => exact orElse_eq_iff (by decide)
  | value =>
    simp only [Kind.verb, Kind.SameVerb]
    cases Kind.isDeleted p <;> cases Kind.isDeleted q <;> simp

/-- A derived subject has the documented segments exactly when the status fits one; two payloads with
    different dimensions have different subjects exactly when they are not confused; and the encoding
    confuses the empty string with `_` and nothing else. -/
theorem subjects_identify_iff (toLowercase : String → String) (kind : Kind) :
    (∀ p, WellFormed kind (deriveWith toLowercase kind.name p) ↔ kind.StatusFits toLowercase p) ∧
    (∀ p q, (kind.dimensions p ≠ kind.dimensions q →
        deriveWith toLowercase kind.name p ≠ deriveWith toLowercase kind.name q) ↔
      ¬ kind.Confused toLowercase p q) ∧
    ∀ a b, (encodeSegment a = encodeSegment b → a = b) ↔ ¬ ((a = "" ∧ b = "_") ∨ (a = "_" ∧ b = "")) := by
  refine ⟨wellFormed_derive_iff toLowercase kind, fun p q => ?_, fun a b => ?_⟩
  · rw [Kind.Confused, ← verb_eq_iff, ← derive_eq_iff]
    tauto
  · rw [encodeSegment_eq_iff, SameSegment]
    constructor
    · intro injective confused
      have same := injective (.inr confused)
      rcases confused with ⟨rfl, rfl⟩ | ⟨rfl, rfl⟩
      · exact absurd same (by decide)
      · exact absurd same (by decide)
    · intro apart same
      exact same.resolve_right apart

/-- The writes of the keys `""` and `"_"` have one subject, and the entry of a compaction, which has no
    status, an empty segment. -/
theorem subjects_confused :
    derive "value" (.obj [("namespace", .str "billing"), ("key", .str "")]) =
      derive "value" (.obj [("namespace", .str "billing"), ("key", .str "_")]) ∧
    Kind.dimensions .value (.obj [("namespace", .str "billing"), ("key", .str "")]) ≠
      Kind.dimensions .value (.obj [("namespace", .str "billing"), ("key", .str "_")]) ∧
    encodeSegment "" = encodeSegment "_" ∧
    ¬ WellFormed .run (derive "run" (.obj [("run_id", .str "r"), ("compacted_at_ms", .int 2000),
      ("decisions_zeroed", .int 0), ("effects_zeroed", .int 0), ("bytes_saved", .int 0)])) := by
  refine ⟨by decide +kernel, by decide +kernel, by decide +kernel, ?_⟩
  intro wellFormed
  have fits := (wellFormed_derive_iff String.toLower .run _).mp wellFormed
  exact fits.1 (by decide +kernel)

end Derive

end Tape.Subjects
