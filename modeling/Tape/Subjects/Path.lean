import Mathlib.Data.List.Count
import Tape.Subjects

/-! # Paths and bytes

`split('/')` and the byte view of a string, as far as the proofs about subjects and
patterns need them.
-/

namespace Tape.Subjects

/-! ## Segments -/

theorem splitSlash_ne_nil (text : List Char) : splitSlash text ≠ [] := by
  cases text with
  | nil => simp [splitSlash]
  | cons c rest =>
    rw [splitSlash]
    split
    · simp
    · split <;> simp

theorem splitSlash_slash (rest : List Char) : splitSlash ('/' :: rest) = [] :: splitSlash rest := by
  simp [splitSlash]

theorem splitSlash_cons {c : Char} (other : c ≠ '/') {segment : List Char} {rest : List Char}
    {segments : List (List Char)} (isSplit : splitSlash rest = segment :: segments) :
    splitSlash (c :: rest) = (c :: segment) :: segments := by
  rw [splitSlash, if_neg other, isSplit]

theorem splitSlash_append {segment : List Char} (clean : '/' ∉ segment) (rest : List Char) :
    splitSlash (segment ++ '/' :: rest) = segment :: splitSlash rest := by
  induction segment with
  | nil => exact splitSlash_slash rest
  | cons c segment inductionHypothesis =>
    rw [List.mem_cons, not_or] at clean
    exact splitSlash_cons (Ne.symm clean.1) (inductionHypothesis clean.2)

theorem splitSlash_of_clean {segment : List Char} (clean : '/' ∉ segment) : splitSlash segment = [segment] := by
  induction segment with
  | nil => rfl
  | cons c segment inductionHypothesis =>
    rw [List.mem_cons, not_or] at clean
    exact splitSlash_cons (Ne.symm clean.1) (inductionHypothesis clean.2)

/-- A text is one segment, or a segment, a slash and the rest. -/
theorem split_cases (text : List Char) :
    '/' ∉ text ∨ ∃ segment rest, text = segment ++ '/' :: rest ∧ '/' ∉ segment := by
  induction text with
  | nil => exact .inl (List.not_mem_nil)
  | cons c text inductionHypothesis =>
    by_cases isSlash : c = '/'
    · exact .inr ⟨[], text, by rw [isSlash, List.nil_append], List.not_mem_nil⟩
    · rcases inductionHypothesis with clean | ⟨segment, rest, rfl, clean⟩
      · exact .inl (by simp [Ne.symm isSlash, clean])
      · exact .inr ⟨c :: segment, rest, rfl, by simp [Ne.symm isSlash, clean]⟩

/-- Induction along the segments of a text. -/
theorem segments_induction {motive : List Char → Prop} (last : ∀ segment, '/' ∉ segment → motive segment)
    (more : ∀ segment rest, '/' ∉ segment → motive rest → motive (segment ++ '/' :: rest)) (text : List Char) :
    motive text := by
  induction h : text.length using Nat.strong_induction_on generalizing text with
  | _ n inductionHypothesis =>
    rcases split_cases text with clean | ⟨segment, rest, rfl, clean⟩
    · exact last text clean
    · refine more segment rest clean (inductionHypothesis rest.length ?_ rest rfl)
      simp only [List.length_append, List.length_cons] at h
      omega

theorem clean_of_mem_splitSlash {text segment : List Char} (member : segment ∈ splitSlash text) : '/' ∉ segment := by
  induction text using segments_induction with
  | last whole clean =>
    rw [splitSlash_of_clean clean, List.mem_singleton] at member
    rwa [member]
  | more first rest clean inductionHypothesis =>
    rw [splitSlash_append clean, List.mem_cons] at member
    rcases member with rfl | member
    · exact clean
    · exact inductionHypothesis member

theorem length_splitSlash (text : List Char) : (splitSlash text).length = text.count '/' + 1 := by
  induction text using segments_induction with
  | last whole clean => rw [splitSlash_of_clean clean, List.count_eq_zero.mpr clean]; rfl
  | more first rest clean inductionHypothesis =>
    rw [splitSlash_append clean, List.length_cons, inductionHypothesis, List.count_append, List.count_cons_self,
      List.count_eq_zero.mpr clean, Nat.zero_add]

/-- Segments joined by slashes. -/
def joinSlash : List (List Char) → List Char
  | [] => []
  | [segment] => segment
  | segment :: segments => segment ++ '/' :: joinSlash segments

theorem splitSlash_joinSlash {segments : List (List Char)} (some_ : segments ≠ [])
    (clean : ∀ segment ∈ segments, '/' ∉ segment) : splitSlash (joinSlash segments) = segments := by
  induction segments with
  | nil => exact absurd rfl some_
  | cons segment segments inductionHypothesis =>
    have cleanHead := clean segment List.mem_cons_self
    cases segments with
    | nil => exact splitSlash_of_clean cleanHead
    | cons next segments =>
      rw [joinSlash, splitSlash_append cleanHead, inductionHypothesis (by simp)]
      · exact fun other member => clean other (List.mem_cons_of_mem _ member)
      · simp

theorem joinSlash_splitSlash (text : List Char) : joinSlash (splitSlash text) = text := by
  induction text using segments_induction with
  | last whole clean => rw [splitSlash_of_clean clean]; rfl
  | more first rest clean inductionHypothesis =>
    rw [splitSlash_append clean]
    obtain ⟨segment, segments, isSplit⟩ := List.exists_cons_of_ne_nil (splitSlash_ne_nil rest)
    rw [isSplit, joinSlash, ← isSplit, inductionHypothesis]
    simp

theorem splitSlash_inj {a b : List Char} (same : splitSlash a = splitSlash b) : a = b := by
  rw [← joinSlash_splitSlash a, same, joinSlash_splitSlash]

/-! ## Patterns without inner wildcards -/

section Literal

/-- A token that only its own text matches. -/
def IsLiteral (token : List Char) : Prop := token ≠ ['*'] ∧ token ≠ ['*', '*']

theorem isLiteral_of_clean {token : List Char} (noStar : '*' ∉ token) : IsLiteral token := by
  constructor
  · intro star
    exact noStar (by simp [star])
  · intro rest
    exact noStar (by simp [rest])

variable {tokens : List (List Char)} (literal : ∀ token ∈ tokens, IsLiteral token)

include literal

theorem matchTokens_literal (segments : List (List Char)) : matchTokens tokens segments ↔ tokens = segments := by
  induction tokens generalizing segments with
  | nil => cases segments <;> simp [matchTokens]
  | cons token tokens inductionHypothesis =>
    obtain ⟨notStar, notRest⟩ := literal token List.mem_cons_self
    have rest := inductionHypothesis fun other member => literal other (List.mem_cons_of_mem _ member)
    cases segments with
    | nil => simp [matchTokens, notRest]
    | cons segment segments =>
      by_cases same : token = segment
      · subst same
        simp [matchTokens, notRest, rest]
      · simp [matchTokens, notRest, notStar, same]

/-- Tokens in front of a pattern are in front of what it matches. -/
theorem prefix_of_matchTokens {rest segments : List (List Char)} (matched : matchTokens (tokens ++ rest) segments) :
    tokens <+: segments := by
  induction tokens generalizing segments with
  | nil => exact List.nil_prefix
  | cons token tokens inductionHypothesis =>
    obtain ⟨notStar, notRest⟩ := literal token List.mem_cons_self
    cases segments with
    | nil => simp [matchTokens, notRest] at matched
    | cons segment segments =>
      simp only [List.cons_append, matchTokens, notRest, notStar, if_false, decide_false, Bool.false_or,
        decide_eq_true_eq] at matched
      split at matched
      next same =>
        have behind := inductionHypothesis (fun other member => literal other (List.mem_cons_of_mem _ member)) matched
        rw [same]
        exact List.cons_prefix_cons.mpr ⟨rfl, behind⟩
      next => cases matched

/-- With `**` behind them the tokens are a prefix of what they match. -/
theorem matchTokens_literal_rest (segments : List (List Char)) :
    matchTokens (tokens ++ [['*', '*']]) segments ↔ tokens <+: segments := by
  induction tokens generalizing segments with
  | nil => simp [matchTokens]
  | cons token tokens inductionHypothesis =>
    obtain ⟨notStar, notRest⟩ := literal token List.mem_cons_self
    have rest := inductionHypothesis fun other member => literal other (List.mem_cons_of_mem _ member)
    cases segments with
    | nil => simp [matchTokens, notRest]
    | cons segment segments =>
      by_cases same : token = segment
      · subst same
        simp [matchTokens, notRest, rest]
      · simp [matchTokens, notRest, notStar, same]

end Literal

section Path

variable {segments : List (List Char)} (some_ : segments ≠ []) (clean : ∀ segment ∈ segments, '/' ∉ segment)
  (literal : ∀ segment ∈ segments, IsLiteral segment) (subject : String)

include some_ clean literal

/-- A pattern without wildcards matches the subject it spells. -/
theorem matches_path : «matches» (String.ofList (joinSlash ([] :: segments))) subject ↔
    splitSlash subject.toList = [] :: segments := by
  have isSplit : splitSlash (joinSlash ([] :: segments)) = [] :: segments :=
    splitSlash_joinSlash (by simp) (by simpa using clean)
  have nonempty : (String.ofList (joinSlash ([] :: segments))).isEmpty = false := by
    obtain ⟨segment, others, rfl⟩ := List.exists_cons_of_ne_nil some_
    simp [joinSlash]
  have spelled : ∀ segment ∈ [] :: segments, IsLiteral segment := by simpa [IsLiteral] using literal
  have walk := matchTokens_literal spelled (splitSlash subject.toList)
  rw [«matches», nonempty, Bool.false_or, String.toList_ofList, isSplit, walk]
  exact eq_comm

/-- A path with `**` behind it matches the subjects that start with it. -/
theorem matches_path_rest : «matches» (String.ofList (joinSlash ([] :: segments ++ [['*', '*']]))) subject ↔
    [] :: segments <+: splitSlash subject.toList := by
  have isSplit : splitSlash (joinSlash ([] :: segments ++ [['*', '*']])) = [] :: segments ++ [['*', '*']] := by
    refine splitSlash_joinSlash (by simp) ?_
    intro segment member
    simp only [List.cons_append, List.mem_cons, List.mem_append, List.not_mem_nil, or_false] at member
    rcases member with rfl | member | rfl
    · simp
    · exact clean segment member
    · decide
  have nonempty : (String.ofList (joinSlash ([] :: segments ++ [['*', '*']]))).isEmpty = false := by
    obtain ⟨segment, others, rfl⟩ := List.exists_cons_of_ne_nil some_
    simp [joinSlash]
  have spelled : ∀ segment ∈ [] :: segments, IsLiteral segment := by simpa [IsLiteral] using literal
  have walk := matchTokens_literal_rest spelled (splitSlash subject.toList)
  rw [«matches», nonempty, Bool.false_or, String.toList_ofList, isSplit, walk]

end Path

/-! ## Bytes -/

@[simp] theorem toNat_byteChar (b : UInt8) : (byteChar b).toNat = b.toNat := by
  have bound := b.toNat_lt
  have valid : b.toNat.isValidChar := .inl (by omega)
  rw [byteChar, Char.ofNat, dif_pos valid]
  rfl

theorem byteChar_inj {a b : UInt8} (same : byteChar a = byteChar b) : a = b := by
  have numbers := congrArg Char.toNat same
  rw [toNat_byteChar, toNat_byteChar] at numbers
  exact UInt8.toNat_inj.mp numbers

/-- An ASCII character is its own byte. -/
theorem utf8EncodeChar_of_ascii {c : Char} (ascii : c.toNat < 128) :
    String.utf8EncodeChar c = [UInt8.ofNat c.toNat] := by
  have small : c.val.toNat ≤ 127 := Nat.le_of_lt_succ ascii
  rw [String.utf8EncodeChar, if_pos small]
  rfl

theorem byteChar_ofNat {c : Char} (ascii : c.toNat < 128) : byteChar (UInt8.ofNat c.toNat) = c := by
  have bound : c.toNat < UInt8.size := by
    simp only [UInt8.size]
    omega
  rw [byteChar, UInt8.toNat_ofNat_of_lt' bound, Char.ofNat_toNat]

/-- Other characters take bytes beyond ASCII, more than one. -/
theorem beyond_ascii {c : Char} (beyond : 128 ≤ c.toNat) :
    2 ≤ (String.utf8EncodeChar c).length ∧ ∀ b ∈ String.utf8EncodeChar c, 128 ≤ b.toNat := by
  have bound : c.val.toNat < 1114112 := by
    have valid := c.valid
    unfold UInt32.isValidChar Nat.isValidChar at valid
    omega
  have large : ¬ c.val.toNat ≤ 127 := by
    simp only [Char.toNat] at beyond
    omega
  simp only [String.utf8EncodeChar, if_neg large]
  split
  · refine ⟨by simp, fun b member => ?_⟩
    simp only [List.mem_cons, List.not_mem_nil, or_false] at member
    rcases member with rfl | rfl <;> simp only [UInt8.toNat_ofNat'] <;> omega
  · split
    · refine ⟨by simp, fun b member => ?_⟩
      simp only [List.mem_cons, List.not_mem_nil, or_false] at member
      rcases member with rfl | rfl | rfl <;> simp only [UInt8.toNat_ofNat'] <;> omega
    · refine ⟨by simp, fun b member => ?_⟩
      simp only [List.mem_cons, List.not_mem_nil, or_false] at member
      rcases member with rfl | rfl | rfl | rfl <;> simp only [UInt8.toNat_ofNat'] <;> omega

theorem asBytes_inj {a b : String} (same : asBytes a = asBytes b) : a = b := by
  have arrays : a.toList.utf8Encode = b.toList.utf8Encode := List.toByteArray_inj.mpr same
  rw [← String.toByteArray_ofList, ← String.toByteArray_ofList, String.ofList_toList, String.ofList_toList] at arrays
  exact String.toByteArray_inj.mp arrays

end Tape.Subjects
