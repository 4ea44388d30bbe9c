import Tape.Subjects.Prefilter

/-! # The pattern grammar

What the comment above `subjects::matches` says of a pattern, without its loop: the
segments of a subject are those of the pattern, each of them replaced by what it may
stand for.  `matches` decides this (`matches_iff_obtained`).
-/

namespace Tape.Subjects

/-- What a segment of a pattern may be replaced by: `*` by one segment, `**` by any
    number of them, and every other segment, whatever stars it contains, by itself. -/
inductive Replaced : List Char → List (List Char) → Prop where
  | one (segment : List Char) : Replaced ['*'] [segment]
  | rest (segments : List (List Char)) : Replaced ['*', '*'] segments
  | itself {token : List Char} (literal : IsLiteral token) : Replaced token [token]

/-- The segments come from the tokens by replacing each of them, and no `**` stands
    before the last token. -/
def Obtained (tokens segments : List (List Char)) : Prop :=
  ['*', '*'] ∉ tokens.dropLast ∧ ∃ parts, List.Forall₂ Replaced tokens parts ∧ parts.flatten = segments

/-! ## One token -/

/-- A token that is not `**` stands for one segment, the one the loop compares it with. -/
theorem replaced_iff {token : List Char} (notRest : token ≠ ['*', '*']) {segments : List (List Char)} :
    Replaced token segments ↔ ∃ segment, segments = [segment] ∧ (token = ['*'] ∨ token = segment) := by
  constructor
  · intro replaced
    cases replaced with
    | one segment => exact ⟨segment, rfl, .inl rfl⟩
    | rest segments => exact absurd rfl notRest
    | itself literal => exact ⟨token, rfl, .inr rfl⟩
  · intro found
    obtain ⟨segment, rfl, same⟩ := found
    by_cases isStar : token = ['*']
    · subst isStar
      exact .one segment
    · have isSegment := same.resolve_left isStar
      subst isSegment
      exact .itself ⟨isStar, notRest⟩

/-! ## All tokens -/

@[simp] theorem obtained_nil {segments : List (List Char)} : Obtained [] segments ↔ segments = [] := by
  constructor
  · intro obtained
    obtain ⟨-, parts, replaced, rfl⟩ := obtained
    cases replaced
    rfl
  · intro nothing
    subst nothing
    exact ⟨by simp, [], .nil, rfl⟩

@[simp] theorem obtained_rest_last {segments : List (List Char)} : Obtained [['*', '*']] segments := by
  have replaced : List.Forall₂ Replaced [['*', '*']] [segments] := .cons (.rest segments) .nil
  exact ⟨by simp, [segments], replaced, by simp⟩

theorem not_obtained_early {next : List Char} {tokens segments : List (List Char)} :
    ¬ Obtained (['*', '*'] :: next :: tokens) segments := by
  intro obtained
  exact obtained.1 (by simp)

/-- A token that is not `**` takes the first segment. -/
theorem obtained_cons {token : List Char} (notRest : token ≠ ['*', '*']) {tokens segments : List (List Char)} :
    Obtained (token :: tokens) segments ↔
      ∃ segment others, segments = segment :: others ∧ (token = ['*'] ∨ token = segment) ∧ Obtained tokens others := by
  have early : ['*', '*'] ∈ (token :: tokens).dropLast ↔ ['*', '*'] ∈ tokens.dropLast := by
    cases tokens with
    | nil => simp
    | cons next tokens => simp [Ne.symm notRest]
  constructor
  · intro obtained
    obtain ⟨notEarly, parts, replaced, rfl⟩ := obtained
    cases replaced with
    | cons first later =>
      obtain ⟨segment, rfl, same⟩ := (replaced_iff notRest).mp first
      exact ⟨segment, _, rfl, same, fun isEarly => notEarly (early.mpr isEarly), _, later, rfl⟩
  · intro found
    obtain ⟨segment, others, rfl, same, notEarly, parts, replaced, rfl⟩ := found
    have first : Replaced token [segment] := (replaced_iff notRest).mpr ⟨segment, rfl, same⟩
    exact ⟨fun isEarly => notEarly (early.mp isEarly), [segment] :: parts, .cons first replaced, rfl⟩

/-- The loop of `matches` finds the segments that are obtained from the tokens.  The
    induction follows the loop: one token and one segment at a time. -/
theorem matchTokens_iff_obtained (tokens segments : List (List Char)) :
    matchTokens tokens segments ↔ Obtained tokens segments := by
  induction tokens generalizing segments with
  | nil => simp [matchTokens]
  | cons token tokens inductionHypothesis =>
    by_cases isRest : token = ['*', '*']
    · subst isRest
      cases tokens with
      | nil => simp [matchTokens]
      | cons next tokens => simp [matchTokens, not_obtained_early]
    · rw [obtained_cons isRest]
      cases segments with
      | nil => simp [matchTokens, isRest]
      | cons segment segments =>
        have later := inductionHypothesis segments
        by_cases same : token = ['*'] ∨ token = segment
        · simp [matchTokens, isRest, same, later]
        · simp [matchTokens, isRest, same]

/-- **`matches` decides the pattern grammar.** -/
theorem matches_iff_obtained (pattern subject : String) :
    «matches» pattern subject ↔
      pattern = "" ∨ Obtained (splitSlash pattern.toList) (splitSlash subject.toList) := by
  by_cases empty : pattern = ""
  · simp [«matches», empty]
  · rw [matches_iff empty, matchTokens_iff_obtained]
    simp [empty]

end Tape.Subjects
