import Mathlib.Data.List.Count

/-! # `LIKE` patterns

A `LIKE` pattern is a list of tokens: any text, any one character, or a given
character.  `Covers tokens text` says that the text has the form the tokens ask for.

`covers_append` cuts a text where a pattern is cut.  `Covers.countP_le` counts: every
literal token uses up a character of its own, so a text that has no separator to spare
can only be cut where the pattern is (`Covers.cut`).
-/

namespace Tape.Sql

variable {α : Type}

inductive LikeToken (α : Type) where
  | any
  | one
  | lit (c : α)
  deriving DecidableEq, Repr

namespace LikeToken

def isLit (p : α → Bool) : LikeToken α → Bool
  | lit c => p c
  | _ => false

@[simp] theorem isLit_any (p : α → Bool) : (any : LikeToken α).isLit p = false := rfl

@[simp] theorem isLit_one (p : α → Bool) : (one : LikeToken α).isLit p = false := rfl

@[simp] theorem isLit_lit (p : α → Bool) (c : α) : (lit c).isLit p = p c := rfl

end LikeToken

def Covers : List (LikeToken α) → List α → Prop
  | [], text => text = []
  | .any :: tokens, text => ∃ before rest, text = before ++ rest ∧ Covers tokens rest
  | .one :: tokens, text => ∃ c rest, text = c :: rest ∧ Covers tokens rest
  | .lit c :: tokens, text => ∃ rest, text = c :: rest ∧ Covers tokens rest

variable {tokens : List (LikeToken α)} {text : List α}

@[simp] theorem covers_nil : Covers [] text ↔ text = [] := Iff.rfl

theorem covers_any : Covers (.any :: tokens) text ↔ ∃ before rest, text = before ++ rest ∧ Covers tokens rest :=
  Iff.rfl

@[simp] theorem covers_one_nil : ¬ Covers (.one :: tokens) [] := by
  simp [Covers]

@[simp] theorem covers_one_cons (c : α) : Covers (.one :: tokens) (c :: text) ↔ Covers tokens text := by
  simp [Covers]

@[simp] theorem covers_lit_nil (c : α) : ¬ Covers (.lit c :: tokens) [] := by
  simp [Covers]

@[simp] theorem covers_lit_cons (c d : α) : Covers (.lit c :: tokens) (d :: text) ↔ c = d ∧ Covers tokens text := by
  simp [Covers, eq_comm]

theorem covers_any_alone : Covers [.any] text := ⟨text, [], by simp, rfl⟩

/-- `%` absorbs the next character, or nothing more. -/
theorem covers_any_cons (c : α) :
    Covers (.any :: tokens) (c :: text) ↔ Covers tokens (c :: text) ∨ Covers (.any :: tokens) text := by
  constructor
  · rintro ⟨before, rest, split, covers⟩
    cases before with
    | nil => exact .inl (by rw [split]; exact covers)
    | cons d before =>
      obtain ⟨-, split⟩ := List.cons.inj split
      exact .inr ⟨before, rest, split, covers⟩
  · rintro (covers | ⟨before, rest, split, covers⟩)
    · exact ⟨[], c :: text, rfl, covers⟩
    · exact ⟨c :: before, rest, by rw [split, List.cons_append], covers⟩

theorem covers_append (first second : List (LikeToken α)) (text : List α) :
    Covers (first ++ second) text ↔ ∃ left right, text = left ++ right ∧ Covers first left ∧ Covers second right := by
  induction first generalizing text with
  | nil => simp
  | cons token first inductionHypothesis =>
    cases token with
    | any =>
      rw [List.cons_append, covers_any]
      constructor
      · rintro ⟨before, rest, rfl, covers⟩
        obtain ⟨left, right, rfl, coversLeft, coversRight⟩ := (inductionHypothesis rest).mp covers
        exact ⟨before ++ left, right, by simp, ⟨before, left, rfl, coversLeft⟩, coversRight⟩
      · rintro ⟨left, right, rfl, ⟨before, rest, rfl, coversLeft⟩, coversRight⟩
        refine ⟨before, rest ++ right, by simp, ?_⟩
        exact (inductionHypothesis _).mpr ⟨rest, right, rfl, coversLeft, coversRight⟩
    | one =>
      cases text with
      | nil => simp [Covers]
      | cons c text =>
        rw [List.cons_append, covers_one_cons, inductionHypothesis]
        constructor
        · rintro ⟨left, right, rfl, coversLeft, coversRight⟩
          exact ⟨c :: left, right, rfl, by simpa using coversLeft, coversRight⟩
        · rintro ⟨left, right, split, ⟨d, rest, rfl, coversLeft⟩, coversRight⟩
          exact ⟨rest, right, (List.cons.inj (split.trans (List.cons_append ..))).2, coversLeft, coversRight⟩
    | lit d =>
      cases text with
      | nil => simp [Covers]
      | cons c text =>
        rw [List.cons_append, covers_lit_cons, inductionHypothesis]
        constructor
        · rintro ⟨rfl, left, right, rfl, coversLeft, coversRight⟩
          exact ⟨d :: left, right, rfl, by simpa using coversLeft, coversRight⟩
        · rintro ⟨left, right, split, ⟨rest, rfl, coversLeft⟩, coversRight⟩
          obtain ⟨rfl, tail⟩ := List.cons.inj (split.trans (List.cons_append ..))
          exact ⟨rfl, rest, right, tail, coversLeft, coversRight⟩

/-- Every literal token uses up a character of its own. -/
theorem Covers.countP_le (p : α → Bool) (covers : Covers tokens text) :
    tokens.countP (LikeToken.isLit p) ≤ text.countP p := by
  induction tokens generalizing text with
  | nil => simp
  | cons token tokens inductionHypothesis =>
    cases token with
    | any =>
      obtain ⟨before, rest, rfl, covers⟩ := covers
      have fewer := inductionHypothesis covers
      simp only [List.countP_cons, LikeToken.isLit_any, Bool.false_eq_true, if_false, List.countP_append]
      omega
    | one =>
      obtain ⟨c, rest, rfl, covers⟩ := covers
      have fewer := inductionHypothesis covers
      simp only [List.countP_cons, LikeToken.isLit_one, Bool.false_eq_true, if_false]
      omega
    | lit c =>
      obtain ⟨rest, rfl, covers⟩ := covers
      have fewer := inductionHypothesis covers
      simp only [List.countP_cons, LikeToken.isLit_lit]
      exact Nat.add_le_add_right fewer _

section Cut

variable [DecidableEq α] {sep : α}

variable (sep) in
theorem countP_eq_count (text : List α) : text.countP (· = sep) = text.count sep := by
  simp [List.count, beq_eq_decide]

/-- A text with no more separators after its first one than the pattern asks for is cut there. -/
theorem Covers.cut {first second : List (LikeToken α)} {left right : List α}
    (covers : Covers (first ++ .lit sep :: second) (left ++ sep :: right)) (clean : sep ∉ left)
    (enough : right.count sep ≤ second.countP (LikeToken.isLit (· = sep))) :
    Covers first left ∧ Covers second right := by
  obtain ⟨before, rest, split, coversFirst, ⟨after, rfl, coversSecond⟩⟩ := (covers_append _ _ _).mp covers
  have fewer := coversSecond.countP_le (· = sep)
  have same : before = left ∧ after = right := by
    have count := countP_eq_count sep after
    rcases List.append_eq_append_iff.mp split with ⟨middle, isBefore, isRest⟩ | ⟨middle, isLeft, isRest⟩
    · cases middle with
      | nil => exact ⟨by simpa using isBefore, (List.cons.inj isRest).2.symm⟩
      | cons d middle =>
        -- the separator the pattern matched lies further on, and the rest has one too few
        obtain ⟨rfl, isRight⟩ := List.cons.inj (isRest.trans (List.cons_append ..))
        have more : right.count sep = middle.count sep + (after.count sep + 1) := by
          rw [isRight, List.count_append, List.count_cons_self]
        omega
    · cases middle with
      | nil => exact ⟨by simpa using isLeft.symm, (List.cons.inj isRest).2⟩
      | cons d middle =>
        obtain ⟨rfl, -⟩ := List.cons.inj isRest
        exact absurd (by rw [isLeft]; simp) clean
  obtain ⟨rfl, rfl⟩ := same
  exact ⟨coversFirst, coversSecond⟩

end Cut

/-! ## Reading a pattern -/

/-- The tokens of `LIKE pattern ESCAPE '\'`; `none` if nothing follows the last escape. -/
def likeTokens : List Char → Option (List (LikeToken Char))
  | [] => some []
  | '%' :: pattern => (likeTokens pattern).map (.any :: ·)
  | '_' :: pattern => (likeTokens pattern).map (.one :: ·)
  | ['\\'] => none
  | '\\' :: c :: pattern => (likeTokens pattern).map (.lit c :: ·)
  | c :: pattern => (likeTokens pattern).map (.lit c :: ·)

theorem likeTokens_cons {c : Char} (notAny : c ≠ '%') (notOne : c ≠ '_') (notEscape : c ≠ '\\') (pattern : List Char) :
    likeTokens (c :: pattern) = (likeTokens pattern).map (.lit c :: ·) := by
  rw [likeTokens]
  all_goals simp_all

end Tape.Sql
