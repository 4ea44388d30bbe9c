import Mathlib.Algebra.Group.Int.Defs
import Mathlib.Algebra.Group.Nat.Defs
import Mathlib.Data.Int.Init

/-! # Integers as text

`i64` printed in decimal and parsed as `str::parse` does: an optional sign and at least one digit, within
the range of the type.
-/

namespace Tape.Bigtable

def digits? (text : List Char) : Option Nat :=
  if text ≠ [] ∧ text.all Char.isDigit then some (Nat.ofDigitChars 10 text 0) else none

def inI64 (n : Int) : Prop := -2 ^ 63 ≤ n ∧ n < 2 ^ 63

instance (n : Int) : Decidable (inI64 n) := inferInstanceAs (Decidable (_ ∧ _))

def inI32 (n : Int) : Prop := -2 ^ 31 ≤ n ∧ n < 2 ^ 31

instance (n : Int) : Decidable (inI32 n) := inferInstanceAs (Decidable (_ ∧ _))

theorem inI64_of_inI32 {n : Int} (bound : inI32 n) : inI64 n := ⟨by have := bound.1; omega, by have := bound.2; omega⟩

abbrev I64 : Type := { n : Int // inI64 n }

abbrev I32 : Type := { n : Int // inI32 n }

/-- `text.parse::<i64>()`. -/
def parseI64 (text : String) : Option Int :=
  (signed text.toList).filter fun n => inI64 n
where
  signed : List Char → Option Int
    | '-' :: digits => (digits? digits).map fun (n : Nat) => -(n : Int)
    | '+' :: digits => (digits? digits).map Int.ofNat
    | digits => (digits? digits).map Int.ofNat

theorem all_toDigits (n : Nat) : (Nat.toDigits 10 n).all Char.isDigit := by
  rw [List.all_eq_true]
  exact fun c member => Nat.isDigit_of_mem_toDigits (by omega) (by omega) member

theorem digits?_toDigits (n : Nat) : digits? (Nat.toDigits 10 n) = some n := by
  rw [digits?, if_pos ⟨Nat.toDigits_ne_nil, all_toDigits n⟩, Nat.ofDigitChars_ten_toDigits]

theorem signed_of_digits {text : List Char} (all : text.all Char.isDigit) :
    parseI64.signed text = (digits? text).map Int.ofNat := by
  have noSign : ∀ c ∈ text, c ≠ '-' ∧ c ≠ '+' := by
    intro c member
    have digit := List.all_eq_true.mp all c member
    constructor <;> rintro rfl <;> cases digit
  unfold parseI64.signed
  split
  next digits isMinus => exact absurd rfl (noSign '-' List.mem_cons_self).1
  next digits isPlus => exact absurd rfl (noSign '+' List.mem_cons_self).2
  next => rfl

theorem signed_toDigits (n : Nat) : parseI64.signed (Nat.toDigits 10 n) = some (n : Int) := by
  rw [signed_of_digits (all_toDigits n), digits?_toDigits]
  rfl

/-- What is printed is parsed back. -/
theorem parseI64_toString {n : Int} (bound : inI64 n) : parseI64 (toString n) = some n := by
  have signed : parseI64.signed (toString n).toList = some n := by
    rw [Int.toString_eq_repr, Int.repr_eq_if]
    split
    next nonneg => rw [Nat.toList_repr, signed_toDigits, Int.toNat_of_nonneg nonneg]
    next negative =>
      rw [String.toList_append, Nat.toList_repr]
      show (digits? (Nat.toDigits 10 (-n).toNat)).map (fun (k : Nat) => -(k : Int)) = some n
      rw [digits?_toDigits, Option.map_some, Int.toNat_of_nonneg (by omega), Int.neg_neg]
  rw [parseI64, signed, Option.filter_some, if_pos (by simpa using bound)]

/-! ## Leading zeros -/

/-- The digits, preceded by so many zeros. -/
def zeros (count n : Nat) : List Char := List.replicate count '0' ++ Nat.toDigits 10 n

theorem all_zeros (count n : Nat) : (zeros count n).all Char.isDigit := by
  rw [zeros, List.all_append, all_toDigits, Bool.and_true, List.all_eq_true]
  intro c member
  rw [List.eq_of_mem_replicate member]
  rfl

@[simp] theorem ofDigitChars_zeros (count n : Nat) : Nat.ofDigitChars 10 (zeros count n) 0 = n := by
  rw [zeros, Nat.ofDigitChars_append, Nat.ofDigitChars_replicate_zero, Nat.mul_zero, Nat.ofDigitChars_ten_toDigits]

theorem digits?_zeros (count n : Nat) : digits? (zeros count n) = some n := by
  have some_ : zeros count n ≠ [] := by simp [zeros, Nat.toDigits_ne_nil]
  rw [digits?, if_pos ⟨some_, all_zeros count n⟩, ofDigitChars_zeros]

theorem signed_zeros (count n : Nat) : parseI64.signed (zeros count n) = some (n : Int) := by
  rw [signed_of_digits (all_zeros count n), digits?_zeros]
  rfl

/-! ## The order of digits -/

theorem isDigit_iff {c : Char} : c.isDigit ↔ 48 ≤ c.toNat ∧ c.toNat ≤ 57 := by
  simp [Char.isDigit, UInt32.le_iff_toNat_le]

theorem ofDigitChars_lt {x : List Char} (all : x.all Char.isDigit) : Nat.ofDigitChars 10 x 0 < 10 ^ x.length := by
  induction x with
  | nil => simp
  | cons c x inductionHypothesis =>
    obtain ⟨digit, rest⟩ := Bool.and_eq_true_iff.mp all
    have bound := inductionHypothesis rest
    have := (isDigit_iff.mp digit).2
    rw [Nat.ofDigitChars_cons, Nat.ofDigitChars_eq_ofDigitChars_zero, List.length_cons, Nat.pow_succ]
    have head : 10 * 0 + (c.toNat - '0'.toNat) ≤ 9 := by
      show 10 * 0 + (c.toNat - 48) ≤ 9
      omega
    have := Nat.mul_le_mul_left (10 ^ x.length) head
    omega

/-- Texts of as many digits are ordered as the numbers are. -/
theorem lt_iff_ofDigitChars_lt {x y : List Char} (allX : x.all Char.isDigit) (allY : y.all Char.isDigit)
    (same : x.length = y.length) : x < y ↔ Nat.ofDigitChars 10 x 0 < Nat.ofDigitChars 10 y 0 := by
  induction x generalizing y with
  | nil =>
    obtain rfl := List.length_eq_zero_iff.mp same.symm
    simp
  | cons c x inductionHypothesis =>
    cases y with
    | nil => cases same
    | cons d y =>
      obtain ⟨digitC, restX⟩ := Bool.and_eq_true_iff.mp allX
      obtain ⟨digitD, restY⟩ := Bool.and_eq_true_iff.mp allY
      have length : x.length = y.length := Nat.succ.inj same
      have tails := inductionHypothesis restX restY length
      have boundX := ofDigitChars_lt restX
      have boundY := ofDigitChars_lt restY
      have c48 := (isDigit_iff.mp digitC).1
      have d48 := (isDigit_iff.mp digitD).1
      have heads : c < d ↔ c.toNat < d.toNat := Iff.rfl
      rw [Nat.ofDigitChars_cons, Nat.ofDigitChars_cons, Nat.ofDigitChars_eq_ofDigitChars_zero (l := x),
        Nat.ofDigitChars_eq_ofDigitChars_zero (l := y), ← length, List.cons_lt_cons_iff, tails, heads]
      rw [← length] at boundY
      show _ ↔ 10 ^ x.length * (10 * 0 + (c.toNat - 48)) + _ < 10 ^ x.length * (10 * 0 + (d.toNat - 48)) + _
      rcases Nat.lt_trichotomy c.toNat d.toNat with lower | equal | higher
      · -- the first digit decides
        have step := Nat.mul_le_mul_left (10 ^ x.length) (show 10 * 0 + (c.toNat - 48) + 1 ≤ 10 * 0 + (d.toNat - 48) by omega)
        rw [Nat.mul_add] at step
        exact iff_of_true (.inl lower) (by omega)
      · obtain rfl : c = d := Char.toNat_inj.mp equal
        simp
      · have step := Nat.mul_le_mul_left (10 ^ x.length) (show 10 * 0 + (d.toNat - 48) + 1 ≤ 10 * 0 + (c.toNat - 48) by omega)
        rw [Nat.mul_add] at step
        refine iff_of_false ?_ (by omega)
        rintro (lower | ⟨rfl, -⟩) <;> omega

end Tape.Bigtable
