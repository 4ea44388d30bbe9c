import Mathlib.Data.Int.Init
import Tape.Sequential
import Tape.Sql.Table
import Tape.Store.World

/-! # Budgets

`set_budget`, `charge_budget` and `admit_budget`.  Token amounts are `i64` as the client sends them.  The
handler adds an estimate to what was spent as the release profile adds, without an overflow check; the
statement of `charge_budget` adds as its database does.  Dollars are `f64`: the model is given their
arithmetic.  SQLite binds a NaN as `NULL`, which the columns refuse; Postgres refuses a sum that overflows.
-/

namespace Tape.Budget

open Sql Tape.Sequential

/-- The arithmetic of `f64`, as far as the budget uses it. -/
structure F64 (F : Type) where
  zero : F
  add : F → F → F
  lt : F → F → Bool
  isNan : F → Bool
  isFinite : F → Bool
  /-- The double that SQLite computes with in place of an integer. -/
  ofI64 : Int64 → F
  /-- `as i64`, which saturates. -/
  toI64 : F → Int64
  /-- The integer that SQLite stores for the double in an `INTEGER` column, if it is one. -/
  integer : F → Option Int64
  /-- `{:.2}`. -/
  twoDigits : F → String

/-- A value in the column `tokens_spent`: SQLite keeps what it is given. -/
inductive Cell (F : Type) where
  | int (n : Int64)
  | real (x : F)

/-- A row of `tape_budget`. -/
structure BudgetRow (F : Type) where
  runId : String
  usdCap : F
  tokenCap : Int64
  usdSpent : F
  tokensSpent : Cell F

abbrev BudgetRow.pk {F : Type} (row : BudgetRow F) : String := row.runId

abbrev Budgets (F : Type) : Type := Table (BudgetRow.pk (F := F))

structure BudgetState (F : Type) where
  runId : String
  usdCap : F
  tokenCap : Int64
  usdSpent : F
  tokensSpent : Int64

structure AdmitBudgetResponse (F : Type) where
  admitted : Bool
  reason : String
  budget : BudgetState F

/-- The mathematical value is an `i64`. -/
def Fits (n : Int) : Prop := -2 ^ 63 ≤ n ∧ n < 2 ^ 63

instance (n : Int) : Decidable (Fits n) := inferInstanceAs (Decidable (_ ∧ _))

section Store

variable {F : Type} (f64 : F64 F)

/-! ## The statements -/

/-- `row.i64(i)`. -/
def Cell.i64 : Cell F → Int64
  | .int n => n
  | .real x => f64.toI64 x

/-- `tokens_spent + ?3`.  SQLite goes over to doubles where integers overflow; Postgres raises an error. -/
def Cell.plus (dialect : Subjects.Dialect) (tokens : Int64) : Cell F → Option (Cell F)
  | .int n =>
    if Fits (n.toInt + tokens.toInt) then some (.int (n + tokens))
    else match dialect with
      | .sqlite => stored (f64.add (f64.ofI64 n) (f64.ofI64 tokens))
      | .postgres => none
  | .real x => stored (f64.add x (f64.ofI64 tokens))
where
  stored (x : F) : Option (Cell F) := if f64.isNan x then none else some ((f64.integer x).elim (.real x) .int)

/-- A double that is bound for a `NOT NULL` column. -/
def isBound (dialect : Subjects.Dialect) (x : F) : Bool :=
  match dialect with
  | .sqlite => !f64.isNan x
  | .postgres => true

/-- `usd_spent + ?2`. -/
def usdPlus (dialect : Subjects.Dialect) (usdSpent usd : F) : Option F :=
  let sum := f64.add usdSpent usd
  match dialect with
  | .sqlite => if f64.isNan sum then none else some sum
  | .postgres => if f64.isFinite usdSpent && f64.isFinite usd && !f64.isFinite sum then none else some sum

def getBudget (runId : String) (t : Budgets F) : BudgetState F :=
  match t.find? runId with
  | some row =>
    { runId, usdCap := row.usdCap, tokenCap := row.tokenCap, usdSpent := row.usdSpent
      tokensSpent := row.tokensSpent.i64 f64 }
  | none => { runId, usdCap := f64.zero, tokenCap := 0, usdSpent := f64.zero, tokensSpent := 0 }

def setBudget (dialect : Subjects.Dialect) (runId : String) (usdCap : F) (tokenCap : Int64) (t : Budgets F) :
    Except StoreError (BudgetState F) × Budgets F :=
  if isBound f64 dialect usdCap then
    let capped := t.upsert { runId, usdCap, tokenCap, usdSpent := f64.zero, tokensSpent := .int 0 }
      ⟨fun row => { row with usdCap, tokenCap }, fun _ => rfl⟩
    (.ok (getBudget f64 runId capped), capped)
  else (.error (.msg "NOT NULL constraint failed: tape_budget.usd_cap"), t)

/-- The dollars of the run after a charge, unless the database refuses them. -/
def usdCharged (dialect : Subjects.Dialect) (runId : String) (usd : F) (t : Budgets F) : Option F :=
  if isBound f64 dialect usd then
    match t.find? runId with
    | some row => usdPlus f64 dialect row.usdSpent usd
    | none => some usd
  else none

/-- What was spent of the tokens after a charge, unless the database refuses the sum. -/
def tokensCharged (dialect : Subjects.Dialect) (runId : String) (tokens : Int64) (t : Budgets F) : Option (Cell F) :=
  match t.find? runId with
  | some row => row.tokensSpent.plus f64 dialect tokens
  | none => some (.int tokens)

def chargeBudget (dialect : Subjects.Dialect) (runId : String) (usd : F) (tokens : Int64) (t : Budgets F) :
    Except StoreError (BudgetState F) × Budgets F :=
  match usdCharged f64 dialect runId usd t with
  | none => (.error (.msg (refusedUsd dialect)), t)
  | some usdSpent =>
    match tokensCharged f64 dialect runId tokens t with
    | none => (.error (.msg (refusedTokens dialect)), t)
    | some tokensSpent =>
      let charged := t.upsert
        { runId, usdCap := f64.zero, tokenCap := 0, usdSpent, tokensSpent }
        ⟨fun row => { row with usdSpent, tokensSpent }, fun _ => rfl⟩
      (.ok (getBudget f64 runId charged), charged)
where
  refusedUsd : Subjects.Dialect → String
    | .sqlite => "NOT NULL constraint failed: tape_budget.usd_spent"
    | .postgres => "value out of range: overflow"
  refusedTokens : Subjects.Dialect → String
    | .sqlite => "NOT NULL constraint failed: tape_budget.tokens_spent"
    | .postgres => "bigint out of range"

/-! ## The handler -/

def overUsd (b : BudgetState F) (usdEstimate : F) : Bool :=
  f64.lt f64.zero b.usdCap && f64.lt b.usdCap (f64.add b.usdSpent usdEstimate)

def overTokens (b : BudgetState F) (tokenEstimate : Int64) : Bool :=
  0 < b.tokenCap && b.tokenCap < b.tokensSpent + tokenEstimate

def admitBudget (runId : String) (usdEstimate : F) (tokenEstimate : Int64) (t : Budgets F) : AdmitBudgetResponse F :=
  let b := getBudget f64 runId t
  if overUsd f64 b usdEstimate then
    { admitted := false, budget := b
      reason := "usd cap " ++ f64.twoDigits b.usdCap ++ " would be exceeded (spent " ++ f64.twoDigits b.usdSpent ++
        " + estimate " ++ f64.twoDigits usdEstimate ++ ")" }
  else if overTokens b tokenEstimate then
    { admitted := false, budget := b
      reason := "token cap " ++ toString b.tokenCap ++ " would be exceeded (spent " ++ toString b.tokensSpent ++
        " + estimate " ++ toString tokenEstimate ++ ")" }
  else { admitted := true, reason := "", budget := b }

/-! ## Histories -/

inductive BudgetCall (F : Type) where
  | set (runId : String) (usdCap : F) (tokenCap : Int64)
  | charge (runId : String) (usd : F) (tokens : Int64)
  | admitBudget (runId : String) (usdEstimate : F) (tokenEstimate : Int64)

def serve (dialect : Subjects.Dialect) (t : Budgets F) : BudgetCall F → Budgets F
  | .set runId usdCap tokenCap => (setBudget f64 dialect runId usdCap tokenCap t).2
  | .charge runId usd tokens => (chargeBudget f64 dialect runId usd tokens t).2
  | .admitBudget .. => t

def BudgetCall.tokensFor (runId : String) : BudgetCall F → Int
  | .charge other _ tokens => if other = runId then tokens.toInt else 0
  | _ => 0

/-- The tokens that the run was charged. -/
def charged (runId : String) (calls : List (BudgetCall F)) : Int := (calls.map (BudgetCall.tokensFor runId)).sum

/-- Whatever the order of the calls: the budget shows the sum of the charges, and a request is admitted
    if the dollars allow it and the sum with the estimate is within the cap. -/
structure Exact (dialect : Subjects.Dialect) (calls : List (BudgetCall F)) : Prop where
  spent : ∀ before, before <+: calls → ∀ runId,
    (getBudget f64 runId (run (serve f64 dialect) .empty before)).tokensSpent.toInt = charged runId before
  admits : ∀ before runId usdEstimate tokenEstimate, before ++ [.admitBudget runId usdEstimate tokenEstimate] <+: calls →
    let t := run (serve f64 dialect) .empty before
    let b := getBudget f64 runId t
    (admitBudget f64 runId usdEstimate tokenEstimate t).admitted ↔ overUsd f64 b usdEstimate = false ∧
      (0 < b.tokenCap.toInt → b.tokensSpent.toInt + tokenEstimate.toInt ≤ b.tokenCap.toInt)

/-- A charge of any tokens has dollars that the database takes, and leaves a sum that is an `i64`.  So is the sum
    that a request is judged by, or it lies so far below that even the number it wraps around to is within the cap. -/
def InRange (dialect : Subjects.Dialect) (t : Budgets F) : BudgetCall F → Prop
  | .set .. => True
  | .charge runId usd tokens => tokens.toInt ≠ 0 →
    (usdCharged f64 dialect runId usd t).isSome ∧ Fits ((getBudget f64 runId t).tokensSpent.toInt + tokens.toInt)
  | .admitBudget runId usdEstimate tokenEstimate =>
    let b := getBudget f64 runId t
    let sum := b.tokensSpent.toInt + tokenEstimate.toInt
    overUsd f64 b usdEstimate = false → 0 < b.tokenCap.toInt →
      Fits sum ∨ (sum < -2 ^ 63 ∧ sum + 2 ^ 64 ≤ b.tokenCap.toInt)

instance InRange.decidable (dialect : Subjects.Dialect) (t : Budgets F) :
    (call : BudgetCall F) → Decidable (InRange f64 dialect t call)
  | .set .. => isTrue trivial
  | .charge .. => inferInstanceAs (Decidable (_ → _ ∧ Fits _))
  | .admitBudget .. => inferInstanceAs (Decidable (_ → _ → _ ∨ _))

end Store

/-! ## One call -/

section Calls

variable {F : Type} {f64 : F64 F} {dialect : Subjects.Dialect} {t : Budgets F} {runId : String}

theorem fits_toInt (n : Int64) : Fits n.toInt := ⟨n.le_toInt, n.toInt_lt⟩

theorem toInt_add_of_fits {a b : Int64} (fits : Fits (a.toInt + b.toInt)) : (a + b).toInt = a.toInt + b.toInt := by
  rw [Int64.toInt_add]
  exact Int.bmod_eq_of_le_mul_two (by have := fits.1; omega) (by have := fits.2; omega)

/-- Every row has an integer in `tokens_spent`. -/
def Integral (t : Budgets F) : Prop := ∀ runId row, t.find? runId = some row → ∃ n, row.tokensSpent = .int n

theorem integral_empty : Integral (.empty : Budgets F) := fun _ _ found => by cases found

theorem tokensSpent_setBudget (other : String) (usdCap : F) (tokenCap : Int64) :
    (getBudget f64 other (setBudget f64 dialect runId usdCap tokenCap t).2).tokensSpent =
      (getBudget f64 other t).tokensSpent := by
  unfold setBudget
  split
  · unfold getBudget
    rw [Table.find?_upsert]
    by_cases same : runId = other
    · subst same
      cases t.find? runId <;> simp [Cell.i64]
    · simp [same]
  · rfl

theorem integral_setBudget (integral : Integral t) (usdCap : F) (tokenCap : Int64) :
    Integral (setBudget f64 dialect runId usdCap tokenCap t).2 := by
  unfold setBudget
  split
  next =>
    intro other row found
    rw [Table.find?_upsert] at found
    split at found
    next same =>
      cases old : t.find? other with
      | none =>
        simp only [old, Option.elim_none, Option.some.injEq] at found
        exact ⟨0, by rw [← found]⟩
      | some old' =>
        simp only [old, Option.elim_some, Option.some.injEq] at found
        obtain ⟨n, isInt⟩ := integral other old' old
        exact ⟨n, by rw [← found]; exact isInt⟩
    next => exact integral other row found
  next => exact integral

/-- What a charge that fits leaves in the column. -/
theorem tokensCharged_of_fits (integral : Integral t) {tokens : Int64}
    (fits : Fits ((getBudget f64 runId t).tokensSpent.toInt + tokens.toInt)) :
    tokensCharged f64 dialect runId tokens t = some (.int ((getBudget f64 runId t).tokensSpent + tokens)) := by
  unfold tokensCharged getBudget at *
  cases found : t.find? runId with
  | none => simp
  | some row =>
    obtain ⟨n, isInt⟩ := integral runId row found
    simp only [found, isInt, Cell.i64] at fits ⊢
    simp only [Cell.plus, fits, if_true]

/-- A charge that fits is added to its run's sum, unless the dollars are refused; then nothing is. -/
theorem chargeBudget_of_fits (integral : Integral t) {usd : F} {tokens : Int64}
    (fits : Fits ((getBudget f64 runId t).tokensSpent.toInt + tokens.toInt))
    (taken : tokens.toInt ≠ 0 → (usdCharged f64 dialect runId usd t).isSome) :
    Integral (chargeBudget f64 dialect runId usd tokens t).2 ∧
      ∀ other, (getBudget f64 other (chargeBudget f64 dialect runId usd tokens t).2).tokensSpent.toInt =
        (getBudget f64 other t).tokensSpent.toInt + (BudgetCall.charge runId usd tokens).tokensFor other := by
  unfold chargeBudget
  cases dollars : usdCharged f64 dialect runId usd t with
  | none =>
    -- the database refused the dollars, so the charge is one of no tokens
    have nothing : tokens.toInt = 0 := by
      by_contra some_
      simpa [dollars] using taken some_
    exact ⟨integral, fun other => by simp [BudgetCall.tokensFor, nothing]⟩
  | some usdSpent =>
    simp only [tokensCharged_of_fits integral fits]
    constructor
    · intro other row found
      rw [Table.find?_upsert] at found
      split at found
      next =>
        cases old : t.find? other with
        | none =>
          simp only [old, Option.elim_none, Option.some.injEq] at found
          exact ⟨_, by rw [← found]⟩
        | some old' =>
          simp only [old, Option.elim_some, Option.some.injEq] at found
          exact ⟨_, by rw [← found]⟩
      next => exact integral other row found
    · intro other
      by_cases same : runId = other
      · subst same
        -- the sum is an i64, so it is stored as it is
        have sum := toInt_add_of_fits fits
        simp only [BudgetCall.tokensFor, if_true, ← sum]
        generalize (getBudget f64 runId t).tokensSpent + tokens = tokensSpent
        cases found : t.find? runId with
        | none => simp [getBudget, Table.find?_upsert, found, Cell.i64]
        | some row => simp [getBudget, Table.find?_upsert, found, Cell.i64]
      · simp [getBudget, Table.find?_upsert, same, BudgetCall.tokensFor]

/-- The number that a sum wraps around to is on the right side of the cap exactly in range. -/
theorem wrapped_le_iff {sum cap : Int} (low : -2 ^ 64 ≤ sum) (high : sum < 2 ^ 64) (positive : 0 < cap) (isI64 : Fits cap) :
    (sum.bmod (2 ^ 64) ≤ cap ↔ sum ≤ cap) ↔ Fits sum ∨ (sum < -2 ^ 63 ∧ sum + 2 ^ 64 ≤ cap) := by
  obtain ⟨_, belowMax⟩ := isI64
  by_cases above : 2 ^ 63 ≤ sum
  · have wrapped : sum.bmod (2 ^ 64) = sum - 2 ^ 64 := by
      rw [← Int.sub_bmod_right]
      exact Int.bmod_eq_of_le_mul_two (by omega) (by omega)
    unfold Fits
    omega
  · by_cases below : sum < -2 ^ 63
    · have wrapped : sum.bmod (2 ^ 64) = sum + 2 ^ 64 := by
        rw [← Int.add_bmod_right]
        exact Int.bmod_eq_of_le_mul_two (by omega) (by omega)
      unfold Fits
      omega
    · have same : sum.bmod (2 ^ 64) = sum := Int.bmod_eq_of_le_mul_two (by omega) (by omega)
      unfold Fits
      omega

/-- The handler judges by the sum as it has wrapped around. -/
theorem overTokens_eq_false_iff (b : BudgetState F) (tokenEstimate : Int64) : overTokens b tokenEstimate = false ↔
    (0 < b.tokenCap.toInt → (b.tokensSpent.toInt + tokenEstimate.toInt).bmod (2 ^ 64) ≤ b.tokenCap.toInt) := by
  simp [overTokens, Int64.lt_iff_toInt_lt]

theorem admitted_iff (runId : String) (usdEstimate : F) (tokenEstimate : Int64) (t : Budgets F) :
    (admitBudget f64 runId usdEstimate tokenEstimate t).admitted ↔
      overUsd f64 (getBudget f64 runId t) usdEstimate = false ∧ overTokens (getBudget f64 runId t) tokenEstimate = false := by
  unfold admitBudget
  cases usd : overUsd f64 (getBudget f64 runId t) usdEstimate with
  | true => simp [usd]
  | false => cases tokens : overTokens (getBudget f64 runId t) tokenEstimate <;> simp [usd, tokens]

/-- An answer is right exactly in range. -/
theorem admits_iff (runId : String) (usdEstimate : F) (tokenEstimate : Int64) (t : Budgets F) :
    let b := getBudget f64 runId t
    ((admitBudget f64 runId usdEstimate tokenEstimate t).admitted ↔ overUsd f64 b usdEstimate = false ∧
      (0 < b.tokenCap.toInt → b.tokensSpent.toInt + tokenEstimate.toInt ≤ b.tokenCap.toInt)) ↔
    InRange f64 dialect t (.admitBudget runId usdEstimate tokenEstimate) := by
  simp only [admitted_iff, overTokens_eq_false_iff, InRange]
  generalize getBudget f64 runId t = b
  have spent := fits_toInt b.tokensSpent
  have estimate := fits_toInt tokenEstimate
  have cap := fits_toInt b.tokenCap
  cases overUsd f64 b usdEstimate with
  | true => simp
  | false =>
    by_cases positive : 0 < b.tokenCap.toInt
    · have wrapped : ((b.tokensSpent.toInt + tokenEstimate.toInt).bmod (2 ^ 64) ≤ b.tokenCap.toInt ↔ _) ↔ _ :=
        wrapped_le_iff (by unfold Fits at *; omega) (by unfold Fits at *; omega) positive cap
      simpa [positive] using wrapped
    · simp [positive]

/-- A charge of some tokens that is shown was taken by the database, and fits. -/
theorem inRange_of_shown {usd : F} {tokens : Int64}
    (shown : (getBudget f64 runId (chargeBudget f64 dialect runId usd tokens t).2).tokensSpent.toInt =
      (getBudget f64 runId t).tokensSpent.toInt + tokens.toInt) :
    InRange f64 dialect t (.charge runId usd tokens) := by
  intro some_
  refine ⟨?_, shown ▸ fits_toInt _⟩
  cases dollars : usdCharged f64 dialect runId usd t with
  | some usdSpent => rfl
  | none =>
    -- a refused charge leaves the sum as it was
    simp only [chargeBudget, dollars] at shown
    omega

/-- A call in range leaves integers, and each sum with what the call charges. -/
theorem serve_of_inRange (integral : Integral t) {call : BudgetCall F} (inRange : InRange f64 dialect t call) :
    Integral (serve f64 dialect t call) ∧ ∀ other, (getBudget f64 other (serve f64 dialect t call)).tokensSpent.toInt =
      (getBudget f64 other t).tokensSpent.toInt + call.tokensFor other := by
  cases call with
  | set runId usdCap tokenCap =>
    refine ⟨integral_setBudget integral usdCap tokenCap, fun other => ?_⟩
    have kept : (getBudget f64 other (setBudget f64 dialect runId usdCap tokenCap t).2).tokensSpent = _ :=
      tokensSpent_setBudget other usdCap tokenCap
    simp [serve, kept, BudgetCall.tokensFor]
  | charge runId usd tokens =>
    have fits : Fits ((getBudget f64 runId t).tokensSpent.toInt + tokens.toInt) := by
      by_cases nothing : tokens.toInt = 0
      · rw [nothing, Int.add_zero]
        exact fits_toInt _
      · exact (inRange nothing).2
    exact chargeBudget_of_fits integral fits fun some_ => (inRange some_).1
  | admitBudget runId usdEstimate tokenEstimate => exact ⟨integral, fun other => by simp [serve, BudgetCall.tokensFor]⟩

end Calls

/-! ## Any number of calls -/

section Runs

variable {F : Type} {f64 : F64 F} {dialect : Subjects.Dialect} {calls : List (BudgetCall F)}

theorem charged_concat (runId : String) (calls : List (BudgetCall F)) (call : BudgetCall F) :
    charged runId (calls ++ [call]) = charged runId calls + call.tokensFor runId := by
  simp [charged]

/-- After calls in range every budget shows its sum. -/
theorem shows_sum (inRange : Along (serve f64 dialect) (InRange f64 dialect) .empty calls) :
    Integral (run (serve f64 dialect) .empty calls) ∧ ∀ runId,
      (getBudget f64 runId (run (serve f64 dialect) .empty calls)).tokensSpent.toInt = charged runId calls := by
  induction calls using List.reverseRecOn with
  | nil => exact ⟨integral_empty, fun _ => rfl⟩
  | append_singleton calls call inductionHypothesis =>
    obtain ⟨earlier, last, -⟩ := Along.append.mp inRange
    obtain ⟨integral, sums⟩ := inductionHypothesis earlier
    have next : Integral (serve f64 dialect _ call) ∧ _ := serve_of_inRange integral last
    obtain ⟨integral', sums'⟩ := next
    rw [run_append]
    exact ⟨integral', fun runId => by rw [charged_concat, ← sums]; exact sums' runId⟩

theorem inRange_of_exact (isExact : Exact f64 dialect calls) : Along (serve f64 dialect) (InRange f64 dialect) .empty calls := by
  induction calls using List.reverseRecOn with
  | nil => trivial
  | append_singleton calls call inductionHypothesis =>
    have earlier := inductionHypothesis
      { spent := fun before isPrefix => isExact.spent before (isPrefix.trans (List.prefix_append ..))
        admits := fun before runId usd tokens isPrefix =>
          isExact.admits before runId usd tokens (isPrefix.trans (List.prefix_append ..)) }
    refine Along.append.mpr ⟨earlier, ?_, trivial⟩
    obtain ⟨integral, sums⟩ := shows_sum earlier
    cases call with
    | set => trivial
    | charge runId usd tokens =>
      have shown := isExact.spent _ (List.prefix_refl _) runId
      rw [charged_concat, run_append, ← sums] at shown
      refine inRange_of_shown (shown.trans ?_)
      simp [BudgetCall.tokensFor]
    | admitBudget runId usdEstimate tokenEstimate =>
      exact (admits_iff runId usdEstimate tokenEstimate _).mp (isExact.admits calls runId _ _ (List.prefix_refl _))

/-- Budgets are exact for just the histories that stay in range. -/
theorem budget_exact_iff (f64 : F64 F) (dialect : Subjects.Dialect) (calls : List (BudgetCall F)) :
    Exact f64 dialect calls ↔ Along (serve f64 dialect) (InRange f64 dialect) .empty calls := by
  refine ⟨inRange_of_exact, fun inRange => ⟨fun before isPrefix => ?_, fun before runId usd tokens isPrefix => ?_⟩⟩
  · exact (shows_sum (inRange.initial isPrefix)).2
  · have last := (Along.append.mp (inRange.initial isPrefix)).2.1
    exact (admits_iff runId usd tokens _).mpr last

/-! ## An estimate that wraps around -/

/-- Whole numbers of dollars. -/
def dollars : F64 Int where
  zero := 0
  add := (· + ·)
  lt a b := a < b
  isNan _ := false
  isFinite _ := true
  ofI64 := Int64.toInt
  toI64 n := Int64.ofInt n
  integer n := some (Int64.ofInt n)
  twoDigits n := toString n ++ ".00"

def hugeEstimate : List (BudgetCall Int) := [.set "r" 0 1000, .charge "r" 0 1, .admitBudget "r" 0 Int64.maxValue]

/-- An estimate of all the tokens there can be is admitted against a cap of a thousand. -/
theorem huge_estimate_admitted : ¬ Exact dollars .sqlite hugeEstimate := by
  intro isExact
  have inRange := inRange_of_exact isExact
  revert inRange
  decide

end Runs

end Tape.Budget
