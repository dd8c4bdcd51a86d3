import Mathlib.Data.Rat.Floor
import Mathlib.Data.Int.Log
import Mathlib.Order.WithBot

/-!
# Python floats

A `float` is NaN or a number of the extended line; the finite ones are carried as exact rationals,
so that comparison, truncation and truth value are those of the language without any error term.
Only arithmetic rounds, and it rounds once, to the nearest binary64 number with ties to even.

Comparisons follow the language: every one of them is false on NaN, which is why neither `<` nor
`≤` is declared as an order here. The order lives on the numbers, where it is the one of
`WithBot (WithTop ℚ)`; the lemmas below move a comparison there.
-/

/-- A Python `float`. -/
inductive PyFloat where
  | nan
  /-- `-inf` is `⊥` and `inf` is `⊤`. -/
  | num (x : WithBot (WithTop ℚ))
  deriving DecidableEq

namespace PyFloat

/-- The finite float of value `q`. -/
def fin (q : ℚ) : PyFloat := num ((q : WithTop ℚ) : WithBot (WithTop ℚ))

/-- `float("inf")`. -/
def inf : PyFloat := num ((⊤ : WithTop ℚ) : WithBot (WithTop ℚ))

/-- `-float("inf")`. -/
def negInf : PyFloat := num ⊥

/-! ## Comparisons -/

/-- `x < y`. -/
def lt : PyFloat → PyFloat → Bool
  | num x, num y => decide (x < y)
  | _, _ => false

/-- `x <= y`. -/
def le : PyFloat → PyFloat → Bool
  | num x, num y => decide (x ≤ y)
  | _, _ => false

/-- `math.isnan(x)`. -/
def isNan : PyFloat → Bool
  | nan => true
  | num _ => false

@[simp] theorem lt_num (x y : WithBot (WithTop ℚ)) : lt (num x) (num y) = true ↔ x < y :=
  decide_eq_true_iff

@[simp] theorem le_num (x y : WithBot (WithTop ℚ)) : le (num x) (num y) = true ↔ x ≤ y :=
  decide_eq_true_iff

@[simp] theorem nan_lt (y : PyFloat) : lt nan y = false := rfl

@[simp] theorem lt_nan (x : PyFloat) : lt x nan = false := by cases x <;> rfl

@[simp] theorem nan_le (y : PyFloat) : le nan y = false := rfl

@[simp] theorem le_nan (x : PyFloat) : le x nan = false := by cases x <;> rfl

@[simp] theorem lt_fin (p q : ℚ) : lt (fin p) (fin q) = true ↔ p < q := by
  rw [fin, fin, lt_num, WithBot.coe_lt_coe, WithTop.coe_lt_coe]

@[simp] theorem le_fin (p q : ℚ) : le (fin p) (fin q) = true ↔ p ≤ q := by
  rw [fin, fin, le_num, WithBot.coe_le_coe, WithTop.coe_le_coe]

theorem fin_inj {p q : ℚ} : fin p = fin q ↔ p = q := by
  rw [fin, fin, num.injEq, WithBot.coe_inj, WithTop.coe_inj]

/-- On numbers, refusing what is below a bound leaves exactly what is at least the bound. -/
theorem not_lt_iff_le {x y : PyFloat} (hx : x ≠ nan) (hy : y ≠ nan) :
    lt x y = false ↔ le y x = true := by
  cases x with
  | nan => exact absurd rfl hx
  | num a =>
    cases y with
    | nan => exact absurd rfl hy
    | num b => rw [← Bool.not_eq_true, lt_num, le_num, not_lt]

theorem le_trans {x y z : PyFloat} (hxy : le x y = true) (hyz : le y z = true) :
    le x z = true := by
  cases x with
  | nan => simp at hxy
  | num a =>
    cases z with
    | nan => simp at hyz
    | num c =>
      cases y with
      | nan => simp at hxy
      | num b =>
        rw [le_num] at hxy hyz ⊢
        exact hxy.trans hyz

/-! ## Truth value and truncation -/

/-- `bool(x)`: everything but a zero, NaN included. -/
def truthy (x : PyFloat) : Bool := decide (x ≠ fin 0)

/-- Truncation towards zero. -/
def truncRat (q : ℚ) : ℤ := if 0 ≤ q then ⌊q⌋ else ⌈q⌉

/-- `int(x)`; `none` where it raises: `ValueError` on NaN, `OverflowError` on an infinity. -/
def toInt : PyFloat → Option ℤ
  | nan => none
  | num ⊥ => none
  | num (some none) => none
  | num (some (some q)) => some (truncRat q)

@[simp] theorem toInt_nan : toInt nan = none := rfl

@[simp] theorem toInt_fin (q : ℚ) : toInt (fin q) = some (truncRat q) := rfl

/-- `math.isfinite`. -/
def isFinite (x : PyFloat) : Bool := x.toInt.isSome

theorem toInt_eq_some_iff {x : PyFloat} {n : ℤ} :
    toInt x = some n ↔ ∃ q, x = fin q ∧ truncRat q = n := by
  constructor
  · intro h
    match x, h with
    | num (some (some q)), h => exact ⟨q, rfl, Option.some.inj h⟩
  · rintro ⟨q, rfl, rfl⟩
    rfl

/-! ## Arithmetic

The result of `+`, `-` and `abs` is the exact result rounded to binary64. -/

/-- Nearest integer, ties to even. -/
def roundHalfEven (q : ℚ) : ℤ :=
  if Int.fract q < 1 / 2 then ⌊q⌋
  else if 1 / 2 < Int.fract q then ⌊q⌋ + 1
  else if ⌊q⌋ % 2 = 0 then ⌊q⌋ else ⌊q⌋ + 1

/-- The exponent of the last binary64 digit of a number of the size of `q`. -/
def ulpExponent (q : ℚ) : ℤ := max (Int.log 2 |q| - 52) (-1074)

/-- The nearest binary64 number, an infinity from `2 ^ 1024` on. -/
def round (q : ℚ) : PyFloat :=
  let r := (roundHalfEven (q / 2 ^ ulpExponent q) : ℚ) * 2 ^ ulpExponent q
  if |r| < 2 ^ 1024 then fin r else if q < 0 then negInf else inf

/-- `-x`. -/
def neg : PyFloat → PyFloat
  | nan => nan
  | num ⊥ => inf
  | num (some none) => negInf
  | num (some (some q)) => fin (-q)

/-- `x + y`. -/
def add : PyFloat → PyFloat → PyFloat
  | num (some (some p)), num (some (some q)) => round (p + q)
  | nan, _ => nan
  | _, nan => nan
  | num ⊥, num (some none) => nan
  | num (some none), num ⊥ => nan
  | num ⊥, _ => negInf
  | _, num ⊥ => negInf
  | _, _ => inf

/-- `x - y`. -/
def sub (x y : PyFloat) : PyFloat := add x (neg y)

/-- `abs(x)`. -/
def abs (x : PyFloat) : PyFloat := if lt x (fin 0) then neg x else x

theorem abs_fin (q : ℚ) : (fin q).abs = fin |q| := by
  rw [abs]
  split
  · rename_i hlt
    rw [abs_of_neg ((lt_fin q 0).mp hlt)]
    rfl
  · rename_i hnot
    rw [abs_of_nonneg (not_lt.mp fun hlt ↦ hnot ((lt_fin q 0).mpr hlt))]

end PyFloat
