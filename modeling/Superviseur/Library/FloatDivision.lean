import Mathlib.Algebra.Order.Field.Power
import Mathlib.Data.Rat.Floor
import Mathlib.Tactic.Linarith
import Mathlib.Tactic.NormNum
import Superviseur.Library.PyFloat

/-!
# Division of floats

A quotient is the exact one, rounded. What rounding keeps is said in three ways: a number that is at
most a whole number stays so (`nearest_le`), one that is at least a whole number too (`le_nearest`),
and none loses more than `2 ^ (-53)` of itself (`mul_le_nearest`).
-/

namespace PyFloat

/-- `x / n`, for a positive `n` that a float holds exactly. -/
def divNat (x : PyFloat) (n : ℕ) : PyFloat :=
  match x with
  | num (some (some q)) => round (q / n)
  | _ => x

/-- `math.ceil(x)`, which raises where `x` is not finite. -/
def ceil : PyFloat → Option ℤ
  | num (some (some q)) => some ⌈q⌉
  | _ => none

theorem divNat_fin (q : ℚ) (n : ℕ) : (fin q).divNat n = round (q / n) := rfl

theorem ceil_fin (q : ℚ) : (fin q).ceil = some ⌈q⌉ := rfl

/-! ## Nearest integers -/

variable {q : ℚ} {n : ℤ}

theorem roundHalfEven_le (h : q ≤ n) : roundHalfEven q ≤ n := by
  have hfloor : ⌊q⌋ ≤ n := Int.cast_le.mp ((Int.floor_le q).trans h)
  rcases hfloor.lt_or_eq with hlt | rfl
  · rw [roundHalfEven]
    split_ifs <;> omega
  · -- there is nothing after the point
    have hfract : Int.fract q < 1 / 2 := by
      rw [Int.fract, sub_eq_zero_of_eq (le_antisymm h (Int.floor_le q))]
      norm_num
    rw [roundHalfEven, if_pos hfract]

theorem le_roundHalfEven (h : n ≤ q) : n ≤ roundHalfEven q := by
  have hfloor : n ≤ ⌊q⌋ := Int.le_floor.mpr h
  rw [roundHalfEven]
  split_ifs <;> omega

theorem sub_half_le_roundHalfEven (q : ℚ) : q - 1 / 2 ≤ roundHalfEven q := by
  have hfract := Int.floor_add_fract q
  have hlt := Int.fract_lt_one q
  rw [roundHalfEven]
  split_ifs <;> push_cast <;> linarith

/-! ## Nearest floats -/

/-- The nearest binary64 number, where there is no bound. -/
def nearest (q : ℚ) : ℚ := (roundHalfEven (q / 2 ^ ulpExponent q) : ℚ) * 2 ^ ulpExponent q

theorem round_eq (q : ℚ) : round q =
    if |nearest q| < 2 ^ 1024 then fin (nearest q) else if q < 0 then negInf else inf := rfl

theorem ulpExponent_nonpos (hq : |q| < 2 ^ 53) : ulpExponent q ≤ 0 := by
  have hlog : Int.log 2 |q| < 53 := by
    rcases (abs_nonneg q).eq_or_lt with hzero | hpos
    · rw [← hzero, Int.log_zero_right]
      norm_num
    · exact (Int.lt_zpow_iff_log_lt Nat.one_lt_two hpos).mp (by exact_mod_cast hq)
  rw [ulpExponent]
  omega

theorem exists_intCast_div {e : ℤ} (he : e ≤ 0) (n : ℤ) : ∃ m : ℤ, (n : ℚ) / 2 ^ e = m := by
  obtain ⟨k, rfl⟩ : ∃ k : ℕ, e = -k := ⟨e.natAbs, by omega⟩
  refine ⟨n * 2 ^ k, ?_⟩
  rw [zpow_neg, zpow_natCast, div_inv_eq_mul]
  push_cast
  rfl

theorem nearest_le (hq : |q| < 2 ^ 53) (h : q ≤ n) : nearest q ≤ n := by
  have hulp : (0 : ℚ) < 2 ^ ulpExponent q := zpow_pos two_pos _
  obtain ⟨m, hm⟩ := exists_intCast_div (ulpExponent_nonpos hq) n
  have hround : roundHalfEven (q / 2 ^ ulpExponent q) ≤ m :=
    roundHalfEven_le (hm ▸ div_le_div_of_nonneg_right h hulp.le)
  rw [nearest, ← le_div_iff₀ hulp, hm]
  exact Int.cast_le.mpr hround

theorem le_nearest (hq : |q| < 2 ^ 53) (h : n ≤ q) : n ≤ nearest q := by
  have hulp : (0 : ℚ) < 2 ^ ulpExponent q := zpow_pos two_pos _
  obtain ⟨m, hm⟩ := exists_intCast_div (ulpExponent_nonpos hq) n
  have hround : m ≤ roundHalfEven (q / 2 ^ ulpExponent q) :=
    le_roundHalfEven (hm ▸ div_le_div_of_nonneg_right h hulp.le)
  rw [nearest, ← div_le_iff₀ hulp, hm]
  exact Int.cast_le.mpr hround

theorem zpow_ulpExponent_le (hq : 2 ^ (-1022 : ℤ) ≤ q) : (2 : ℚ) ^ ulpExponent q ≤ q / 2 ^ 52 := by
  have hpos : 0 < q := (zpow_pos two_pos _).trans_le hq
  have hlog : (-1022 : ℤ) ≤ Int.log 2 |q| := by
    rw [abs_of_pos hpos]
    exact (Int.zpow_le_iff_le_log Nat.one_lt_two hpos).mp hq
  have hexponent : ulpExponent q = Int.log 2 |q| - 52 := by
    rw [ulpExponent]
    omega
  rw [hexponent, abs_of_pos hpos, zpow_sub₀ two_ne_zero]
  refine div_le_div_of_nonneg_right ?_ (by positivity)
  exact Int.zpow_log_le_self Nat.one_lt_two hpos

theorem mul_le_nearest (hq : 2 ^ (-1022 : ℤ) ≤ q) : q * (1 - 1 / 2 ^ 53) ≤ nearest q := by
  have hulp : (0 : ℚ) < 2 ^ ulpExponent q := zpow_pos two_pos _
  have hhalf := mul_le_mul_of_nonneg_right
    (sub_half_le_roundHalfEven (q / 2 ^ ulpExponent q)) hulp.le
  rw [sub_mul, div_mul_cancel₀ _ hulp.ne'] at hhalf
  have hsmall := zpow_ulpExponent_le hq
  rw [nearest]
  linarith

theorem mul_le_nearest_of_le (hq : 1 / 2 ^ 64 ≤ q) : q * (1 - 1 / 2 ^ 53) ≤ nearest q := by
  have hpow : (2 : ℚ) ^ (-1022 : ℤ) ≤ 2 ^ (-64 : ℤ) := zpow_le_zpow_right₀ one_le_two (by norm_num)
  rw [zpow_neg (2 : ℚ) 64, ← one_div] at hpow
  exact mul_le_nearest (hpow.trans (by exact_mod_cast hq))

theorem round_of_lt (hq : |q| < 2 ^ 53) : round q = fin (nearest q) := by
  have hle : nearest q ≤ (2 ^ 53 : ℤ) := nearest_le hq (by push_cast; exact (abs_lt.mp hq).2.le)
  have hge : (-2 ^ 53 : ℤ) ≤ nearest q := le_nearest hq (by push_cast; exact (abs_lt.mp hq).1.le)
  have habs : |nearest q| ≤ 2 ^ 53 := by
    push_cast at hle hge
    exact abs_le.mpr ⟨hge, hle⟩
  rw [round_eq, if_pos (habs.trans_lt (pow_lt_pow_right₀ one_lt_two (by norm_num)))]

end PyFloat
