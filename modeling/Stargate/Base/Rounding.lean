import Mathlib.Algebra.Order.Field.Rat
import Mathlib.Algebra.Order.Floor.Semiring
import Mathlib.Data.Rat.Floor
import Mathlib.Data.Int.Log
import Mathlib.Tactic.Linarith
import Mathlib.Tactic.NormNum
import Mathlib.Tactic.FieldSimp

/-!
# Rounding rational numbers

The three roundings to an integer that the program's number types use, and
rounding to an IEEE 754 double:

- `roundHalfUp`: ties towards `+∞` (`Number.prototype.toFixed`, "if there are
  two such `n`, pick the larger");
- `roundHalfAway`: ties away from zero (a `NUMERIC(p, s)` column);
- `roundHalfEven`: ties to even (`Decimal::round_dp`, IEEE 754);
- `toBinary64`: the nearest double, ties to even. Its relative error is at most
  `2⁻⁵³`, so units of `10⁻⁷` survive it below `2²⁹` (`roundHalfUp_toBinary64`), and a larger
  number has no smaller double (`toBinary64_mono`).
-/

namespace Stargate.Base

/-- Nearest integer, ties towards `+∞`. -/
def roundHalfUp (x : ℚ) : Int := ⌊x + 1 / 2⌋

/-- Nearest integer, ties away from zero. -/
def roundHalfAway (x : ℚ) : Int := if 0 ≤ x then roundHalfUp x else -roundHalfUp (-x)

/-- Nearest integer, ties to even. -/
def roundHalfEven (x : ℚ) : Int :=
  if x - ⌊x⌋ < 1 / 2 then ⌊x⌋
  else if 1 / 2 < x - ⌊x⌋ then ⌊x⌋ + 1
  else if ⌊x⌋ % 2 = 0 then ⌊x⌋ else ⌊x⌋ + 1

theorem roundHalfUp_eq_iff {x : ℚ} {n : Int} :
    roundHalfUp x = n ↔ -(1 / 2) ≤ x - n ∧ x - n < 1 / 2 := by
  rw [roundHalfUp, Int.floor_eq_iff]
  constructor
  · rintro ⟨h₁, h₂⟩
    constructor <;> linarith
  · rintro ⟨h₁, h₂⟩
    constructor <;> linarith

@[simp] theorem roundHalfUp_intCast (n : Int) : roundHalfUp n = n :=
  roundHalfUp_eq_iff.mpr (by norm_num)

@[simp] theorem roundHalfAway_intCast (n : Int) : roundHalfAway n = n := by
  unfold roundHalfAway
  split
  · exact roundHalfUp_intCast n
  · rw [← Int.cast_neg, roundHalfUp_intCast, neg_neg]

/-- Whole numbers pass through the rounding of a sum. -/
theorem roundHalfUp_intCast_add (n : Int) (x : ℚ) : roundHalfUp (n + x) = n + roundHalfUp x := by
  rw [roundHalfUp, add_assoc, Int.floor_intCast_add, roundHalfUp]

theorem roundHalfUp_nonneg {x : ℚ} (h : 0 ≤ x) : 0 ≤ roundHalfUp x :=
  Int.floor_nonneg.mpr (by linarith)

theorem roundHalfAway_of_nonneg {x : ℚ} (h : 0 ≤ x) : roundHalfAway x = roundHalfUp x := if_pos h

theorem roundHalfAway_nonpos {x : ℚ} (h : x < 0) : roundHalfAway x ≤ 0 := by
  rw [roundHalfAway, if_neg (not_le.mpr h)]
  have := roundHalfUp_nonneg (x := -x) (by linarith)
  omega

/-- Above a whole number that is not negative, only a positive rest rounds further up. -/
theorem roundHalfAway_intCast_add_iff {n u : Int} {x : ℚ} (hn : 0 ≤ n) (hu : 0 < u) :
    roundHalfAway (n + x) = n + u ↔ roundHalfAway x = u := by
  have hcast : (0 : ℚ) ≤ n := by exact_mod_cast hn
  rcases le_or_gt 0 x with hx | hx
  · rw [roundHalfAway_of_nonneg hx, roundHalfAway_of_nonneg (add_nonneg hcast hx),
      roundHalfUp_intCast_add]
    omega
  · have hrest := roundHalfAway_nonpos hx
    refine iff_of_false (fun h => ?_) (by omega)
    rcases le_or_gt 0 ((n : ℚ) + x) with hsum | hsum
    · rw [roundHalfAway_of_nonneg hsum, roundHalfUp_eq_iff] at h
      push_cast at h
      have : (1 : ℚ) ≤ u := by exact_mod_cast hu
      linarith [h.1]
    · have := roundHalfAway_nonpos hsum
      omega

@[simp] theorem roundHalfEven_intCast (n : Int) : roundHalfEven n = n := by
  simp [roundHalfEven]

/-- Rounding to even moves a number by at most one half. -/
theorem abs_roundHalfEven_sub_le (x : ℚ) : |(roundHalfEven x : ℚ) - x| ≤ 1 / 2 := by
  have h₁ := Int.floor_le x
  have h₂ := Int.lt_floor_add_one x
  unfold roundHalfEven
  rw [abs_le]
  split_ifs <;> push_cast <;> constructor <;> linarith

theorem roundHalfEven_mono {x y : ℚ} (h : x ≤ y) : roundHalfEven x ≤ roundHalfEven y := by
  rcases h.eq_or_lt with rfl | hlt
  · exact le_rfl
  by_contra hgt
  have hx := (abs_le.mp (abs_roundHalfEven_sub_le x)).2
  have hy := (abs_le.mp (abs_roundHalfEven_sub_le y)).1
  have hone : (roundHalfEven y : ℚ) + 1 ≤ roundHalfEven x := by
    exact_mod_cast Int.add_one_le_of_lt (not_le.mp hgt)
  linarith

theorem roundHalfEven_nonpos {x : ℚ} (h : x ≤ 0) : roundHalfEven x ≤ 0 := by
  have hfloor : ⌊x⌋ ≤ 0 := by
    have := Int.floor_le x
    exact_mod_cast this.trans h
  have hup : ¬ x - ⌊x⌋ < 1 / 2 → ⌊x⌋ + 1 ≤ 0 := by
    intro hfrac
    have hlt : ((⌊x⌋ : Int) : ℚ) < 0 := by linarith
    have : ⌊x⌋ < 0 := by exact_mod_cast hlt
    omega
  unfold roundHalfEven
  split_ifs with h₁ h₂ h₃
  · exact hfloor
  · exact hup h₁
  · exact hfloor
  · exact hup h₁

/-! ## Doubles -/

/-- The exponent of the last place of a double near `x` (normal and subnormal
range; overflow to infinity is out of scope). -/
def ulpExponent (x : ℚ) : Int := max (Int.log 2 |x|) (-1022) - 52

/-- The double nearest to `x`, ties to even. -/
def toBinary64 (x : ℚ) : ℚ := roundHalfEven (x / 2 ^ ulpExponent x) * 2 ^ ulpExponent x

/-- The error of a double is at most half a unit in the last place. -/
theorem abs_toBinary64_sub_le (x : ℚ) : |toBinary64 x - x| ≤ 1 / 2 * 2 ^ ulpExponent x := by
  have hpos : (0 : ℚ) < 2 ^ ulpExponent x := zpow_pos (by norm_num) _
  have hfac : toBinary64 x - x
      = ((roundHalfEven (x / 2 ^ ulpExponent x) : ℚ) - x / 2 ^ ulpExponent x)
        * 2 ^ ulpExponent x := by
    unfold toBinary64
    field_simp
  rw [hfac, abs_mul, abs_of_pos hpos]
  exact mul_le_mul_of_nonneg_right (abs_roundHalfEven_sub_le _) hpos.le

theorem toBinary64_nonpos {x : ℚ} (h : x ≤ 0) : toBinary64 x ≤ 0 := by
  have hpos : (0 : ℚ) < 2 ^ ulpExponent x := zpow_pos (by norm_num) _
  have := roundHalfEven_nonpos (div_nonpos_of_nonpos_of_nonneg h hpos.le)
  exact mul_nonpos_of_nonpos_of_nonneg (by exact_mod_cast this) hpos.le

/-- The last place is at most the number itself, or one. -/
theorem ulp_le (x : ℚ) : (2 : ℚ) ^ ulpExponent x ≤ |x| + 1 := by
  have habs := abs_nonneg x
  rcases eq_or_ne x 0 with rfl | hx
  · have hle : ulpExponent 0 ≤ 0 := by simp [ulpExponent]
    calc (2 : ℚ) ^ ulpExponent 0 ≤ 2 ^ (0 : Int) := zpow_le_zpow_right₀ (by norm_num) hle
      _ ≤ |0| + 1 := by norm_num
  · rcases le_total (Int.log 2 |x|) (-1022) with hlog | hlog
    · have hle : ulpExponent x ≤ 0 := by
        rw [ulpExponent, max_eq_right hlog]
        norm_num
      calc (2 : ℚ) ^ ulpExponent x ≤ 2 ^ (0 : Int) := zpow_le_zpow_right₀ (by norm_num) hle
        _ ≤ |x| + 1 := by
          rw [zpow_zero]
          linarith
    · have hle : ulpExponent x ≤ Int.log 2 |x| := by
        rw [ulpExponent, max_eq_left hlog]
        omega
      calc (2 : ℚ) ^ ulpExponent x ≤ 2 ^ Int.log 2 |x| := zpow_le_zpow_right₀ (by norm_num) hle
        _ ≤ |x| := by exact_mod_cast Int.zpow_log_le_self (b := 2) (by decide) (abs_pos.mpr hx)
        _ ≤ |x| + 1 := by linarith

/-- A double is of the size of the number it stands for. -/
theorem toBinary64_le {x : ℚ} (h : 0 ≤ x) : toBinary64 x ≤ 2 * x + 1 := by
  have herr := (abs_le.mp (abs_toBinary64_sub_le x)).2
  have hulp := ulp_le x
  rw [abs_of_nonneg h] at hulp
  linarith

/-- Below `2²⁹` the last place of a double is at most `2⁻²⁴`. -/
theorem ulpExponent_le {x : ℚ} (h₀ : 0 ≤ x) (h : x < 2 ^ 29) : ulpExponent x ≤ -24 := by
  unfold ulpExponent
  have hlog : Int.log 2 |x| ≤ 28 := by
    rw [abs_of_nonneg h₀]
    rcases h₀.eq_or_lt with rfl | hpos
    · simp
    · have := (Int.lt_zpow_iff_log_lt (b := 2) (by decide) (x := 29) hpos).mp (by exact_mod_cast h)
      omega
  omega

/-- Below `2²⁹` a multiple of `10⁻⁷` is the multiple nearest to its double. -/
theorem roundHalfUp_toBinary64 {n : Nat} (h : n < 2 ^ 29 * 10 ^ 7) :
    roundHalfUp (toBinary64 (n / 10 ^ 7) * 10 ^ 7) = n := by
  have hx : (n : ℚ) / 10 ^ 7 < 2 ^ 29 := by
    rw [div_lt_iff₀ (by norm_num)]
    exact_mod_cast h
  have hulp : (2 : ℚ) ^ ulpExponent ((n : ℚ) / 10 ^ 7) ≤ 2 ^ (-24 : Int) :=
    zpow_le_zpow_right₀ (by norm_num) (ulpExponent_le (by positivity) hx)
  have herr := (abs_le.mp (abs_toBinary64_sub_le ((n : ℚ) / 10 ^ 7)))
  have hbound : (1 : ℚ) / 2 * 2 ^ (-24 : Int) * 10 ^ 7 < 1 / 2 := by norm_num
  have hscale : (n : ℚ) / 10 ^ 7 * 10 ^ 7 = n := by field_simp
  refine roundHalfUp_eq_iff.mpr ⟨?_, ?_⟩ <;> push_cast <;> nlinarith [herr.1, herr.2]

/-! ## The order of doubles -/

section Order

variable {x y : ℚ}

@[simp] theorem toBinary64_zero : toBinary64 0 = 0 := by
  have hzero : roundHalfEven 0 = 0 := by exact_mod_cast roundHalfEven_intCast 0
  rw [toBinary64, zero_div, hzero, Int.cast_zero, zero_mul]

theorem zpow_two_pos (e : Int) : (0 : ℚ) < 2 ^ e := zpow_pos (by norm_num) e

theorem ulpExponent_mono (hx : 0 < x) (h : x ≤ y) : ulpExponent x ≤ ulpExponent y := by
  rw [ulpExponent, ulpExponent, abs_of_pos hx, abs_of_pos (hx.trans_le h)]
  have hlog : Int.log 2 x ≤ Int.log 2 y := Int.log_mono_right hx h
  omega

/-- A double has at most 53 binary digits. -/
theorem toBinary64_le_ulp (hx : 0 < x) : toBinary64 x ≤ 2 ^ 53 * 2 ^ ulpExponent x := by
  have hpos := zpow_two_pos (ulpExponent x)
  have hlog : Int.log 2 x + 1 ≤ 53 + ulpExponent x := by
    rw [ulpExponent, abs_of_pos hx]
    omega
  have hlt : x ≤ 2 ^ (53 : Int) * 2 ^ ulpExponent x := by
    rw [← zpow_add₀ (by norm_num)]
    calc x ≤ 2 ^ (Int.log 2 x + 1) := by
          exact_mod_cast (Int.lt_zpow_succ_log_self (b := 2) (by decide) x).le
      _ ≤ 2 ^ (53 + ulpExponent x) := zpow_le_zpow_right₀ (by norm_num) hlog
  have hscaled : x / 2 ^ ulpExponent x ≤ ((2 ^ 53 : Int) : ℚ) := by
    rw [div_le_iff₀ hpos]
    exact_mod_cast hlt
  have hround := roundHalfEven_mono hscaled
  rw [roundHalfEven_intCast] at hround
  exact mul_le_mul_of_nonneg_right (by exact_mod_cast hround) hpos.le

/-- That of a normal number has 53. -/
theorem ulp_le_toBinary64 (hx : 0 < x) (hnormal : -1074 < ulpExponent x) :
    2 ^ 52 * 2 ^ ulpExponent x ≤ toBinary64 x := by
  have hpos := zpow_two_pos (ulpExponent x)
  have hlog : 52 + ulpExponent x = Int.log 2 x := by
    rw [ulpExponent, abs_of_pos hx] at hnormal ⊢
    omega
  have hle : 2 ^ (52 : Int) * 2 ^ ulpExponent x ≤ x := by
    rw [← zpow_add₀ (by norm_num), hlog]
    exact_mod_cast Int.zpow_log_le_self (b := 2) (by decide) hx
  have hscaled : ((2 ^ 52 : Int) : ℚ) ≤ x / 2 ^ ulpExponent x := by
    rw [le_div_iff₀ hpos]
    exact_mod_cast hle
  have hround := roundHalfEven_mono hscaled
  rw [roundHalfEven_intCast] at hround
  exact mul_le_mul_of_nonneg_right (by exact_mod_cast hround) hpos.le

theorem toBinary64_nonneg (hx : 0 ≤ x) : 0 ≤ toBinary64 x := by
  have hround := roundHalfEven_mono (div_nonneg hx (zpow_two_pos (ulpExponent x)).le)
  have hzero : roundHalfEven 0 = 0 := by exact_mod_cast roundHalfEven_intCast 0
  rw [hzero] at hround
  exact mul_nonneg (by exact_mod_cast hround) (zpow_two_pos _).le

/-- **A larger number has no smaller double**: either the last places are the same, or a power of
two stands between the doubles. -/
theorem toBinary64_mono (hx : 0 ≤ x) (h : x ≤ y) : toBinary64 x ≤ toBinary64 y := by
  rcases hx.eq_or_lt with rfl | hpos
  · rw [toBinary64_zero]
    exact toBinary64_nonneg h
  rcases (ulpExponent_mono hpos h).eq_or_lt with heq | hlt
  · have hulp := zpow_two_pos (ulpExponent y)
    rw [toBinary64, toBinary64, heq]
    refine mul_le_mul_of_nonneg_right ?_ hulp.le
    exact_mod_cast roundHalfEven_mono (div_le_div_of_nonneg_right h hulp.le)
  · -- `y` has a larger last place, so it is no subnormal number
    have hleast : -1074 ≤ ulpExponent x := by
      rw [ulpExponent]
      omega
    have hulp : (2 : ℚ) ^ (ulpExponent x + 1) ≤ 2 ^ ulpExponent y :=
      zpow_le_zpow_right₀ (by norm_num) (by omega)
    rw [zpow_add_one₀ (by norm_num)] at hulp
    calc toBinary64 x ≤ 2 ^ 53 * 2 ^ ulpExponent x := toBinary64_le_ulp hpos
      _ ≤ 2 ^ 52 * 2 ^ ulpExponent y := by linarith
      _ ≤ toBinary64 y := ulp_le_toBinary64 (hpos.trans_le h) (by omega)

end Order

end Stargate.Base
