import Stargate.Base.DoubleSums

/-!
# Products and quotients of doubles

What `parseFloat(a) * x` and `parseFloat(a) / x` make of numbers that are not negative: the text
and `x` are each rounded to a double, and so is the result.

- `JsNumber.mul`, `JsNumber.div`: the two operations;
- `toBinary64_lt_iff`: the numbers whose double is below a given one;
- `Close`, `close_mul`, `close_div`: three roundings together move a result by no more than one
  part in `10¹⁵`;
- `printedUnits`: the units of `10⁻⁷` that `toFixed(7)` shows of it.
-/

namespace Stargate.Base

namespace JsNumber

/-- Is it below zero? -/
def isNegative : JsNumber → Bool
  | .nan => false
  | .infinity negative => negative
  | .finite x => x < 0

/-- `x * y`. -/
def mul : JsNumber → JsNumber → JsNumber
  | .nan, _ | _, .nan => .nan
  | .finite x, .finite y => ofRat (x * y)
  | x, y =>
    -- one of the two is infinite
    if x = .finite 0 ∨ y = .finite 0 then .nan else .infinity (x.isNegative != y.isNegative)

/-- `x / y`. -/
def div : JsNumber → JsNumber → JsNumber
  | .nan, _ | _, .nan | .infinity _, .infinity _ => .nan
  | .infinity negative, .finite y => .infinity (negative != decide (y < 0))
  | .finite _, .infinity _ => .finite 0
  | .finite x, .finite y =>
    if y = 0 then if x = 0 then .nan else .infinity (x < 0) else ofRat (x / y)

end JsNumber

/-! ## The double below another -/

section Below

variable {x y : ℚ} {N : Nat} {u : Int}

/-- A number that is given by its last place. -/
theorem toBinary64_mul_zpow {u : Int} (hu : -1074 ≤ u) (hlow : 2 ^ 52 ≤ y) (hhigh : y < 2 ^ 53) :
    toBinary64 (y * 2 ^ u) = roundHalfEven y * 2 ^ u := by
  have hy : 0 < y := lt_of_lt_of_le (by norm_num) hlow
  have hpos := zpow_two_pos u
  -- `y` has 53 binary digits in front of its point
  have hlog : Int.log 2 (y * 2 ^ u) = u + 52 := by
    refine le_antisymm (Int.lt_add_one_iff.mp ?_) ?_
    · refine (Int.lt_zpow_iff_log_lt (by decide) (mul_pos hy hpos)).mp ?_
      have hpow : (2 : ℚ) ^ (u + 52 + 1) = 2 ^ 53 * 2 ^ u := by
        rw [add_assoc, zpow_add₀ (by norm_num), mul_comm]
        norm_num
      push_cast
      rw [hpow]
      exact mul_lt_mul_of_pos_right hhigh hpos
    · refine (Int.zpow_le_iff_le_log (by decide) (mul_pos hy hpos)).mp ?_
      have hpow : (2 : ℚ) ^ (u + 52) = 2 ^ 52 * 2 ^ u := by
        rw [zpow_add₀ (by norm_num), mul_comm]
        norm_num
      push_cast
      rw [hpow]
      exact mul_le_mul_of_nonneg_right hlow hpos.le
  have hulp : ulpExponent (y * 2 ^ u) = u := by
    rw [ulpExponent, abs_of_pos (mul_pos hy hpos), hlog]
    omega
  rw [toBinary64, hulp, mul_div_cancel_right₀ _ hpos.ne']

/-- The tie in front of an even number goes up to it. -/
theorem roundHalfEven_tie (heven : N % 2 = 0) : roundHalfEven (N - 1 / 2) = N := by
  have hfloor : ⌊(N : ℚ) - 1 / 2⌋ = (N : Int) - 1 := by
    rw [Int.floor_eq_iff]
    push_cast
    constructor <;> linarith
  have hodd : ¬((N : Int) - 1) % 2 = 0 := by omega
  have hfrac : (N : ℚ) - 1 / 2 - (((N : Int) - 1 : Int) : ℚ) = 1 / 2 := by
    push_cast
    ring
  rw [roundHalfEven, hfloor, hfrac, if_neg (lt_irrefl _), if_neg (lt_irrefl _), if_neg hodd]
  omega

/-- In front of the middle a number is rounded to the double before. -/
theorem toBinary64_le_pred (hu : -1074 ≤ u) (hlow : 2 ^ 52 < N) (hhigh : N ≤ 2 ^ 53)
    (h₀ : 0 ≤ x) (h : x < (N - 1 / 2) * 2 ^ u) : toBinary64 x ≤ (N - 1) * 2 ^ u := by
  have hpos := zpow_two_pos u
  have hlow' : (2 : ℚ) ^ 52 ≤ N - 1 := by
    have : (2 : ℚ) ^ 52 + 1 ≤ N := by exact_mod_cast hlow
    linarith
  have hhigh' : (N : ℚ) ≤ 2 ^ 53 := by exact_mod_cast hhigh
  have hpred : roundHalfEven ((N : ℚ) - 1) = (N : Int) - 1 := by
    exact_mod_cast roundHalfEven_intCast ((N : Int) - 1)
  rcases le_or_gt x ((N - 1) * 2 ^ u) with hle | hgt
  · -- up to the double before, rounding is monotone
    have hmono := toBinary64_mono h₀ hle
    rw [toBinary64_mul_zpow hu hlow' (by linarith), hpred] at hmono
    exact_mod_cast hmono
  · -- behind it, `N` is more than half a place away
    obtain ⟨y, rfl⟩ : ∃ y, x = y * 2 ^ u := ⟨x / 2 ^ u, (div_mul_cancel₀ x hpos.ne').symm⟩
    have hy := lt_of_mul_lt_mul_right hgt hpos.le
    have hy' := lt_of_mul_lt_mul_right h hpos.le
    rw [toBinary64_mul_zpow hu (by linarith) (by linarith)]
    refine mul_le_mul_of_nonneg_right ?_ hpos.le
    have herr := (abs_le.mp (abs_roundHalfEven_sub_le y)).2
    have hlt : (roundHalfEven y : ℚ) < (N : Int) := by
      push_cast
      linarith
    have : roundHalfEven y ≤ (N : Int) - 1 := by
      have : roundHalfEven y < (N : Int) := by exact_mod_cast hlt
      omega
    exact_mod_cast this

/-- **The numbers whose double is below an even one** are those in front of the middle between it
and the double before. -/
theorem toBinary64_lt_iff (hu : -1074 ≤ u) (hlow : 2 ^ 52 < N) (hhigh : N ≤ 2 ^ 53)
    (heven : N % 2 = 0) (h₀ : 0 ≤ x) :
    toBinary64 x < N * 2 ^ u ↔ x < (N - 1 / 2) * 2 ^ u := by
  have hpos := zpow_two_pos u
  constructor
  · intro hlt
    by_contra hge
    have hlow' : (2 : ℚ) ^ 52 + 1 ≤ N := by exact_mod_cast hlow
    have hhigh' : (N : ℚ) ≤ 2 ^ 53 := by exact_mod_cast hhigh
    have hmiddle : (0 : ℚ) ≤ (N - 1 / 2) * 2 ^ u := mul_nonneg (by linarith) hpos.le
    -- the tie goes up to `N`, and with it all that is larger
    have hmono := toBinary64_mono hmiddle (not_lt.mp hge)
    rw [toBinary64_mul_zpow hu (by linarith) (by linarith), roundHalfEven_tie heven] at hmono
    exact absurd (by exact_mod_cast hmono) (not_le.mpr hlt)
  · intro h
    calc toBinary64 x ≤ (N - 1) * 2 ^ u := toBinary64_le_pred hu hlow hhigh h₀ h
      _ < N * 2 ^ u := mul_lt_mul_of_pos_right (by linarith) hpos

end Below

/-! ## Relative errors -/

section Errors

variable {x y : ℚ}

/-- The relative error of one rounding. -/
theorem toBinary64_near (h : 2 ^ (-1022 : Int) ≤ x) :
    ∃ t, |t| ≤ 1 / 2 ^ 53 ∧ toBinary64 x = x * (1 + t) := by
  have hx : 0 < x := (zpow_two_pos _).trans_le h
  have hlog : -1022 ≤ Int.log 2 x :=
    (Int.zpow_le_iff_le_log (by decide) hx).mp (by exact_mod_cast h)
  have hulp : (2 : ℚ) ^ ulpExponent x ≤ x / 2 ^ 52 := by
    rw [ulpExponent, abs_of_pos hx, max_eq_left hlog, zpow_sub₀ (by norm_num)]
    refine div_le_div_of_nonneg_right ?_ (by norm_num)
    exact_mod_cast Int.zpow_log_le_self (b := 2) (by decide) hx
  refine ⟨(toBinary64 x - x) / x, ?_, ?_⟩
  · rw [abs_div, abs_of_pos hx, div_le_iff₀ hx]
    calc |toBinary64 x - x| ≤ 1 / 2 * 2 ^ ulpExponent x := abs_toBinary64_sub_le x
      _ ≤ 1 / 2 * (x / 2 ^ 52) := by linarith
      _ = 1 / 2 ^ 53 * x := by ring
  · field_simp
    ring

/-- `d` differs from `x` by one part in `10¹⁵` at most. -/
def Close (d x : ℚ) : Prop := ∃ t, |t| ≤ 1 / 10 ^ 15 ∧ d = x * (1 + t)

/-- Far from zero and from the largest numbers. -/
structure Moderate (x : ℚ) : Prop where
  ge : 1 / 10 ^ 20 ≤ x
  le : x ≤ 10 ^ 20

theorem Moderate.pos (h : Moderate x) : 0 < x := lt_of_lt_of_le (by norm_num) h.ge

/-- Small, but no subnormal number. -/
theorem normal_of_le (h : 1 / 10 ^ 60 ≤ x) : 2 ^ (-1022 : Int) ≤ x := by
  refine le_trans ?_ h
  rw [zpow_neg, ← one_div]
  refine one_div_le_one_div_of_le (by norm_num) ?_
  calc (10 : ℚ) ^ 60 ≤ 2 ^ 200 := by norm_num
    _ ≤ 2 ^ (1022 : Int) := by exact_mod_cast pow_le_pow_right₀ (by norm_num) (by norm_num)

theorem Moderate.near (h : Moderate x) : ∃ t, |t| ≤ 1 / 2 ^ 53 ∧ toBinary64 x = x * (1 + t) :=
  toBinary64_near (normal_of_le (le_trans (by norm_num) h.ge))

theorem Moderate.close (h : Moderate x) : Close (toBinary64 x) x := by
  obtain ⟨t, ht, heq⟩ := h.near
  exact ⟨t, ht.trans (by norm_num), heq⟩

/-- Three small errors in a row. -/
theorem abs_errors_le {r s t : ℚ} (hr : |r| ≤ 1 / 2 ^ 52) (hs : |s| ≤ 1 / 2 ^ 52)
    (ht : |t| ≤ 1 / 2 ^ 52) : |(1 + r) * (1 + s) * (1 + t) - 1| ≤ 1 / 10 ^ 15 := by
  have hsplit : (1 + r) * (1 + s) * (1 + t) - 1 =
      r + s + t + (r * s + r * t + s * t) + r * s * t := by ring
  have hrs : |r * s| ≤ 1 / 2 ^ 52 * (1 / 2 ^ 52) := by
    rw [abs_mul]
    exact mul_le_mul hr hs (abs_nonneg s) (by norm_num)
  have hrt : |r * t| ≤ 1 / 2 ^ 52 * (1 / 2 ^ 52) := by
    rw [abs_mul]
    exact mul_le_mul hr ht (abs_nonneg t) (by norm_num)
  have hst : |s * t| ≤ 1 / 2 ^ 52 * (1 / 2 ^ 52) := by
    rw [abs_mul]
    exact mul_le_mul hs ht (abs_nonneg t) (by norm_num)
  have hrst : |r * s * t| ≤ 1 / 2 ^ 52 * (1 / 2 ^ 52) * (1 / 2 ^ 52) := by
    rw [abs_mul]
    exact mul_le_mul hrs ht (abs_nonneg t) (by norm_num)
  rw [hsplit]
  rw [abs_le] at *
  norm_num at *
  constructor <;> linarith [hr.1, hr.2, hs.1, hs.2, ht.1, ht.2, hrs.1, hrs.2, hrt.1, hrt.2,
    hst.1, hst.2, hrst.1, hrst.2]

/-- A third rounding, of a number with two errors. -/
theorem close_of_errors {v r s : ℚ} (hv : 1 / 10 ^ 40 ≤ v) (hr : |r| ≤ 1 / 2 ^ 52)
    (hs : |s| ≤ 1 / 2 ^ 52) : Close (toBinary64 (v * ((1 + r) * (1 + s)))) v := by
  have hhalf : ∀ t : ℚ, |t| ≤ 1 / 2 ^ 52 → 1 / 2 ≤ 1 + t := fun t ht => by
    have hone : (1 : ℚ) / 2 ^ 52 ≤ 1 / 2 := by norm_num
    linarith [(abs_le.mp ht).1]
  -- two errors do not make it subnormal
  have hfactor : 1 / 2 * (1 / 2) ≤ (1 + r) * (1 + s) :=
    mul_le_mul (hhalf r hr) (hhalf s hs) (by norm_num) (by linarith [hhalf r hr])
  have hsmall : 1 / 10 ^ 60 ≤ v * ((1 + r) * (1 + s)) := by
    calc (1 : ℚ) / 10 ^ 60 ≤ 1 / 10 ^ 40 * (1 / 2 * (1 / 2)) := by norm_num
      _ ≤ v * ((1 + r) * (1 + s)) :=
        mul_le_mul hv hfactor (by norm_num) (le_trans (by norm_num) hv)
  obtain ⟨t, ht, heq⟩ := toBinary64_near (normal_of_le hsmall)
  refine ⟨(1 + r) * (1 + s) * (1 + t) - 1, abs_errors_le hr hs (ht.trans (by norm_num)), ?_⟩
  rw [heq]
  ring

/-- **The double of a product of doubles.** -/
theorem close_mul (hx : Moderate x) (hy : Moderate y) :
    Close (toBinary64 (toBinary64 x * toBinary64 y)) (x * y) := by
  obtain ⟨r, hr, hx'⟩ := hx.near
  obtain ⟨s, hs, hy'⟩ := hy.near
  have hproduct : toBinary64 x * toBinary64 y = x * y * ((1 + r) * (1 + s)) := by
    rw [hx', hy']
    ring
  have hv : 1 / 10 ^ 40 ≤ x * y := by
    calc (1 : ℚ) / 10 ^ 40 = 1 / 10 ^ 20 * (1 / 10 ^ 20) := by norm_num
      _ ≤ x * y := mul_le_mul hx.ge hy.ge (by norm_num) hx.pos.le
  rw [hproduct]
  exact close_of_errors hv (hr.trans (by norm_num)) (hs.trans (by norm_num))

/-- An error in a divisor. -/
theorem exists_inv_error {s : ℚ} (hs : |s| ≤ 1 / 2 ^ 53) :
    ∃ t, |t| ≤ 1 / 2 ^ 52 ∧ (1 + s)⁻¹ = 1 + t := by
  obtain ⟨hs₁, hs₂⟩ := abs_le.mp hs
  have hhalf : 1 / 2 ≤ 1 + s := by
    have hone : (1 : ℚ) / 2 ^ 53 ≤ 1 / 2 := by norm_num
    linarith
  have hpos : 0 < 1 + s := by linarith
  refine ⟨-s / (1 + s), ?_, ?_⟩
  · rw [abs_div, abs_neg, abs_of_pos hpos, div_le_iff₀ hpos]
    calc |s| ≤ 1 / 2 ^ 53 := hs
      _ = 1 / 2 ^ 52 * (1 / 2) := by norm_num
      _ ≤ 1 / 2 ^ 52 * (1 + s) := mul_le_mul_of_nonneg_left hhalf (by norm_num)
  · field_simp
    ring

/-- **The double of a quotient of doubles.** -/
theorem close_div (hx : Moderate x) (hy : Moderate y) :
    Close (toBinary64 (toBinary64 x / toBinary64 y)) (x / y) := by
  obtain ⟨r, hr, hx'⟩ := hx.near
  obtain ⟨s, hs, hy'⟩ := hy.near
  obtain ⟨t, ht, hinv⟩ := exists_inv_error hs
  have hquotient : toBinary64 x / toBinary64 y = x / y * ((1 + r) * (1 + t)) := by
    rw [hx', hy', ← hinv, div_eq_mul_inv, mul_inv]
    ring
  have hv : 1 / 10 ^ 40 ≤ x / y := by
    rw [le_div_iff₀ hy.pos]
    calc 1 / 10 ^ 40 * y ≤ 1 / 10 ^ 40 * 10 ^ 20 :=
          mul_le_mul_of_nonneg_left hy.le (by norm_num)
      _ = 1 / 10 ^ 20 := by norm_num
      _ ≤ x := hx.ge
  rw [hquotient]
  exact close_of_errors hv (hr.trans (by norm_num)) ht

end Errors

/-! ## What is printed -/

section Printed

variable {x d : ℚ}

/-- A double that is not negative and far from overflow. -/
theorem JsNumber.ofRat_of_nonneg (h₀ : 0 ≤ x) (h : x ≤ 10 ^ 40) :
    JsNumber.ofRat x = .finite (toBinary64 x) := by
  have hlt : |toBinary64 x| < 2 ^ 1024 := by
    rw [abs_of_nonneg (toBinary64_nonneg h₀)]
    calc toBinary64 x ≤ 2 * x + 1 := toBinary64_le h₀
      _ ≤ 2 * 10 ^ 40 + 1 := by linarith
      _ < 2 ^ 200 := by norm_num
      _ ≤ 2 ^ 1024 := pow_le_pow_right₀ (by norm_num) (by norm_num)
  exact if_neg (not_le.mpr hlt)

/-- The units of `10⁻⁷` that `x.toFixed(7)` shows. -/
def printedUnits (x : ℚ) : Nat := (roundHalfUp (x * 10 ^ 7)).toNat

theorem toFixed7_of_nonneg (h₀ : 0 ≤ x) (h : x < 10 ^ 21) :
    (JsNumber.finite x).toFixed7 = fixedText 7 (printedUnits x) := by
  rw [JsNumber.toFixed7_of_lt (by rwa [abs_of_nonneg h₀]), toFixed7, if_neg (not_lt.mpr h₀),
    toFixed7.positive, if_pos h, printedUnits]

theorem printedUnits_bounds (h₀ : 0 ≤ x) :
    (printedUnits x : ℚ) ≤ x * 10 ^ 7 + 1 / 2 ∧ x * 10 ^ 7 < printedUnits x + 1 / 2 := by
  have hcast : ((printedUnits x : Nat) : ℚ) = (roundHalfUp (x * 10 ^ 7) : ℚ) := by
    rw [printedUnits, ← Int.cast_natCast,
      Int.toNat_of_nonneg (roundHalfUp_nonneg (mul_nonneg h₀ (by norm_num)))]
  obtain ⟨hlow, hhigh⟩ := roundHalfUp_eq_iff.mp (rfl : roundHalfUp (x * 10 ^ 7) = _)
  rw [hcast]
  constructor
  · linarith
  · linarith

/-- The units of a number close to a quotient, without fractions. -/
theorem Close.printedUnits {a b : Nat} (hb : 0 < b) (h : Close d ((a : ℚ) / b / 10 ^ 7)) :
    2 * 10 ^ 15 * (Base.printedUnits d * b) ≤ 2 * (10 ^ 15 + 1) * a + 10 ^ 15 * b ∧
      2 * (10 ^ 15 - 1) * a < 2 * 10 ^ 15 * (Base.printedUnits d * b) + 10 ^ 15 * b := by
  obtain ⟨t, ht, rfl⟩ := h
  obtain ⟨ht₁, ht₂⟩ := abs_le.mp ht
  have hb' : (0 : ℚ) < b := by exact_mod_cast hb
  have ha : (0 : ℚ) ≤ a := Nat.cast_nonneg a
  have hone : (0 : ℚ) ≤ 1 + t := by
    have : (1 : ℚ) / 10 ^ 15 ≤ 1 := by norm_num
    linarith
  have hnonneg : 0 ≤ (a : ℚ) / b / 10 ^ 7 * (1 + t) := mul_nonneg (by positivity) hone
  obtain ⟨hlow, hhigh⟩ := printedUnits_bounds hnonneg
  generalize Base.printedUnits ((a : ℚ) / b / 10 ^ 7 * (1 + t)) = u at *
  have hvalue : (a : ℚ) / b / 10 ^ 7 * (1 + t) * 10 ^ 7 * b = a * (1 + t) := by
    field_simp
  have hlow' := mul_le_mul_of_nonneg_right hlow hb'.le
  have hhigh' := mul_lt_mul_of_pos_right hhigh hb'
  rw [add_mul, hvalue] at hlow'
  rw [hvalue, add_mul] at hhigh'
  -- what is left of the error is linear in `a`
  have hup : (a : ℚ) * t ≤ a * (1 / 10 ^ 15) := mul_le_mul_of_nonneg_left ht₂ ha
  have hdown : (a : ℚ) * -(1 / 10 ^ 15) ≤ a * t := mul_le_mul_of_nonneg_left ht₁ ha
  constructor
  · have : (2 * 10 ^ 15 * (u * b) : ℚ) ≤ 2 * (10 ^ 15 + 1) * a + 10 ^ 15 * b := by linarith
    exact_mod_cast this
  · have : (2 * (10 ^ 15 - 1) * a : ℚ) < 2 * 10 ^ 15 * (u * b) + 10 ^ 15 * b := by linarith
    have hpred : ((10 ^ 15 - 1 : Nat) : ℚ) = 10 ^ 15 - 1 := by norm_num
    rw [← hpred] at this
    exact_mod_cast this

end Printed

end Stargate.Base
