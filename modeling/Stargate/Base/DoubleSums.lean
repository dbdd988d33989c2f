import Stargate.Base.Positional

/-!
# Sums of decimals in doubles

What `(parseFloat(a) + parseFloat(b)).toFixed(7)` makes of two texts with seven decimals: each is
rounded to a double, and so is the sum. Below `2²⁸ - 1` the three errors together do not reach
half a unit, so that the printed sum is the exact one.

- `JsNumber.parseFloat`, `JsNumber.add`, `JsNumber.toFixed7`: the three operations, with `NaN`
  and the infinities;
- `signedText`: a whole number of units of `10⁻⁷`;
- `parseFloat_signedText`, `toFixed7_eq_signedText`: such text is read as the nearest double, and
  a double near it is printed as it;
- `toFixed7_add_of_shows`: the sum.
-/

namespace Stargate.Base

namespace JsNumber

/-- `parseFloat(text)`. -/
def parseFloat (cs : List Char) : JsNumber :=
  let text := cs.dropWhile isSpace
  if "Infinity".toList.isPrefixOf text || "+Infinity".toList.isPrefixOf text then .infinity false
  else if "-Infinity".toList.isPrefixOf text then .infinity true
  else match Base.parseFloat text with
    | some x => ofRat x
    | none => .nan

/-- `x + y`. -/
def add : JsNumber → JsNumber → JsNumber
  | .nan, _ | _, .nan => .nan
  | .infinity a, .infinity b => if a = b then .infinity a else .nan
  | .infinity a, .finite _ | .finite _, .infinity a => .infinity a
  | .finite x, .finite y => ofRat (x + y)

/-- `x.toFixed(7)`: from `10²¹` on, the text of the number. -/
def toFixed7 : JsNumber → List Char
  | .finite x => if |x| < 10 ^ 21 then Base.toFixed7 x else doubleText x
  | x => x.text

theorem toFixed7_of_lt {x : ℚ} (h : |x| < 10 ^ 21) : (finite x).toFixed7 = Base.toFixed7 x :=
  if_pos h

end JsNumber

/-- A number of units of `10⁻⁷`, with seven fraction digits. -/
def signedText (u : Int) : List Char :=
  if u < 0 then '-' :: fixedText 7 u.natAbs else fixedText 7 u.natAbs

/-! ## Rounding -/

/-- Ties to even do not depend on the sign. -/
theorem roundHalfEven_neg (x : ℚ) : roundHalfEven (-x) = -roundHalfEven x := by
  by_cases hint : (⌊x⌋ : ℚ) = x
  · rw [← hint, ← Int.cast_neg, roundHalfEven_intCast, roundHalfEven_intCast]
  · have hfloor : ⌊-x⌋ = -⌊x⌋ - 1 := by
      have h₁ := Int.floor_le x
      have h₂ := Int.lt_floor_add_one x
      have hlt : (⌊x⌋ : ℚ) < x := lt_of_le_of_ne h₁ hint
      rw [Int.floor_eq_iff]
      push_cast
      constructor <;> linarith
    have hparity : (-⌊x⌋ - 1) % 2 = 0 ↔ ¬ ⌊x⌋ % 2 = 0 := by omega
    unfold roundHalfEven
    rw [hfloor]
    push_cast
    split_ifs <;> first | omega | (exfalso; linarith)

theorem ulpExponent_neg (x : ℚ) : ulpExponent (-x) = ulpExponent x := by
  rw [ulpExponent, ulpExponent, abs_neg]

/-- Nor does the nearest double. -/
theorem toBinary64_neg (x : ℚ) : toBinary64 (-x) = -toBinary64 x := by
  rw [toBinary64, toBinary64, ulpExponent_neg, neg_div, roundHalfEven_neg]
  push_cast
  ring

/-- The last place of numbers below a power of two. -/
theorem ulpExponent_le_of_lt {x : ℚ} {k : Int} (hk : 1 ≤ k) (h : |x| < 2 ^ k) :
    ulpExponent x ≤ k - 53 := by
  have hlog : Int.log 2 |x| ≤ k - 1 := by
    rcases (abs_nonneg x).eq_or_lt with hzero | hpos
    · rw [← hzero, Int.log_zero_right]
      omega
    · have := (Int.lt_zpow_iff_log_lt (b := 2) (by decide) hpos).mp (by exact_mod_cast h)
      omega
  unfold ulpExponent
  omega

theorem abs_toBinary64_sub_le_of_lt {x : ℚ} {k : Int} (hk : 1 ≤ k) (h : |x| < 2 ^ k) :
    |toBinary64 x - x| ≤ 2 ^ (k - 54) := by
  have hulp : (2 : ℚ) ^ ulpExponent x ≤ 2 ^ (k - 53) :=
    zpow_le_zpow_right₀ (by norm_num) (ulpExponent_le_of_lt hk h)
  have hhalf : (2 : ℚ) ^ (k - 53) = 2 * 2 ^ (k - 54) := by
    rw [show k - 53 = k - 54 + 1 by ring, zpow_add_one₀ (by norm_num), mul_comm]
  have herr := abs_toBinary64_sub_le x
  linarith

/-! ## Text with seven decimals -/

/-- Text that starts with a digit has no sign. -/
theorem parseFloat_of_isDigit {cs : List Char} {c : Char} {ds : List Char} (hcs : cs = c :: ds)
    (hc : c.isDigit = true) : parseFloat cs = unsignedPrefix cs := by
  have hspace : cs.dropWhile isSpace = cs := by
    rw [hcs, List.dropWhile_cons_of_neg (by rw [isSpace_of_isDigit hc]; exact Bool.false_ne_true)]
  unfold parseFloat
  rw [hspace]
  split
  · obtain ⟨rfl, -⟩ := List.cons.inj hcs
    cases hc
  · obtain ⟨rfl, -⟩ := List.cons.inj hcs
    cases hc
  · rfl

theorem unsignedPrefix_fixedText {k : Nat} (hk : 0 < k) (n : Nat) :
    unsignedPrefix (fixedText k n) = some ((n : ℚ) / 10 ^ k) := by
  have hpos : Positional (fixedText k n) (Nat.toDigits 10 (n / 10 ^ k))
      (padStart k '0' (Nat.toDigits 10 (n % 10 ^ k))) :=
    ⟨Nat.toDigits_ne_nil, isDigit_toDigits, isDigit_padStart isDigit_toDigits, .inr rfl⟩
  obtain ⟨c, ds, -, hc, htext⟩ := fixedText_eq_cons k n
  rw [← parseFloat_of_isDigit htext hc, hpos.parseFloat, Positional.value,
    ofDigitChars_fixedText k n hk, length_fraction k n hk]

/-- The first character is a digit or a minus sign. -/
theorem signedText_eq_cons (u : Int) :
    ∃ c ds, signedText u = c :: ds ∧ (c.isDigit = true ∨ c = '-' ∧ ∃ d es, ds = d :: es ∧
      d.isDigit = true) := by
  obtain ⟨c, ds, -, hc, htext⟩ := fixedText_eq_cons 7 u.natAbs
  unfold signedText
  rw [htext]
  split
  · exact ⟨'-', _, rfl, .inr ⟨rfl, c, _, rfl, hc⟩⟩
  · exact ⟨c, _, rfl, .inl hc⟩

theorem baseParseFloat_signedText (u : Int) :
    Base.parseFloat (signedText u) = some ((u : ℚ) / 10 ^ 7) := by
  unfold signedText
  split
  · next hneg =>
    have habs : ((u.natAbs : Nat) : ℚ) = -u := by
      rw [← Int.cast_natCast, Int.natCast_natAbs, abs_of_neg hneg, Int.cast_neg]
    have hspace : ('-' :: fixedText 7 u.natAbs).dropWhile isSpace = '-' :: fixedText 7 u.natAbs :=
      List.dropWhile_cons_of_neg (by decide)
    unfold Base.parseFloat
    rw [hspace]
    simp only [unsignedPrefix_fixedText (by decide : 0 < 7), Option.map_some, habs]
    rw [neg_div, neg_neg]
  · next hpos =>
    have habs : ((u.natAbs : Nat) : ℚ) = u := by
      rw [← Int.cast_natCast, Int.natCast_natAbs, abs_of_nonneg (not_lt.mp hpos)]
    obtain ⟨c, ds, -, hc, htext⟩ := fixedText_eq_cons 7 u.natAbs
    rw [parseFloat_of_isDigit htext hc, unsignedPrefix_fixedText (by decide), habs]

/-- Doubles far from overflow. -/
theorem JsNumber.ofRat_of_lt {x : ℚ} (h : |x| < 2 ^ 28) :
    JsNumber.ofRat x = .finite (toBinary64 x) := by
  have herr := abs_toBinary64_sub_le_of_lt (k := 28) (by norm_num) (by exact_mod_cast h)
  have hsmall : |toBinary64 x| < 2 ^ 1024 := by
    have htriangle := abs_sub_abs_le_abs_sub (toBinary64 x) x
    have hone : (2 : ℚ) ^ ((28 : Int) - 54) ≤ 1 := by norm_num
    calc |toBinary64 x| < 2 ^ 28 + 1 := by linarith
      _ ≤ 2 ^ 29 := by norm_num
      _ ≤ 2 ^ 1024 := pow_le_pow_right₀ (by norm_num) (by norm_num)
  unfold JsNumber.ofRat
  exact if_neg (not_le.mpr hsmall)

/-- Text that starts with a digit, or a minus sign and a digit, names no infinity. -/
theorem JsNumber.parseFloat_eq {cs ds : List Char} {c : Char} {x : ℚ} (hcs : cs = c :: ds)
    (hc : c.isDigit = true ∨ c = '-' ∧ ∃ d es, ds = d :: es ∧ d.isDigit = true)
    (hx : Base.parseFloat cs = some x) : JsNumber.parseFloat cs = ofRat x := by
  have hspace : isSpace c = false := by
    rcases hc with hc | ⟨rfl, -⟩
    · exact isSpace_of_isDigit hc
    · decide
  have hplain : cs.dropWhile isSpace = cs := by
    rw [hcs, List.dropWhile_cons_of_neg (by rw [hspace]; exact Bool.false_ne_true)]
  have hdigit : ∀ c d : Char, c.isDigit = true → d.isDigit = false → (d == c) = false :=
    fun c d hc hd => beq_eq_false_iff_ne.mpr (ne_of_isDigit hc hd).symm
  have hname : ∀ name ∈ ["Infinity".toList, "+Infinity".toList, "-Infinity".toList],
      name.isPrefixOf cs = false := by
    rw [hcs]
    rcases hc with hc | ⟨rfl, d, es, rfl, hd⟩
    · simp [List.isPrefixOf, hdigit c _ hc]
    · simp [List.isPrefixOf, hdigit d _ hd]
  unfold JsNumber.parseFloat
  simp only [hplain]
  rw [hname _ (by simp), hname _ (by simp), hname _ (by simp), hx]
  rfl

/-- Digits, perhaps with a point, are read as the nearest double. -/
theorem Positional.jsParseFloat {cs whole frac : List Char} (h : Positional cs whole frac) :
    JsNumber.parseFloat cs = .ofRat (value whole frac) := by
  obtain ⟨c, ds, hcs, hc⟩ := h.exists_cons
  exact JsNumber.parseFloat_eq hcs (.inl hc) h.parseFloat

/-- **The text of a small amount is read as the nearest double.** -/
theorem parseFloat_signedText {u : Int} (h : |(u : ℚ) / 10 ^ 7| < 2 ^ 28) :
    JsNumber.parseFloat (signedText u) = .finite (toBinary64 (u / 10 ^ 7)) := by
  obtain ⟨c, ds, htext, hc⟩ := signedText_eq_cons u
  rw [JsNumber.parseFloat_eq htext hc (baseParseFloat_signedText u)]
  exact JsNumber.ofRat_of_lt h

/-- **A double near an amount is printed as the amount.** -/
theorem toFixed7_eq_signedText {v : ℚ} {u : Int} (hnear : |v * 10 ^ 7 - u| < 1 / 2)
    (hzero : u = 0 → v = 0) (hsize : |v| < 10 ^ 21) : toFixed7 v = signedText u := by
  obtain ⟨hlow, hhigh⟩ := abs_lt.mp hnear
  have hprint : ∀ w : ℚ, ∀ n : Nat, w < 10 ^ 21 → |w * 10 ^ 7 - n| < 1 / 2 →
      toFixed7.positive w = fixedText 7 n := by
    intro w n hw hn
    obtain ⟨h₁, h₂⟩ := abs_lt.mp hn
    have hround : roundHalfUp (w * 10 ^ 7) = n :=
      roundHalfUp_eq_iff.mpr ⟨by push_cast; linarith, by push_cast; linarith⟩
    rw [toFixed7.positive, if_pos hw, hround, Int.toNat_natCast]
  obtain ⟨hneg, hpos⟩ := abs_lt.mp hsize
  rcases lt_trichotomy u 0 with hu | rfl | hu
  · have hcast : (u : ℚ) ≤ -1 := by exact_mod_cast Int.le_sub_one_of_lt hu
    have hv : v < 0 := by linarith
    have habs : ((u.natAbs : Nat) : ℚ) = -u := by
      rw [← Int.cast_natCast, Int.natCast_natAbs, abs_of_neg hu, Int.cast_neg]
    rw [toFixed7, if_pos hv, signedText, if_pos hu, hprint (-v) u.natAbs (by linarith)]
    rw [habs, abs_lt]
    constructor <;> linarith
  · rw [hzero rfl]
    decide +kernel
  · have hcast : (1 : ℚ) ≤ u := by exact_mod_cast hu
    have hv : ¬ v < 0 := by linarith
    have habs : ((u.natAbs : Nat) : ℚ) = u := by
      rw [← Int.cast_natCast, Int.natCast_natAbs, abs_of_pos hu]
    rw [toFixed7, if_neg hv, signedText, if_neg hu.not_gt, hprint v u.natAbs hpos]
    rwa [habs]

/-- Text that shows a number of units: with seven decimals, or "0". -/
def Shows (cs : List Char) (u : Int) : Prop := cs = signedText u ∨ cs = ['0'] ∧ u = 0

theorem Shows.parseFloat {cs : List Char} {u : Int} (h : Shows cs u)
    (hsize : |(u : ℚ) / 10 ^ 7| < 2 ^ 28) :
    JsNumber.parseFloat cs = .finite (toBinary64 (u / 10 ^ 7)) := by
  rcases h with rfl | ⟨rfl, rfl⟩
  · exact parseFloat_signedText hsize
  · decide +kernel

/-- **The printed sum is exact**, below `2²⁸ - 1`. -/
theorem toFixed7_add_of_shows {cs ds : List Char} {x y : Int} (hcs : Shows cs x) (hds : Shows ds y)
    (h : |(x : ℚ) / 10 ^ 7| + |(y : ℚ) / 10 ^ 7| < 2 ^ 28 - 1) :
    ((JsNumber.parseFloat cs).add (JsNumber.parseFloat ds)).toFixed7 = signedText (x + y) := by
  have hx := abs_nonneg ((x : ℚ) / 10 ^ 7)
  have hy := abs_nonneg ((y : ℚ) / 10 ^ 7)
  rw [hcs.parseFloat (by linarith), hds.parseFloat (by linarith), JsNumber.add]
  generalize ha : (x : ℚ) / 10 ^ 7 = a at *
  generalize hb : (y : ℚ) / 10 ^ 7 = b at *
  have herrs : ∀ c : ℚ, |c| < 2 ^ 28 → |toBinary64 c - c| ≤ 1 / 2 ^ 26 := fun c hc => by
    have := abs_toBinary64_sub_le_of_lt (k := 28) (by norm_num) (by exact_mod_cast hc)
    norm_num at this ⊢
    exact this
  have hfirst := herrs a (by linarith)
  have hsecond := herrs b (by linarith)
  have hbound : |toBinary64 a + toBinary64 b| < 2 ^ 28 := by
    have h₁ := abs_add_le (toBinary64 a - a + (toBinary64 b - b)) (a + b)
    have h₂ := abs_add_le (toBinary64 a - a) (toBinary64 b - b)
    have h₃ := abs_add_le a b
    have hsum : toBinary64 a - a + (toBinary64 b - b) + (a + b) = toBinary64 a + toBinary64 b := by
      ring
    rw [hsum] at h₁
    have hsmall : (1 : ℚ) / 2 ^ 26 < 1 / 2 := by norm_num
    calc |toBinary64 a + toBinary64 b|
        ≤ |toBinary64 a - a| + |toBinary64 b - b| + (|a| + |b|) := by linarith
      _ < 1 / 2 + 1 / 2 + (2 ^ 28 - 1) := by linarith
      _ = 2 ^ 28 := by ring
  have hthird := herrs _ hbound
  rw [JsNumber.ofRat_of_lt hbound]
  generalize hv : toBinary64 (toBinary64 a + toBinary64 b) = v at *
  have hunits : (x : ℚ) + y = (a + b) * 10 ^ 7 := by
    rw [← ha, ← hb]
    field_simp
  have hv_near : |v - (a + b)| ≤ 3 * 1 / 2 ^ 26 := by
    rw [abs_le] at hfirst hsecond hthird ⊢
    constructor <;> linarith [hfirst.1, hfirst.2, hsecond.1, hsecond.2, hthird.1, hthird.2]
  have hsize : |v| < 10 ^ 21 := by
    have h₁ := abs_sub_abs_le_abs_sub v (toBinary64 a + toBinary64 b)
    have : (1 : ℚ) / 2 ^ 26 < 1 := by norm_num
    have hbig : (2 : ℚ) ^ 28 + 1 < 10 ^ 21 := by norm_num
    linarith
  rw [JsNumber.toFixed7_of_lt hsize]
  refine toFixed7_eq_signedText ?_ (fun hzero => ?_) hsize
  · push_cast
    rw [hunits, ← sub_mul, abs_mul]
    norm_num at hv_near ⊢
    linarith
  · -- the two doubles are opposite, too
    have hopposite : b = -a := by
      have : (x : ℚ) + y = 0 := by exact_mod_cast hzero
      rw [hunits] at this
      linarith
    rw [← hv, hopposite, toBinary64_neg, add_neg_cancel, toBinary64_zero]

/-- Not much above, it no longer is. -/
example : ((JsNumber.parseFloat (signedText 1469120945134813)).add
    (JsNumber.parseFloat (signedText 1601222605792575))).toFixed7 = "307034355.0927387".toList ∧
    signedText (1469120945134813 + 1601222605792575) = "307034355.0927388".toList := by
  decide +kernel

end Stargate.Base
