import Mathlib.Data.Nat.Factorization.Basic
import Stargate.Base.NumberText

/-!
# Decimal notation without an exponent

- `Positional cs whole frac`: text that is digits, perhaps with a point and more digits;
- `Positional.decimal?`, `Positional.parseFloat`: such text is read as its value;
- `significant`: the digits of a number are those of its significant part, and zeros;
- `positional_numberText`, `numberText_of_lt`: `String(x)` is positional from `10⁻⁶` on and
  below `10²¹`, and has an exponent below.
-/

namespace Stargate.Base

/-- Text of digits, with a point and a fraction or without. -/
structure Positional (cs whole frac : List Char) : Prop where
  ne_nil : whole ≠ []
  isDigit_whole : ∀ c ∈ whole, c.isDigit = true
  isDigit_frac : ∀ c ∈ frac, c.isDigit = true
  text : cs = whole ∧ frac = [] ∨ cs = whole ++ '.' :: frac

namespace Positional

variable {cs whole frac : List Char}

/-- The number that the text stands for. -/
def value (whole frac : List Char) : ℚ :=
  (Nat.ofDigitChars 10 (whole ++ frac) 0 : ℚ) / 10 ^ frac.length

theorem dot_not_mem (h : Positional cs whole frac) : '.' ∉ whole :=
  not_mem_of_isDigit rfl h.isDigit_whole

theorem before_eq (h : Positional cs whole frac) : before '.' cs = whole := by
  rcases h.text with ⟨rfl, -⟩ | rfl
  · exact before_of_not_mem h.dot_not_mem
  · exact before_append h.dot_not_mem frac

theorem after_eq (h : Positional cs whole frac) : after '.' cs = frac := by
  rcases h.text with ⟨rfl, rfl⟩ | rfl
  · exact after_of_not_mem h.dot_not_mem
  · exact after_append h.dot_not_mem frac

theorem chars (h : Positional cs whole frac) : ∀ c ∈ cs, c.isDigit = true ∨ c = '.' := by
  intro c hc
  rcases h.text with ⟨rfl, -⟩ | rfl
  · exact .inl (h.isDigit_whole c hc)
  · rcases List.mem_append.mp hc with hc | hc
    · exact .inl (h.isDigit_whole c hc)
    · exact (List.mem_cons.mp hc).symm.imp_left (h.isDigit_frac c)

/-- It starts with a digit. -/
theorem exists_cons (h : Positional cs whole frac) :
    ∃ c ds, cs = c :: ds ∧ c.isDigit = true := by
  obtain ⟨c, ds, rfl⟩ := List.exists_cons_of_ne_nil h.ne_nil
  rcases h.text with ⟨rfl, -⟩ | rfl
  · exact ⟨c, ds, rfl, h.isDigit_whole c List.mem_cons_self⟩
  · exact ⟨c, _, rfl, h.isDigit_whole c List.mem_cons_self⟩

theorem decimal? (h : Positional cs whole frac) : Base.decimal? cs = some (value whole frac) := by
  obtain ⟨c, ds, hcs, hc⟩ := h.exists_cons
  rw [decimal?_eq_mantissa? hcs hc h.chars]
  rcases h.text with ⟨rfl, rfl⟩ | rfl
  · simpa [value] using mantissa?_of_isDigit_whole h.ne_nil h.isDigit_whole
  · exact mantissa?_of_isDigit h.ne_nil h.isDigit_whole h.isDigit_frac

/-- The digits in front of a character that is none. -/
theorem spanDigits_append {xs ys : List Char} (hxs : ∀ c ∈ xs, c.isDigit = true)
    (hys : ∀ c ∈ ys.head?, c.isDigit = false) : spanDigits (xs ++ ys) = (xs, ys) := by
  have htake : ys.takeWhile Char.isDigit = [] ∧ ys.dropWhile Char.isDigit = ys := by
    cases ys with
    | nil => exact ⟨rfl, rfl⟩
    | cons y ys =>
      have hy : y.isDigit = false := hys y rfl
      simp [hy]
  unfold spanDigits
  rw [List.takeWhile_append_of_pos hxs, List.dropWhile_append_of_pos hxs, htake.1, htake.2,
    List.append_nil]

theorem spanDigits_self {xs : List Char} (hxs : ∀ c ∈ xs, c.isDigit = true) :
    spanDigits xs = (xs, []) := by
  have hnil : ∀ c ∈ ([] : List Char).head?, c.isDigit = false := by simp
  simpa using spanDigits_append hxs hnil

theorem parseFloat (h : Positional cs whole frac) :
    Base.parseFloat cs = some (value whole frac) := by
  have hunsigned : unsignedPrefix cs = some (value whole frac) := by
    have hwhole : spanDigits cs = (whole, if frac = [] ∧ cs = whole then [] else '.' :: frac) := by
      rcases h.text with ⟨rfl, rfl⟩ | rfl
      · rw [if_pos ⟨rfl, rfl⟩]
        exact spanDigits_self h.isDigit_whole
      · rw [if_neg (by simp)]
        exact spanDigits_append h.isDigit_whole (by simp)
    have hfrac : spanDigits frac = (frac, []) := spanDigits_self h.isDigit_frac
    unfold unsignedPrefix
    rw [hwhole]
    split_ifs with hcs
    · simp [hcs.1, h.ne_nil, exponentPrefix, value]
    · simp [hfrac, h.ne_nil, exponentPrefix, value]
  obtain ⟨c, ds, hcs, hc⟩ := h.exists_cons
  have hspace : cs.dropWhile isSpace = cs := by
    rw [hcs, List.dropWhile_cons_of_neg (by rw [isSpace_of_isDigit hc]; exact Bool.false_ne_true)]
  unfold Base.parseFloat
  rw [hspace]
  split
  · obtain ⟨rfl, -⟩ := List.cons.inj hcs
    cases hc
  · obtain ⟨rfl, -⟩ := List.cons.inj hcs
    cases hc
  · exact hunsigned

end Positional

/-! ## The text of a number -/

section Text

variable {m s : Nat}

theorem toDigits_mul_pow {d : Nat} (hd : 0 < d) (z : Nat) :
    Nat.toDigits 10 (d * 10 ^ z) = Nat.toDigits 10 d ++ List.replicate z '0' := by
  induction z with
  | zero => simp
  | succ z ih =>
    have hnext := Nat.toDigits_append_toDigits (b := 10) (n := d * 10 ^ z) (d := 0) (by decide)
      (by positivity) (by decide)
    have hshift : 10 * (d * 10 ^ z) + 0 = d * 10 ^ (z + 1) := by ring
    rw [hshift, Nat.toDigits_zero, ih] at hnext
    rw [← hnext, List.append_assoc, List.replicate_succ']

/-- The significant part of a number. -/
theorem significant (hm : 0 < m) : ∃ d z, m = d * 10 ^ z ∧ d % 10 ≠ 0 := by
  obtain ⟨z, d, hd, hmd⟩ := Nat.exists_eq_pow_mul_and_not_dvd hm.ne' 10 (by decide)
  exact ⟨d, z, hmd.trans (Nat.mul_comm _ _), fun h => hd (Nat.dvd_of_mod_eq_zero h)⟩

/-- Dropping the zeros at its end leaves the digits of its significant part. -/
theorem rdropWhile_toDigits {d : Nat} (hd : d % 10 ≠ 0) (z : Nat) :
    (Nat.toDigits 10 (d * 10 ^ z)).rdropWhile (· == '0') = Nat.toDigits 10 d := by
  have hlast : ∃ ds, Nat.toDigits 10 d = ds ++ [Nat.digitChar (d % 10)] := by
    rw [Nat.toDigits_eq_if (by decide)]
    split
    · next hlt => exact ⟨[], by rw [Nat.mod_eq_of_lt hlt]; rfl⟩
    · exact ⟨_, rfl⟩
  obtain ⟨ds, hds⟩ := hlast
  rw [toDigits_mul_pow (by omega)]
  refine rdropWhile_append_zeros (fun hne => ?_) z
  simp only [hds, List.getLast_append_singleton]
  exact fun hzero => hd (Nat.digitChar_eq_zero.mp hzero)

theorem length_toDigits_mul_pow {d : Nat} (hd : 0 < d) (z : Nat) :
    (Nat.toDigits 10 (d * 10 ^ z)).length = (Nat.toDigits 10 d).length + z := by
  rw [toDigits_mul_pow hd, List.length_append, List.length_replicate]

/-- The size of a number by its digits. -/
theorem lt_pow_length (m : Nat) : m < 10 ^ (Nat.toDigits 10 m).length :=
  (Nat.length_toDigits_le_iff (by decide) Nat.length_toDigits_pos).mp le_rfl

theorem pow_length_le (hm : 0 < m) : 10 ^ ((Nat.toDigits 10 m).length - 1) ≤ m := by
  by_cases hone : (Nat.toDigits 10 m).length = 1
  · rw [hone]
    exact hm
  · have hpos : 0 < (Nat.toDigits 10 m).length := Nat.length_toDigits_pos
    by_contra hlt
    have := (Nat.length_toDigits_le_iff (by decide) (by omega)).mpr (not_le.mp hlt)
    omega

/-- Where the point stands among the digits: a number in the positional range has at most `21`
whole digits, and at most five zeros after its point. -/
theorem point_bounds {d z k : Nat} (hlow : 10 ^ s ≤ d * 10 ^ z * 10 ^ 6)
    (hhigh : d * 10 ^ z < 10 ^ 21 * 10 ^ s) (hlength : d < 10 ^ k)
    (hfirst : 10 ^ (k + z - 1) ≤ d * 10 ^ z) : s < k + z + 6 ∧ k + z ≤ s + 21 := by
  constructor
  · have hlt : d * 10 ^ z * 10 ^ 6 < 10 ^ (k + z + 6) := by
      rw [pow_add, pow_add]
      have := Nat.mul_lt_mul_of_pos_right hlength (show 0 < 10 ^ z by positivity)
      omega
    exact (Nat.pow_lt_pow_iff_right (by decide)).mp (hlow.trans_lt hlt)
  · have hlt : 10 ^ (k + z - 1) < 10 ^ (21 + s) := by
      rw [pow_add 10 21]
      exact hfirst.trans_lt hhigh
    have := (Nat.pow_lt_pow_iff_right (by decide)).mp hlt
    omega

/-- **Text without an exponent**: from `10⁻⁶` on and below `10²¹` the text is positional, has the
value of the number, and no more places than it needs. -/
theorem positional_numberText (hlow : 10 ^ s ≤ m * 10 ^ 6) (hhigh : m < 10 ^ 21 * 10 ^ s) :
    ∃ whole frac, Positional (numberText m s) whole frac ∧
      Positional.value whole frac = (m : ℚ) / 10 ^ s ∧
      (frac = [] ∨ Nat.ofDigitChars 10 (whole ++ frac) 0 % 10 ≠ 0) := by
  have hm : 0 < m := by
    by_contra hzero
    have := Nat.pow_pos (n := s) (show 0 < 10 by decide)
    omega
  obtain ⟨d, z, rfl, hmod⟩ := significant hm
  have hdrop := rdropWhile_toDigits hmod z
  have hlen := length_toDigits_mul_pow (show 0 < d by omega) z
  have hdigits : ∀ c ∈ Nat.toDigits 10 d, c.isDigit = true := isDigit_toDigits
  have hk : 0 < (Nat.toDigits 10 d).length := Nat.length_toDigits_pos
  have hvalue : Nat.ofDigitChars 10 (Nat.toDigits 10 d) 0 = d := Nat.ofDigitChars_ten_toDigits
  have hlength := lt_pow_length d
  have hnil : Nat.toDigits 10 d ≠ [] := Nat.toDigits_ne_nil
  have hfirst := pow_length_le hm
  rw [hlen] at hfirst
  unfold numberText
  dsimp only
  rw [hdrop, hlen, if_neg hnil]
  generalize Nat.toDigits 10 d = ds at *
  have hscaled : ∀ places : Nat, s = z + places →
      (d : ℚ) / 10 ^ places = ((d * 10 ^ z : Nat) : ℚ) / 10 ^ s := by
    rintro places rfl
    rw [pow_add, Nat.cast_mul, Nat.cast_pow, Nat.cast_ofNat, mul_comm ((10 : ℚ) ^ z),
      mul_div_mul_right _ _ (by positivity)]
  have hpadded : ∀ zeros,
      Nat.ofDigitChars 10 (['0'] ++ (List.replicate zeros '0' ++ ds)) 0 = d := by
    intro zeros
    have hzero : Nat.ofDigitChars 10 ['0'] 0 = 0 := rfl
    rw [Nat.ofDigitChars_append, Nat.ofDigitChars_append, hzero,
      Nat.ofDigitChars_replicate_zero, Nat.mul_zero, hvalue]
  split_ifs with hwhole hpoint hsmall
  · have hsz : s ≤ z := by omega
    have hplaces : (((ds.length + z : Nat) : Int) - s - ds.length).toNat = z - s := by omega
    rw [hplaces]
    refine ⟨ds ++ List.replicate (z - s) '0', [], ⟨by simp [hnil], ?_, by simp, .inl ⟨rfl, rfl⟩⟩,
      ?_, .inl rfl⟩
    · intro c hc
      exact isDigit_zeros_append hdigits (z - s) c
        (List.mem_append.mpr (List.mem_append.mp hc).symm)
    · rw [Positional.value, List.append_nil, Nat.ofDigitChars_append,
        Nat.ofDigitChars_replicate_zero, hvalue, List.length_nil, pow_zero, div_one,
        eq_div_iff (by positivity)]
      push_cast
      rw [mul_comm ((10 : ℚ) ^ (z - s)), mul_assoc, ← pow_add, Nat.sub_add_cancel hsz]
  · generalize hcut : (((ds.length + z : Nat) : Int) - s).toNat = cut
    refine ⟨ds.take cut, ds.drop cut, ⟨?_, fun c hc => hdigits c (List.mem_of_mem_take hc),
      fun c hc => hdigits c (List.mem_of_mem_drop hc), .inr rfl⟩, ?_, .inr ?_⟩
    · rw [ne_eq, List.take_eq_nil_iff, not_or]
      exact ⟨by omega, hnil⟩
    · rw [Positional.value, List.take_append_drop, hvalue, List.length_drop]
      exact hscaled _ (by omega)
    · rwa [List.take_append_drop, hvalue]
  · generalize hzeros : (-(((ds.length + z : Nat) : Int) - s)).toNat = zeros
    refine ⟨['0'], List.replicate zeros '0' ++ ds,
      ⟨by simp, by simp, isDigit_zeros_append hdigits zeros, .inr rfl⟩, ?_, .inr ?_⟩
    · rw [Positional.value, hpadded, List.length_append, List.length_replicate]
      exact hscaled _ (by omega)
    · rwa [hpadded]
  -- the size of the number excludes an exponent
  · have := point_bounds hlow hhigh hlength hfirst
    omega

/-- **Text with an exponent**: below `10⁻⁶`, here with one significant digit. -/
theorem numberText_of_lt {d z : Nat} (hd : 0 < d) (hdigit : d < 10)
    (hlow : d * 10 ^ z * 10 ^ 6 < 10 ^ s) :
    ∃ e, numberText (d * 10 ^ z) s = Nat.digitChar d :: exponentText e := by
  have hds : Nat.toDigits 10 d = [Nat.digitChar d] := Nat.toDigits_of_lt_base hdigit
  have hdrop := rdropWhile_toDigits (show d % 10 ≠ 0 by omega) z
  have hlen := length_toDigits_mul_pow hd z
  rw [hds] at hdrop hlen
  have hplaces : z + 6 < s := by
    have hle : 10 ^ (z + 6) ≤ d * 10 ^ z * 10 ^ 6 := by
      rw [pow_add]
      exact Nat.mul_le_mul_right _ (Nat.le_mul_of_pos_left _ hd)
    exact (Nat.pow_lt_pow_iff_right (by decide)).mp (hle.trans_lt hlow)
  unfold numberText
  dsimp only
  rw [hdrop, hlen, List.length_singleton, if_neg (List.cons_ne_nil _ _), if_neg (by omega),
    if_neg (by omega), if_neg (by omega)]
  exact ⟨_, rfl⟩

end Text

end Stargate.Base
