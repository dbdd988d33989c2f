import Mathlib.Algebra.Order.Field.Rat
import Mathlib.Data.Rat.Cast.Defs
import Mathlib.Tactic.FieldSimp
import Mathlib.Tactic.Ring
import Mathlib.Tactic.NormNum

/-!
# Decimal numbers as text

Reading and writing decimal numbers over lists of characters, on top of core's
`Nat.toDigits` and `Nat.ofDigitChars`.

- `before`/`after`: the two sides of the first occurrence of a separator;
- `digits?`: a non-empty string of digits;
- `unsigned?`, `decimal?`: the exact value of a decimal literal with optional
  fraction and exponent, without and with a sign;
- `fixedText k n`: `n` units of `10⁻ᵏ` written with exactly `k` fraction digits,
  the form that money columns and `toFixed` produce. `decimal?_fixedText` reads
  it back exactly.
-/

namespace Stargate.Base

/-! ## Separators -/

/-- The characters before the first `c`. -/
def before (c : Char) (cs : List Char) : List Char := cs.takeWhile (· != c)

/-- The characters after the first `c` (none if there is no `c`). -/
def after (c : Char) (cs : List Char) : List Char := (cs.dropWhile (· != c)).tail

section Separators

variable {c : Char} {xs : List Char}

theorem bne_of_not_mem (h : c ∉ xs) : ∀ x ∈ xs, (x != c) = true := by
  intro x hx
  rw [bne_iff_ne]
  rintro rfl
  exact h hx

theorem before_append (h : c ∉ xs) (ys : List Char) : before c (xs ++ c :: ys) = xs := by
  unfold before
  rw [List.takeWhile_append_of_pos (bne_of_not_mem h)]
  simp

theorem after_append (h : c ∉ xs) (ys : List Char) : after c (xs ++ c :: ys) = ys := by
  unfold after
  rw [List.dropWhile_append_of_pos (bne_of_not_mem h)]
  simp

theorem before_of_not_mem (h : c ∉ xs) : before c xs = xs := by
  have : (xs ++ []).takeWhile (· != c) = _ :=
    List.takeWhile_append_of_pos (bne_of_not_mem h)
  rwa [List.takeWhile_nil, List.append_nil] at this

theorem after_of_not_mem (h : c ∉ xs) : after c xs = [] := by
  have : (xs ++ []).dropWhile (· != c) = _ :=
    List.dropWhile_append_of_pos (bne_of_not_mem h)
  simp only [List.append_nil, List.dropWhile_nil] at this
  simp [after, this]

end Separators

/-! ## Digit strings -/

/-- The value of a non-empty string of decimal digits. -/
def digits? (cs : List Char) : Option Nat :=
  if cs ≠ [] ∧ cs.all Char.isDigit then some (Nat.ofDigitChars 10 cs 0) else none

/-- Pad with `c` on the left up to length `k`. -/
def padStart (k : Nat) (c : Char) (cs : List Char) : List Char :=
  List.replicate (k - cs.length) c ++ cs

theorem isDigit_toDigits {n : Nat} : ∀ c ∈ Nat.toDigits 10 n, c.isDigit = true :=
  fun _ hc => Nat.isDigit_of_mem_toDigits (by decide) (by decide) hc

theorem toDigits_injective : Function.Injective (Nat.toDigits 10) := by
  intro m n h
  calc m = Nat.ofDigitChars 10 (Nat.toDigits 10 m) 0 := Nat.ofDigitChars_ten_toDigits.symm
    _ = Nat.ofDigitChars 10 (Nat.toDigits 10 n) 0 := by rw [h]
    _ = n := Nat.ofDigitChars_ten_toDigits

theorem toDigits_ne_cons {n : Nat} {c : Char} (hc : c.isDigit = false) (cs : List Char) :
    Nat.toDigits 10 n ≠ c :: cs := by
  intro h
  have hdigit : c.isDigit = true := isDigit_toDigits (n := n) c (h ▸ List.mem_cons_self)
  cases hc.symm.trans hdigit

theorem isDigit_zeros_append {cs : List Char} (h : ∀ c ∈ cs, c.isDigit = true) (n : Nat) :
    ∀ c ∈ List.replicate n '0' ++ cs, c.isDigit = true := by
  intro c hc
  rcases List.mem_append.mp hc with hc | hc
  · rw [List.eq_of_mem_replicate hc]
    rfl
  · exact h c hc

theorem isDigit_padStart {k : Nat} {cs : List Char} (h : ∀ c ∈ cs, c.isDigit = true) :
    ∀ c ∈ padStart k '0' cs, c.isDigit = true :=
  isDigit_zeros_append h _

theorem length_padStart {k : Nat} {cs : List Char} (h : cs.length ≤ k) :
    (padStart k '0' cs).length = k := by
  simp [padStart]
  omega

theorem ofDigitChars_padStart (k : Nat) (cs : List Char) :
    Nat.ofDigitChars 10 (padStart k '0' cs) 0 = Nat.ofDigitChars 10 cs 0 := by
  simp [padStart, Nat.ofDigitChars_append]

theorem digits?_of_isDigit {cs : List Char} (hne : cs ≠ [])
    (h : ∀ c ∈ cs, c.isDigit = true) : digits? cs = some (Nat.ofDigitChars 10 cs 0) :=
  if_pos ⟨hne, List.all_eq_true.mpr h⟩

/-- No digit is a separator of the grammars below. -/
theorem not_mem_of_isDigit {c : Char} {cs : List Char} (hc : c.isDigit = false)
    (h : ∀ x ∈ cs, x.isDigit = true) : c ∉ cs := fun hmem => by
  rw [h c hmem] at hc
  cases hc

/-- An integer with an optional sign. -/
def integer? : List Char → Option Int
  | '-' :: ds => (digits? ds).map fun (n : Nat) => -(n : Int)
  | '+' :: ds => (digits? ds).map fun (n : Nat) => (n : Int)
  | ds => (digits? ds).map fun (n : Nat) => (n : Int)

/-- Without a sign in front, an integer that parses is a string of digits. -/
theorem integer?_eq_some {c : Char} {cs : List Char} {v : Int} (hm : c ≠ '-') (hp : c ≠ '+')
    (h : integer? (c :: cs) = some v) :
    (∀ x ∈ c :: cs, x.isDigit = true) ∧ v = (Nat.ofDigitChars 10 (c :: cs) 0 : Nat) := by
  unfold integer? at h
  split at h
  · next heq => exact absurd (List.cons.inj heq).1 hm
  · next heq => exact absurd (List.cons.inj heq).1 hp
  · unfold digits? at h
    split at h
    · next hd => exact ⟨List.all_eq_true.mp hd.2, by simpa using h.symm⟩
    · cases h

/-! ## Decimal literals -/

/-- Digits with at most one decimal point, at least one digit in all. -/
def mantissa? (cs : List Char) : Option ℚ :=
  let frac := after '.' cs
  (digits? (before '.' cs ++ frac)).map fun (n : Nat) => (n : ℚ) / 10 ^ frac.length

/-- Is the character an exponent mark? -/
def isExpMark (c : Char) : Bool := c == 'e' || c == 'E'

/-- The exponent part: nothing, or a mark, an optional sign and digits. -/
def exponent? : List Char → Option Int
  | [] => some 0
  | _ :: '-' :: ds => (digits? ds).map fun (n : Nat) => -(n : Int)
  | _ :: '+' :: ds => (digits? ds).map fun (n : Nat) => (n : Int)
  | _ :: ds => (digits? ds).map fun (n : Nat) => (n : Int)

/-- The exact value of an unsigned decimal literal. -/
def unsigned? (cs : List Char) : Option ℚ :=
  match mantissa? (cs.takeWhile (!isExpMark ·)), exponent? (cs.dropWhile (!isExpMark ·)) with
  | some m, some e => some (m * 10 ^ e)
  | _, _ => none

/-- The exact value of a decimal literal with an optional sign. -/
def decimal? : List Char → Option ℚ
  | '-' :: cs => (unsigned? cs).map Neg.neg
  | '+' :: cs => unsigned? cs
  | cs => unsigned? cs

theorem mantissa?_nonneg {cs : List Char} {v : ℚ} (h : mantissa? cs = some v) : 0 ≤ v := by
  simp only [mantissa?, Option.map_eq_some_iff] at h
  obtain ⟨n, -, rfl⟩ := h
  exact div_nonneg (Nat.cast_nonneg n) (pow_nonneg (by norm_num) _)

theorem unsigned?_nonneg {cs : List Char} {v : ℚ} (h : unsigned? cs = some v) : 0 ≤ v := by
  unfold unsigned? at h
  split at h
  · next m e hm he =>
    cases h
    exact mul_nonneg (mantissa?_nonneg hm) (zpow_nonneg (by norm_num) e)
  · cases h

/-- With a minus in front no number is positive. -/
theorem decimal?_minus_nonpos {cs : List Char} {v : ℚ} (h : decimal? ('-' :: cs) = some v) :
    v ≤ 0 := by
  obtain ⟨u, hu, rfl⟩ := Option.map_eq_some_iff.mp h
  exact neg_nonpos.mpr (unsigned?_nonneg hu)

/-! ### Positional literals

A literal of digits and a point that starts with a digit has no sign and no
exponent, so its value is that of its mantissa. -/

section Positional

variable {whole frac : List Char}

/-- The value of digits with a point between them. -/
theorem mantissa?_of_isDigit (hne : whole ≠ []) (hw : ∀ c ∈ whole, c.isDigit = true)
    (hf : ∀ c ∈ frac, c.isDigit = true) :
    mantissa? (whole ++ '.' :: frac)
      = some ((Nat.ofDigitChars 10 (whole ++ frac) 0 : ℚ) / 10 ^ frac.length) := by
  have hdot : '.' ∉ whole := not_mem_of_isDigit rfl hw
  have hd : digits? (whole ++ frac) = some (Nat.ofDigitChars 10 (whole ++ frac) 0) :=
    digits?_of_isDigit (by simp [hne]) fun c hc =>
      (List.mem_append.mp hc).elim (hw c) (hf c)
  simp only [mantissa?, before_append hdot, after_append hdot, hd, Option.map_some]

/-- The value of digits alone. -/
theorem mantissa?_of_isDigit_whole (hne : whole ≠ []) (hw : ∀ c ∈ whole, c.isDigit = true) :
    mantissa? whole = some (Nat.ofDigitChars 10 whole 0 : ℚ) := by
  have hdot : '.' ∉ whole := not_mem_of_isDigit rfl hw
  simp [mantissa?, before_of_not_mem hdot, after_of_not_mem hdot, digits?_of_isDigit hne hw]

/-- Zeros at the end of the fraction do not change the value. -/
theorem mantissa?_append_zeros (hne : whole ≠ []) (hw : ∀ c ∈ whole, c.isDigit = true)
    (hf : ∀ c ∈ frac, c.isDigit = true) (z : Nat) :
    mantissa? (whole ++ '.' :: (frac ++ List.replicate z '0'))
      = mantissa? (whole ++ '.' :: frac) := by
  have hz : ∀ c ∈ frac ++ List.replicate z '0', c.isDigit = true := by
    intro c hc
    rcases List.mem_append.mp hc with hc | hc
    · exact hf c hc
    · rw [List.eq_of_mem_replicate hc]
      rfl
  rw [mantissa?_of_isDigit hne hw hz, mantissa?_of_isDigit hne hw hf, ← List.append_assoc,
    Nat.ofDigitChars_append, Nat.ofDigitChars_replicate_zero, List.length_append,
    List.length_replicate, pow_add]
  push_cast
  congr 1
  field_simp

/-- Text without exponent marks has no exponent part. -/
theorem unsigned?_of_no_mark {cs : List Char} (h : ∀ x ∈ cs, isExpMark x = false) :
    unsigned? cs = mantissa? cs := by
  have hmark : ∀ x ∈ cs, (!isExpMark x) = true := fun x hx => by rw [h x hx]; rfl
  have htake : (cs ++ []).takeWhile (!isExpMark ·) = _ := List.takeWhile_append_of_pos hmark
  have hdrop : (cs ++ []).dropWhile (!isExpMark ·) = _ := List.dropWhile_append_of_pos hmark
  simp only [List.append_nil, List.takeWhile_nil, List.dropWhile_nil] at htake hdrop
  unfold unsigned?
  rw [htake, hdrop]
  cases mantissa? cs <;> simp [exponent?]

theorem isExpMark_of_isDigit_or_dot {c : Char} (h : c.isDigit = true ∨ c = '.') :
    isExpMark c = false := by
  rcases h with hd | rfl
  · have h₁ : c ≠ 'e' := by
      rintro rfl
      cases hd
    have h₂ : c ≠ 'E' := by
      rintro rfl
      cases hd
    simp [isExpMark, h₁, h₂]
  · rfl

/-- A literal of digits and points that starts with a digit is its mantissa. -/
theorem decimal?_eq_mantissa? {cs : List Char} {c : Char} {ds : List Char} (hcs : cs = c :: ds)
    (hc : c.isDigit = true) (h : ∀ x ∈ cs, x.isDigit = true ∨ x = '.') :
    decimal? cs = mantissa? cs := by
  rw [← unsigned?_of_no_mark fun x hx => isExpMark_of_isDigit_or_dot (h x hx), hcs]
  unfold decimal?
  split
  · next heq =>
    cases heq
    cases hc
  · next heq =>
    cases heq
    cases hc
  · rfl

/-- No number has a sign in its fraction. -/
theorem mantissa?_eq_none {c : Char} (hw : '.' ∉ whole) (hc : c ∈ frac) (hd : c.isDigit = false) :
    mantissa? (whole ++ '.' :: frac) = none := by
  have hdigits : digits? (whole ++ frac) = none := by
    rw [digits?, if_neg]
    rintro ⟨-, hall⟩
    have := List.all_eq_true.mp hall c (List.mem_append_right whole hc)
    rw [hd] at this
    cases this
  simp only [mantissa?, before_append hw, after_append hw, hdigits, Option.map_none]

end Positional

/-! ## Fixed-point text -/

/-- `n` units of `10⁻ᵏ`, written with exactly `k` fraction digits. -/
def fixedText (k n : Nat) : List Char :=
  Nat.toDigits 10 (n / 10 ^ k) ++ '.' :: padStart k '0' (Nat.toDigits 10 (n % 10 ^ k))

section FixedText

variable (k n : Nat)

theorem dot_not_mem_toDigits : '.' ∉ Nat.toDigits 10 n :=
  not_mem_of_isDigit rfl isDigit_toDigits

@[simp] theorem before_fixedText : before '.' (fixedText k n) = Nat.toDigits 10 (n / 10 ^ k) :=
  before_append (dot_not_mem_toDigits _) _

@[simp] theorem after_fixedText :
    after '.' (fixedText k n) = padStart k '0' (Nat.toDigits 10 (n % 10 ^ k)) :=
  after_append (dot_not_mem_toDigits _) _

theorem length_fraction (hk : 0 < k) :
    (padStart k '0' (Nat.toDigits 10 (n % 10 ^ k))).length = k :=
  length_padStart <| (Nat.length_toDigits_le_iff (by decide) hk).mpr
    (Nat.mod_lt _ (Nat.pow_pos (by decide)))

theorem isDigit_fixedText : ∀ c ∈ fixedText k n, c.isDigit = true ∨ c = '.' := by
  intro c hc
  rcases List.mem_append.mp hc with hc | hc
  · exact .inl (isDigit_toDigits c hc)
  · rcases List.mem_cons.mp hc with rfl | hc
    · exact .inr rfl
    · exact .inl (isDigit_padStart isDigit_toDigits c hc)

/-- The digits of a fixed-point text, read without its point, are its units. -/
theorem ofDigitChars_fixedText (hk : 0 < k) :
    Nat.ofDigitChars 10 (Nat.toDigits 10 (n / 10 ^ k)
      ++ padStart k '0' (Nat.toDigits 10 (n % 10 ^ k))) 0 = n := by
  rw [Nat.ofDigitChars_append, Nat.ofDigitChars_eq_ofDigitChars_zero, length_fraction k n hk,
    ofDigitChars_padStart, Nat.ofDigitChars_ten_toDigits, Nat.ofDigitChars_ten_toDigits]
  exact Nat.div_add_mod n (10 ^ k)

theorem mantissa?_fixedText (hk : 0 < k) :
    mantissa? (fixedText k n) = some ((n : ℚ) / 10 ^ k) := by
  rw [fixedText, mantissa?_of_isDigit Nat.toDigits_ne_nil isDigit_toDigits
    (isDigit_padStart isDigit_toDigits), ofDigitChars_fixedText k n hk, length_fraction k n hk]

/-- Fixed-point text starts with a digit. -/
theorem fixedText_eq_cons :
    ∃ c ds, Nat.toDigits 10 (n / 10 ^ k) = c :: ds ∧ c.isDigit = true ∧
      fixedText k n = c :: (ds ++ '.' :: padStart k '0' (Nat.toDigits 10 (n % 10 ^ k))) := by
  obtain ⟨c, ds, hds⟩ :=
    List.exists_cons_of_ne_nil (Nat.toDigits_ne_nil (b := 10) (n := n / 10 ^ k))
  refine ⟨c, ds, hds, isDigit_toDigits c (by rw [hds]; exact List.mem_cons_self), ?_⟩
  rw [fixedText, hds, List.cons_append]

theorem unsigned?_fixedText (hk : 0 < k) :
    unsigned? (fixedText k n) = some ((n : ℚ) / 10 ^ k) := by
  rw [unsigned?_of_no_mark fun x hx => isExpMark_of_isDigit_or_dot (isDigit_fixedText k n x hx),
    mantissa?_fixedText k n hk]

/-- Fixed-point text denotes its units, scaled. -/
theorem decimal?_fixedText (hk : 0 < k) :
    decimal? (fixedText k n) = some ((n : ℚ) / 10 ^ k) := by
  obtain ⟨c, ds, -, hc, htext⟩ := fixedText_eq_cons k n
  rw [decimal?_eq_mantissa? htext hc (isDigit_fixedText k n), mantissa?_fixedText k n hk]

end FixedText

end Stargate.Base
