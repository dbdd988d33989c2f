import Stargate.Base.Positional

/-!
# Strings of decimal digits

A string of digits is determined by its value and its length, and also by its value alone where
it has no leading zero.

- `ofDigitChars_inj`: of two strings of one length, equal values are equal strings;
- `toDigits_ofDigitChars`, `padStart_ofDigitChars`: printing a value gives the string back that
  it was read from, without leading zeros or with a fixed length;
- `decimal?_fixedPoint_iff`: a number has one text with `k` places and no superfluous zero.
-/

namespace Stargate.Base

section Digits

variable {c d : Char} {cs ds : List Char}

/-- A digit by its value. -/
theorem digit_inj (hc : c.isDigit = true) (hd : d.isDigit = true)
    (h : c.toNat - '0'.toNat = d.toNat - '0'.toNat) : c = d := by
  obtain ⟨hc, -⟩ := Char.isDigit_iff_toNat.mp hc
  obtain ⟨hd, -⟩ := Char.isDigit_iff_toNat.mp hd
  have hzero : '0'.toNat = 48 := rfl
  rw [hzero] at h
  exact Char.toNat_inj.mp (by omega)

/-- The first digit counts for as many places as follow. -/
theorem ofDigitChars_cons_zero (c : Char) (cs : List Char) :
    Nat.ofDigitChars 10 (c :: cs) 0
      = 10 ^ cs.length * (c.toNat - '0'.toNat) + Nat.ofDigitChars 10 cs 0 := by
  rw [Nat.ofDigitChars_cons, Nat.mul_zero, Nat.zero_add, Nat.ofDigitChars_eq_ofDigitChars_zero]

theorem ofDigitChars_lt (h : ∀ c ∈ cs, c.isDigit = true) :
    Nat.ofDigitChars 10 cs 0 < 10 ^ cs.length := by
  induction cs with
  | nil => decide
  | cons c cs ih =>
    obtain ⟨-, hle⟩ := Char.isDigit_iff_toNat.mp (h c List.mem_cons_self)
    have hlt := ih fun d hd => h d (List.mem_cons_of_mem c hd)
    have hdigit : c.toNat - '0'.toNat ≤ 9 := Nat.sub_le_of_le_add hle
    rw [ofDigitChars_cons_zero, List.length_cons, pow_succ]
    have := Nat.mul_le_mul_left (10 ^ cs.length) hdigit
    omega

/-- **Equal values of one length are equal strings.** -/
theorem ofDigitChars_inj (hlen : cs.length = ds.length) (hc : ∀ c ∈ cs, c.isDigit = true)
    (hd : ∀ d ∈ ds, d.isDigit = true)
    (h : Nat.ofDigitChars 10 cs 0 = Nat.ofDigitChars 10 ds 0) : cs = ds := by
  induction cs generalizing ds with
  | nil => exact (List.length_eq_zero_iff.mp hlen.symm).symm
  | cons c cs ih =>
    cases ds with
    | nil => cases hlen
    | cons d ds =>
      have hlen : cs.length = ds.length := Nat.succ.inj hlen
      have hcs := fun x hx => hc x (List.mem_cons_of_mem c hx)
      have hds := fun x hx => hd x (List.mem_cons_of_mem d hx)
      have hclt := ofDigitChars_lt hcs
      have hdlt := ofDigitChars_lt hds
      rw [ofDigitChars_cons_zero, ofDigitChars_cons_zero, hlen] at h
      rw [hlen] at hclt
      -- quotient and remainder by the places that follow
      have hhead : c.toNat - '0'.toNat = d.toNat - '0'.toNat := by
        have hquot := congrArg (· / 10 ^ ds.length) h
        rwa [Nat.mul_add_div (by positivity), Nat.mul_add_div (by positivity),
          Nat.div_eq_of_lt hclt, Nat.div_eq_of_lt hdlt, Nat.add_zero, Nat.add_zero] at hquot
      rw [hhead] at h
      rw [digit_inj (hc c List.mem_cons_self) (hd d List.mem_cons_self) hhead,
        ih hlen hcs hds (Nat.add_left_cancel h)]

/-- **Digits without a leading zero are those of their value.** -/
theorem toDigits_ofDigitChars (h : ∀ x ∈ c :: cs, x.isDigit = true) (hhead : c ≠ '0') :
    Nat.toDigits 10 (Nat.ofDigitChars 10 (c :: cs) 0) = c :: cs := by
  have hc := h c List.mem_cons_self
  have hpos : 1 ≤ c.toNat - '0'.toNat := by
    by_contra hzero
    exact hhead (digit_inj hc rfl (by rw [Nat.sub_self]; omega))
  have hge : 10 ^ cs.length ≤ Nat.ofDigitChars 10 (c :: cs) 0 := by
    rw [ofDigitChars_cons_zero]
    have := Nat.mul_le_mul_left (10 ^ cs.length) hpos
    omega
  have hlt := ofDigitChars_lt h
  refine ofDigitChars_inj ?_ isDigit_toDigits h Nat.ofDigitChars_ten_toDigits
  refine le_antisymm ((Nat.length_toDigits_le_iff (by decide) (Nat.succ_pos _)).mpr hlt) ?_
  -- a shorter number is below the first place
  by_contra hshort
  rw [List.length_cons] at hshort
  have hbelow := lt_pow_length (Nat.ofDigitChars 10 (c :: cs) 0)
  have hle : 10 ^ (Nat.toDigits 10 (Nat.ofDigitChars 10 (c :: cs) 0)).length ≤ 10 ^ cs.length :=
    Nat.pow_le_pow_right (by decide) (by omega)
  omega

/-- Digits are those of their value, padded to their length. -/
theorem padStart_ofDigitChars (h : ∀ c ∈ cs, c.isDigit = true) (hne : cs ≠ []) :
    padStart cs.length '0' (Nat.toDigits 10 (Nat.ofDigitChars 10 cs 0)) = cs := by
  have hlen : (Nat.toDigits 10 (Nat.ofDigitChars 10 cs 0)).length ≤ cs.length :=
    (Nat.length_toDigits_le_iff (by decide) (List.length_pos_iff.mpr hne)).mpr (ofDigitChars_lt h)
  refine ofDigitChars_inj (length_padStart hlen) (isDigit_padStart isDigit_toDigits) h ?_
  rw [ofDigitChars_padStart, Nat.ofDigitChars_ten_toDigits]

/-- A positive number has no leading zero. -/
theorem head_toDigits_ne {n : Nat} (hn : 0 < n) (h : Nat.toDigits 10 n = c :: cs) : c ≠ '0' := by
  rintro rfl
  have hdigits : ∀ x ∈ '0' :: cs, x.isDigit = true := h ▸ isDigit_toDigits
  have hlt := ofDigitChars_lt fun x hx => hdigits x (List.mem_cons_of_mem '0' hx)
  have hvalue : Nat.ofDigitChars 10 ('0' :: cs) 0 = n := h ▸ Nat.ofDigitChars_ten_toDigits
  rw [ofDigitChars_cons_zero, Nat.sub_self, Nat.mul_zero, Nat.zero_add] at hvalue
  have hge := pow_length_le hn
  rw [h, List.length_cons, Nat.add_sub_cancel] at hge
  omega

end Digits

/-! ## Fixed-point text -/

/-- Digits, a point and `k` more digits, without a superfluous zero in front. -/
structure FixedPoint (k : Nat) (cs whole frac : List Char) : Prop where
  text : cs = whole ++ '.' :: frac
  ne_nil : whole ≠ []
  isDigit_whole : ∀ c ∈ whole, c.isDigit = true
  isDigit_frac : ∀ c ∈ frac, c.isDigit = true
  leading : whole = ['0'] ∨ whole.head? ≠ some '0'
  places : frac.length = k

section FixedPoint

variable {k n : Nat} {cs whole frac : List Char}

theorem FixedPoint.positional (h : FixedPoint k cs whole frac) : Positional cs whole frac :=
  ⟨h.ne_nil, h.isDigit_whole, h.isDigit_frac, .inr h.text⟩

theorem fixedPoint_fixedText (n : Nat) (hk : 0 < k) :
    FixedPoint k (fixedText k n) (Nat.toDigits 10 (n / 10 ^ k))
      (padStart k '0' (Nat.toDigits 10 (n % 10 ^ k))) where
  text := rfl
  ne_nil := Nat.toDigits_ne_nil
  isDigit_whole := isDigit_toDigits
  isDigit_frac := isDigit_padStart isDigit_toDigits
  leading := by
    by_cases hzero : n / 10 ^ k = 0
    · rw [hzero]
      exact .inl rfl
    · obtain ⟨c, cs, hcs⟩ :=
        List.exists_cons_of_ne_nil (Nat.toDigits_ne_nil (b := 10) (n := n / 10 ^ k))
      rw [hcs, List.head?_cons]
      exact .inr fun hc => head_toDigits_ne (Nat.pos_of_ne_zero hzero) hcs (Option.some.inj hc)
  places := length_fraction k n hk

/-- The whole part is the one of the units. -/
theorem FixedPoint.whole_eq (h : FixedPoint k cs whole frac) :
    Nat.toDigits 10 (Nat.ofDigitChars 10 whole 0) = whole := by
  rcases h.leading with rfl | hhead
  · rfl
  · obtain ⟨c, ds, rfl⟩ := List.exists_cons_of_ne_nil h.ne_nil
    exact toDigits_ofDigitChars h.isDigit_whole fun hc => hhead (congrArg some hc)

/-- **One text of its kind denotes `n` units.** -/
theorem decimal?_fixedPoint_iff (hk : 0 < k) :
    ((∃ whole frac, FixedPoint k cs whole frac) ∧ decimal? cs = some ((n : ℚ) / 10 ^ k))
      ↔ cs = fixedText k n := by
  constructor
  · rintro ⟨⟨whole, frac, h⟩, hvalue⟩
    rw [h.positional.decimal?, Option.some.injEq, Positional.value, h.places,
      div_left_inj' (by positivity), Nat.cast_inj, Nat.ofDigitChars_append,
      Nat.ofDigitChars_eq_ofDigitChars_zero, h.places] at hvalue
    have hlt := ofDigitChars_lt h.isDigit_frac
    rw [h.places] at hlt
    have hfrac : frac ≠ [] := by
      rw [← List.length_pos_iff, h.places]
      exact hk
    have hquot : n / 10 ^ k = Nat.ofDigitChars 10 whole 0 := by
      rw [← hvalue, Nat.mul_add_div (by positivity), Nat.div_eq_of_lt hlt, Nat.add_zero]
    have hrem : n % 10 ^ k = Nat.ofDigitChars 10 frac 0 := by
      rw [← hvalue, Nat.mul_add_mod, Nat.mod_eq_of_lt hlt]
    have hpad := padStart_ofDigitChars h.isDigit_frac hfrac
    rw [h.places] at hpad
    rw [h.text, fixedText, hquot, hrem, h.whole_eq, hpad]
  · rintro rfl
    exact ⟨⟨_, _, fixedPoint_fixedText n hk⟩, decimal?_fixedText k n hk⟩

end FixedPoint

end Stargate.Base
