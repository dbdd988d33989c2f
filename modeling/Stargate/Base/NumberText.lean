import Stargate.Base.EcmaScript

/-!
# The text of a double

`String(x)` prints as few digits as identify the double `x`. Several decimals may read back
as `x`; the shortest one counts, and of these the nearest.

- `shortest`: that decimal, as a whole number and its places after the point;
- `doubleText`: `String(x)`;
- `JsNumber.ofRat`: the double that a decimal literal stands for, or an infinity;
- `numberText_digits`: text without a point or an exponent is the number, digit by digit;
- `doubleText_natCast`: so are whole numbers printed.
-/

namespace Stargate.Base

/-! ## The shortest decimal -/

/-- The decimals with `k` digits on both sides of `x > 0`, the nearer one first. -/
def neighbours (x : ℚ) (k : Nat) : List (Nat × Nat) :=
  -- the exponent of the last digit
  let p := Int.log 10 x + 1 - k
  let y := x / 10 ^ p
  let near := (roundHalfEven y).toNat
  let far := if (near : ℚ) ≤ y then near + 1 else near - 1
  [(near * 10 ^ p.toNat, (-p).toNat), (far * 10 ^ p.toNat, (-p).toNat)]

/-- The first of them that reads back as `x`, from `k` digits on. -/
def shortestFrom (x : ℚ) : Nat → Nat → Option (Nat × Nat)
  | 0, _ => none
  | fuel + 1, k =>
    match (neighbours x k).find? fun d => toBinary64 (d.1 / 10 ^ d.2) = x with
    | some d => some d
    | none => shortestFrom x fuel (k + 1)

/-- The shortest decimal that reads back as the double `x > 0`. Seventeen digits are always
enough. -/
def shortest (x : ℚ) : Option (Nat × Nat) := shortestFrom x 17 1

/-- `String(x)` of a positive double. -/
def positiveText (x : ℚ) : List Char :=
  match shortest x with
  | some (m, s) => numberText m s
  | none => []

/-- `String(x)` of a double. -/
def doubleText (x : ℚ) : List Char :=
  if x = 0 then ['0'] else if x < 0 then '-' :: positiveText (-x) else positiveText x

example : doubleText (toBinary64 (1 / 10)) = "0.1".toList := by decide +kernel
example : doubleText (toBinary64 (10 ^ 23)) = "1e+23".toList := by decide +kernel

theorem shortestFrom_sound {x : ℚ} {fuel k : Nat} {d : Nat × Nat}
    (h : shortestFrom x fuel k = some d) : toBinary64 (d.1 / 10 ^ d.2) = x := by
  induction fuel generalizing k with
  | zero => cases h
  | succ fuel ih =>
    rw [shortestFrom] at h
    split at h
    · next hfind =>
      cases h
      have hreads := List.find?_some hfind
      exact of_decide_eq_true hreads
    · exact ih h

/-- The shortest decimal reads back as the double. -/
theorem shortest_sound {x : ℚ} {m s : Nat} (h : shortest x = some (m, s)) :
    toBinary64 (m / 10 ^ s) = x :=
  shortestFrom_sound (d := (m, s)) h

/-! ## Numbers that are not finite -/

namespace JsNumber

/-- The double nearest to a number, or an infinity. -/
def ofRat (x : ℚ) : JsNumber :=
  let d := toBinary64 x
  if 2 ^ 1024 ≤ |d| then .infinity (d < 0) else .finite d

/-- `Number(text)` of a decimal literal. -/
def ofDecimal (cs : List Char) : JsNumber :=
  match decimal? cs with
  | some x => ofRat x
  | none => .nan

/-- `Number(text)`. -/
def ofText (cs : List Char) : JsNumber :=
  match trim cs with
  | [] => .finite 0
  | '0' :: x :: ds =>
    let radix := fun b => match radix? b ds with
      | some n => ofRat n
      | none => .nan
    if x == 'x' || x == 'X' then radix 16
    else if x == 'o' || x == 'O' then radix 8
    else if x == 'b' || x == 'B' then radix 2
    else ofDecimal ('0' :: x :: ds)
  | text =>
    if text = "Infinity".toList ∨ text = "+Infinity".toList then .infinity false
    else if text = "-Infinity".toList then .infinity true
    else ofDecimal text

/-- `String(x)`. -/
def text : JsNumber → List Char
  | .nan => "NaN".toList
  | .infinity negative => if negative then "-Infinity".toList else "Infinity".toList
  | .finite x => doubleText x

/-- `JSON.stringify(x)`. -/
def jsonText : JsNumber → List Char
  | .finite x => doubleText x
  | _ => "null".toList

/-- `x >= b`, for a finite `b`. -/
def atLeast : JsNumber → ℚ → Bool
  | .nan, _ => false
  | .infinity negative, _ => !negative
  | .finite x, b => b ≤ x

end JsNumber

/-! ## Text of digits -/

section Digits

variable {m s : Nat}

/-- The zeros at the end of a number, counted. -/
theorem toDigits_eq_append (m : Nat) : ∃ z, Nat.toDigits 10 m =
    (Nat.toDigits 10 m).rdropWhile (· == '0') ++ List.replicate z '0' := by
  refine ⟨((Nat.toDigits 10 m).rtakeWhile (· == '0')).length, ?_⟩
  rw [← List.eq_replicate_of_mem (a := '0') fun x hx => by
    simpa using List.mem_rtakeWhile_imp hx, List.rdropWhile_append_rtakeWhile]

/-- Text without a point or an exponent is the number, digit by digit. -/
theorem numberText_digits (h : ∀ c ∈ numberText m s, c.isDigit = true) :
    (Nat.ofDigitChars 10 (numberText m s) 0 : ℚ) = m / 10 ^ s := by
  obtain ⟨z, hz⟩ := toDigits_eq_append m
  have hm : m = 10 ^ z * Nat.ofDigitChars 10 ((Nat.toDigits 10 m).rdropWhile (· == '0')) 0 := by
    have := congrArg (Nat.ofDigitChars 10 · 0) hz
    simpa [Nat.ofDigitChars_append, Nat.ofDigitChars_replicate_zero] using this
  have hlen := congrArg List.length hz
  rw [List.length_append, List.length_replicate] at hlen
  unfold numberText at h ⊢
  dsimp only at h ⊢
  generalize (Nat.toDigits 10 m).rdropWhile (· == '0') = ds at *
  split_ifs at h ⊢ with hnil hwhole hpoint hsmall
  · subst hnil
    have hzero : m = 0 := by simpa using hm
    rw [hzero]
    simp [Nat.ofDigitChars]
  · have hsz : s ≤ z := by omega
    have hplaces : (((Nat.toDigits 10 m).length : Int) - s - ds.length).toNat = z - s := by omega
    rw [hplaces, Nat.ofDigitChars_append, Nat.ofDigitChars_replicate_zero,
      eq_div_iff (by positivity)]
    conv_rhs => rw [hm]
    push_cast
    rw [mul_right_comm, ← pow_add, Nat.sub_add_cancel hsz]
  -- elsewhere there is a point or an exponent mark
  · cases h '.' (by simp)
  · cases h '.' (by simp)
  · split at h
    · cases h 'e' (by simp [exponentText])
    · cases h 'e' (by simp [exponentText])

/-- The characters of a number. -/
theorem mem_numberText {c : Char} (h : c ∈ numberText m s) :
    c.isDigit = true ∨ c ∈ ['.', 'e', '+', '-'] := by
  have hdigits : ∀ c ∈ (Nat.toDigits 10 m).rdropWhile (· == '0'), c.isDigit = true :=
    fun c hc => isDigit_toDigits c (List.rdropWhile_prefix _ _ |>.subset hc)
  have hexponent : ∀ e : Int, ∀ c ∈ exponentText e,
      c.isDigit = true ∨ c ∈ ['.', 'e', '+', '-'] := by
    intro e c hc
    unfold exponentText at hc
    rcases List.mem_cons.mp hc with rfl | hc
    · exact .inr (by decide)
    · rcases List.mem_cons.mp hc with rfl | hc
      · split <;> exact .inr (by decide)
      · exact .inl (isDigit_toDigits c hc)
  unfold numberText at h
  dsimp only at h
  generalize (Nat.toDigits 10 m).rdropWhile (· == '0') = ds at *
  split_ifs at h
  · cases List.mem_singleton.mp h
    exact .inl rfl
  · rcases List.mem_append.mp h with hc | hc
    · exact .inl (hdigits c hc)
    · rw [List.eq_of_mem_replicate hc]
      exact .inl rfl
  · rcases List.mem_append.mp h with hc | hc
    · exact .inl (hdigits c (List.mem_of_mem_take hc))
    · rcases List.mem_cons.mp hc with rfl | hc
      · exact .inr (by decide)
      · exact .inl (hdigits c (List.mem_of_mem_drop hc))
  · rcases List.mem_cons.mp h with rfl | h
    · exact .inl rfl
    rcases List.mem_cons.mp h with rfl | h
    · exact .inr (by decide)
    rcases List.mem_append.mp h with hc | hc
    · rw [List.eq_of_mem_replicate hc]
      exact .inl rfl
    · exact .inl (hdigits c hc)
  · split at h
    · rcases List.mem_cons.mp h with rfl | hc
      · exact .inl (hdigits c List.mem_cons_self)
      · exact hexponent _ c hc
    · rcases List.mem_append.mp h with hc | hc
      · rcases List.mem_append.mp hc with hc | hc
        · exact .inl (hdigits c (List.mem_of_mem_take hc))
        · rcases List.mem_cons.mp hc with rfl | hc
          · exact .inr (by decide)
          · exact .inl (hdigits c (List.mem_of_mem_drop hc))
      · exact hexponent _ c hc

end Digits

/-! ## Whole numbers -/

/-- Whole numbers below `2⁵³` are doubles. -/
theorem toBinary64_natCast {n : Nat} (h : n < 2 ^ 53) : toBinary64 n = n := by
  have hlog : Int.log 2 |(n : ℚ)| ≤ 52 := by
    rw [Nat.abs_cast, Int.log_natCast]
    have : Nat.log 2 n < 53 := Nat.log_lt_of_lt_pow' (by decide) h
    omega
  obtain ⟨j, hj⟩ : ∃ j : Nat, ulpExponent n = -j :=
    ⟨(-ulpExponent n).toNat, by unfold ulpExponent; omega⟩
  have hscaled : (n : ℚ) / 2 ^ ulpExponent n = ((n * 2 ^ j : Nat) : Int) := by
    rw [hj, zpow_neg, zpow_natCast, div_inv_eq_mul]
    push_cast
    rfl
  rw [toBinary64, hscaled, roundHalfEven_intCast, ← hscaled]
  exact div_mul_cancel₀ _ (zpow_ne_zero _ (by norm_num))

/-- A whole number is printed as it is. -/
theorem numberText_natCast {n : Nat} (h₀ : 0 < n) (h : n < 10 ^ 21) :
    numberText n 0 = Nat.toDigits 10 n := by
  obtain ⟨z, hz⟩ := toDigits_eq_append n
  have hlen : (Nat.toDigits 10 n).length ≤ 21 :=
    (Nat.length_toDigits_le_iff (by decide) (by decide)).mpr h
  have hnil : (Nat.toDigits 10 n).rdropWhile (· == '0') ≠ [] := by
    intro hnil
    rw [hnil, List.nil_append] at hz
    have := congrArg (Nat.ofDigitChars 10 · 0) hz
    simp [Nat.ofDigitChars_replicate_zero] at this
    omega
  have hsum := congrArg List.length hz
  rw [List.length_append, List.length_replicate] at hsum
  unfold numberText
  dsimp only
  rw [if_neg hnil, if_pos (by omega)]
  conv_rhs => rw [hz]
  congr 2
  omega

/-- The neighbours of a whole number with no more digits than it has are whole. -/
theorem places_of_mem_neighbours {n k : Nat} (hlog : k ≤ Nat.log 10 n + 1) {d : Nat × Nat}
    (hd : d ∈ neighbours n k) : d.2 = 0 := by
  obtain ⟨q, hq⟩ : ∃ q, Nat.log 10 n + 1 = k + q := ⟨_, (Nat.add_sub_cancel' hlog).symm⟩
  have hp : Int.log 10 (n : ℚ) + 1 - k = q := by
    rw [Int.log_natCast]
    omega
  unfold neighbours at hd
  simp only [hp, List.mem_cons, List.not_mem_nil, or_false, Int.toNat_neg_natCast] at hd
  rcases hd with rfl | rfl
  · rfl
  · rfl

/-- With as many digits as it has, a whole number is its own neighbour. -/
theorem head?_neighbours {n : Nat} : (neighbours n (Nat.log 10 n + 1)).head? = some (n, 0) := by
  have hp : Int.log 10 (n : ℚ) + 1 - (Nat.log 10 n + 1 : Nat) = 0 := by
    rw [Int.log_natCast]
    omega
  unfold neighbours
  dsimp only
  rw [hp]
  have hround : roundHalfEven (n : ℚ) = n := by
    rw [← Int.cast_natCast, roundHalfEven_intCast]
  simp [hround]

/-- A whole number with such a double is the number itself. -/
theorem eq_of_toBinary64_natCast {m n : Nat} (h : n < 2 ^ 53) (heq : toBinary64 m = n) :
    m = n := by
  rcases Nat.lt_or_ge m (2 ^ 53) with hm | hm
  · rw [toBinary64_natCast hm] at heq
    exact_mod_cast heq
  · have hpow : toBinary64 ((2 ^ 53 : Nat) : ℚ) = ((2 ^ 53 : Nat) : ℚ) := by decide +kernel
    have hmono := toBinary64_mono (Nat.cast_nonneg _) (Nat.cast_le (α := ℚ).mpr hm)
    rw [hpow, heq, Nat.cast_le] at hmono
    omega

/-- The shortest decimal of a whole number is the number. -/
theorem shortestFrom_natCast {n : Nat} (h : n < 2 ^ 53) (fuel k : Nat)
    (hlog : k ≤ Nat.log 10 n + 1) (hfuel : Nat.log 10 n + 1 < fuel + k) :
    shortestFrom n fuel k = some (n, 0) := by
  induction fuel generalizing k with
  | zero => omega
  | succ fuel ih =>
    rw [shortestFrom]
    cases hfind : (neighbours n k).find? fun d => toBinary64 (d.1 / 10 ^ d.2) = n with
    | some d =>
      have hplaces := places_of_mem_neighbours hlog (List.mem_of_find?_eq_some hfind)
      have hfound := List.find?_some hfind
      have hreads := of_decide_eq_true hfound
      rw [hplaces, pow_zero, div_one] at hreads
      exact congrArg some (Prod.ext (eq_of_toBinary64_natCast h hreads) hplaces)
    | none =>
      refine ih (k + 1) ?_ (by omega)
      by_contra hlast
      obtain rfl : k = Nat.log 10 n + 1 := by omega
      obtain ⟨rest, hrest⟩ := List.head?_eq_some_iff.mp (head?_neighbours (n := n))
      have hself := List.find?_eq_none.mp hfind (n, 0) (hrest ▸ List.mem_cons_self)
      refine hself (decide_eq_true ?_)
      rw [pow_zero, div_one, toBinary64_natCast h]

/-- A whole number below `2⁵³` is printed digit by digit. -/
theorem doubleText_natCast {n : Nat} (h : n < 2 ^ 53) :
    doubleText n = Nat.toDigits 10 n := by
  rcases Nat.eq_zero_or_pos n with rfl | h₀
  · rfl
  · have hlog : Nat.log 10 n < 16 := Nat.log_lt_of_lt_pow h₀.ne' (by omega)
    have hshort : shortest n = some (n, 0) :=
      shortestFrom_natCast h 17 1 (by omega) (by omega)
    have hcast : (0 : ℚ) < n := Nat.cast_pos.mpr h₀
    rw [doubleText, if_neg hcast.ne', if_neg hcast.not_gt, positiveText, hshort]
    exact numberText_natCast h₀ (by omega)

/-- Text of digits only is that of a whole number. -/
theorem eq_of_doubleText_digits {x : ℚ} (hne : doubleText x ≠ [])
    (hdigits : ∀ c ∈ doubleText x, c.isDigit = true)
    (hlt : Nat.ofDigitChars 10 (doubleText x) 0 < 2 ^ 53) :
    x = (Nat.ofDigitChars 10 (doubleText x) 0 : Nat) := by
  unfold doubleText at hne hdigits hlt ⊢
  split_ifs at hne hdigits hlt ⊢ with hzero hneg
  · rw [hzero]
    simp [Nat.ofDigitChars]
  · cases hdigits '-' List.mem_cons_self
  · unfold positiveText at hne hdigits hlt ⊢
    cases hshort : shortest x with
    | none =>
      rw [hshort] at hne
      exact absurd rfl hne
    | some d =>
      obtain ⟨m, s⟩ := d
      rw [hshort] at hdigits hlt
      dsimp only at hdigits hlt ⊢
      rw [← toBinary64_natCast hlt, numberText_digits hdigits, shortest_sound hshort]

end Stargate.Base
