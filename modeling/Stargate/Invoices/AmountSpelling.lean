import Stargate.Base.Positional
import Stargate.Invoices.CreateBulk

/-!
# How an amount is written

`createInvoiceSchema` takes an amount as a number or as text, and hands `toUnits` a text in
either case.

- `Denotes`: an amount and its number of units, however it is written;
- `toUnits_numberText`: `String(x)` of a number with at most seven decimals is read back, unless
  it has an exponent;
- `accepted_alike_iff`: the amounts that a number and a text may both have;
- `amounts_in_range_iff`: those that stay within the bounds of the schema and the columns.
-/

namespace Stargate.Invoices

open Base

/-- The amount is `n` units. -/
def Denotes : AmountInput → Nat → Prop
  | .number digits scale, n => (digits : ℚ) / 10 ^ scale = n / 10 ^ 7
  | .text s, n => decimal? s.toList = some ((n : ℚ) / 10 ^ 7)
  | .other, _ => False

/-! ## Units of a text -/

section Text

variable {m s n : Nat} {cs whole frac : List Char}

theorem positional_of_isAmountText (h : isAmountText cs = true) :
    ∃ whole frac, Positional cs whole frac ∧ frac.length ≤ 7 := by
  obtain ⟨whole, frac, hne, hw, hf, hlen, hcs⟩ := isAmountText_cases h
  exact ⟨whole, frac, ⟨hne, hw, hf, hcs⟩, hlen⟩

/-- Text of `n` units is read as that, unless it is zero. -/
theorem toUnits_positional (h : Positional cs whole frac) (hlen : frac.length ≤ 7)
    (hvalue : Positional.value whole frac = (n : ℚ) / 10 ^ 7) :
    toUnits (String.ofList cs)
      = if n = 0 then .error (.badRequest "Amount must be greater than zero") else .ok n := by
  refine toUnits_of_parts h.ne_nil h.isDigit_whole h.isDigit_frac hlen h.before_eq h.after_eq ?_
  have hpow : (10 : ℚ) ^ 7 = 10 ^ frac.length * 10 ^ (7 - frac.length) := by
    rw [← pow_add, Nat.add_sub_cancel' hlen]
  rw [Positional.value, hpow, div_eq_div_iff (by positivity) (by positivity)] at hvalue
  have hcast : ((n * 10 ^ frac.length : Nat) : ℚ)
      = ((Nat.ofDigitChars 10 (whole ++ frac) 0 * 10 ^ (7 - frac.length) * 10 ^ frac.length : Nat)
        : ℚ) := by
    push_cast
    rw [← hvalue]
    ring
  exact Nat.eq_of_mul_eq_mul_right (show 0 < 10 ^ frac.length by positivity)
    (by exact_mod_cast hcast)

/-- Two ways to write one number, cleared of denominators. -/
theorem mul_pow_eq (h : (m : ℚ) / 10 ^ s = n / 10 ^ 7) : m * 10 ^ 7 = n * 10 ^ s := by
  rw [div_eq_div_iff (by positivity) (by positivity)] at h
  exact_mod_cast h

/-- Few decimals leave few places behind the point. -/
theorem places_le {d places few : Nat} (hd : d % 10 ≠ 0) (h : d * 10 ^ few = n * 10 ^ places) :
    places ≤ few := by
  by_contra hmore
  obtain ⟨k, rfl⟩ : ∃ k, places = few + (k + 1) := ⟨places - (few + 1), by omega⟩
  rw [pow_add, Nat.mul_comm (10 ^ few), ← Nat.mul_assoc] at h
  have hd' := Nat.eq_of_mul_eq_mul_right (by positivity) h
  rw [pow_succ, ← Nat.mul_assoc] at hd'
  omega

/-- The letter, the sign and the digits of an exponent. -/
theorem exponentText_spec (e : Int) : ∃ sign ds, exponentText e = 'e' :: sign :: ds ∧
    (sign = '+' ∨ sign = '-') ∧ ∀ d ∈ ds, d.isDigit = true := by
  unfold exponentText
  split
  · exact ⟨'+', _, rfl, .inl rfl, isDigit_toDigits⟩
  · exact ⟨'-', _, rfl, .inr rfl, isDigit_toDigits⟩

theorem digits?_exponent {c : Char} (cs : List Char) : digits? (c :: 'e' :: cs) = none := by
  rw [digits?, if_neg]
  rintro ⟨-, hall⟩
  have := List.all_eq_true.mp hall 'e' (by simp)
  cases this

/-- An exponent is no part of a `BigInt`. -/
theorem bigInt_exponent {c : Char} {cs : List Char} (hc : c.isDigit = true)
    (htrim : trim (c :: 'e' :: cs) = c :: 'e' :: cs) : bigInt (c :: 'e' :: cs) = none := by
  unfold bigInt
  rw [htrim]
  split
  · next heq => cases heq
  · next heq =>
    obtain ⟨rfl, -⟩ := List.cons.inj heq
    cases hc
  · next heq =>
    obtain ⟨rfl, -⟩ := List.cons.inj heq
    cases hc
  · next heq =>
    obtain ⟨rfl, htail⟩ := List.cons.inj heq
    obtain ⟨rfl, rfl⟩ := List.cons.inj htail
    rw [digits?_exponent]
    simp
  · next heq => cases (List.cons.inj heq).2

theorem toUnits_exponentText {c : Char} (hc : c.isDigit = true) (e : Int) :
    toUnits (String.ofList (c :: exponentText e)) = .error .syntaxError := by
  obtain ⟨sign, ds, htext, hsign, hds⟩ := exponentText_spec e
  rw [htext]
  have hchars : ∀ x ∈ c :: 'e' :: sign :: ds, x.isDigit = true ∨ x ∈ ['e', '+', '-'] := by
    intro x hx
    rcases List.mem_cons.mp hx with rfl | hx
    · exact .inl hc
    rcases List.mem_cons.mp hx with rfl | hx
    · exact .inr (by decide)
    rcases List.mem_cons.mp hx with rfl | hx
    · rcases hsign with rfl | rfl
      · exact .inr (by decide)
      · exact .inr (by decide)
    · exact .inl (hds x hx)
  have hbefore : before '.' (c :: 'e' :: sign :: ds) = c :: 'e' :: sign :: ds := by
    refine before_of_not_mem fun hdot => ?_
    rcases hchars '.' hdot with h | h
    · cases h
    · exact absurd h (by decide)
  have htrim : trim (c :: 'e' :: sign :: ds) = c :: 'e' :: sign :: ds := by
    refine trim_of_forall fun x hx => ?_
    rcases hchars x hx with h | h
    · exact isSpace_of_isDigit h
    · have hsigns : (['e', '+', '-'].all fun y => !isSpace y) = true := by decide
      exact (Bool.not_eq_true' _).mp (List.all_eq_true.mp hsigns x h)
  unfold toUnits
  rw [String.toList_ofList, hbefore]
  dsimp only
  rw [bigInt_exponent hc htrim]

/-- **`String(x)` is read back from ten units on**, which is where its exponent begins. -/
theorem toUnits_numberText (h : (m : ℚ) / 10 ^ s = n / 10 ^ 7) (hn : 0 < n) (hmax : n ≤ 10 ^ 12) :
    toUnits (String.ofList (numberText m s))
      = if n < 10 then .error .syntaxError else .ok n := by
  have hmul := mul_pow_eq h
  have hpow : 0 < 10 ^ s := by positivity
  have hm : 0 < m := by
    by_contra hzero
    have : 0 < n * 10 ^ s := Nat.mul_pos hn hpow
    omega
  by_cases hten : n < 10
  · rw [if_pos hten]
    obtain ⟨d, z, rfl, hd⟩ := significant hm
    -- below ten units one digit is significant
    have hdigit : d < 10 := by
      have hplaces : d * 10 ^ (z + 7) = n * 10 ^ s := by rw [← hmul, pow_add, Nat.mul_assoc]
      obtain ⟨k, hk⟩ : ∃ k, z + 7 = s + k :=
        Nat.exists_eq_add_of_le (places_le hd hplaces)
      rw [hk, pow_add, Nat.mul_comm (10 ^ s), ← Nat.mul_assoc] at hplaces
      have hdn := Nat.eq_of_mul_eq_mul_right hpow hplaces
      calc d ≤ d * 10 ^ k := Nat.le_mul_of_pos_right d (by positivity)
        _ = n := hdn
        _ < 10 := hten
    have hle : n * 10 ^ s ≤ 9 * 10 ^ s := Nat.mul_le_mul_right _ (by omega)
    obtain ⟨e, he⟩ := numberText_of_lt (s := s) (z := z) (show 0 < d by omega) hdigit (by omega)
    rw [he]
    exact toUnits_exponentText (by rw [Nat.isDigit_digitChar]; exact decide_eq_true hdigit) e
  · rw [if_neg hten]
    have hge : 10 * 10 ^ s ≤ n * 10 ^ s := Nat.mul_le_mul_right _ (by omega)
    have hle : n * 10 ^ s ≤ 10 ^ 12 * 10 ^ s := Nat.mul_le_mul_right _ hmax
    obtain ⟨whole, frac, hpos, hvalue, hfrac⟩ :=
      positional_numberText (m := m) (s := s) (by omega) (by omega)
    rw [toUnits_positional hpos ?_ (hvalue.trans h), if_neg (by omega)]
    rcases hfrac with rfl | hfrac
    · exact Nat.zero_le 7
    · refine places_le (n := n) hfrac (mul_pow_eq ?_)
      rw [← h, ← hvalue]
      rfl

end Text

/-! ## Numbers and texts -/

section Accepted

variable {a : AmountInput} {n digits scale : Nat} {s : String}

/-- The schema takes the amount and `toUnits` reads it. -/
def AmountAccepted (a : AmountInput) : Prop :=
  ∃ text u, parseAmount a = .ok text ∧ toUnits text = .ok u

/-- The amounts of either kind that are read, and are at most 100000. -/
def Spelled : AmountInput → Nat → Prop
  | .number _ _, n => 10 ≤ n
  | .text _, n => n ≤ 10 ^ 12
  | .other, _ => False

theorem parseAmount_number (h : Denotes (.number digits scale) n) (hn : 0 < n) :
    parseAmount (.number digits scale)
      = if n ≤ 10 ^ 12 then .ok (String.ofList (numberText digits scale))
        else .error .zodError := by
  have hvalue : (digits : ℚ) / 10 ^ scale = n / 10 ^ 7 := h
  have hiff : (0 : ℚ) < n / 10 ^ 7 ∧ (n : ℚ) / 10 ^ 7 ≤ 100000 ↔ n ≤ 10 ^ 12 := by
    have hpos : (0 : ℚ) < n / 10 ^ 7 := by positivity
    rw [div_le_iff₀ (by positivity)]
    have hbound : (100000 : ℚ) * 10 ^ 7 = ((10 ^ 12 : Nat) : ℚ) := by norm_num
    rw [hbound, Nat.cast_le]
    exact ⟨fun h => h.2, fun h => ⟨hpos, h⟩⟩
  unfold parseAmount
  dsimp only
  rw [hvalue]
  by_cases hmax : n ≤ 10 ^ 12
  · rw [if_pos hmax, if_pos (hiff.mpr hmax)]
  · rw [if_neg hmax, if_neg fun hin => hmax (hiff.mp hin)]

theorem toUnits_text (hs : isAmountText s.toList = true) (h : Denotes (.text s) n) (hn : 0 < n) :
    toUnits s = .ok n := by
  obtain ⟨whole, frac, hpos, hlen⟩ := positional_of_isAmountText hs
  have hvalue : Positional.value whole frac = (n : ℚ) / 10 ^ 7 :=
    Option.some.inj (hpos.decimal?.symm.trans h)
  rw [← String.ofList_toList (s := s), toUnits_positional hpos hlen hvalue, if_neg (by omega)]

/-- What the schema makes of an amount, and `toUnits` of that. -/
theorem toUnits_of_parseAmount {text : String} (h : parseAmount a = .ok text) (hn : Denotes a n)
    (hpos : 0 < n) :
    toUnits text = .ok n ∧ (n ≤ 10 ^ 12 ↔ Spelled a n) ∨
      toUnits text = .error .syntaxError ∧ ¬Spelled a n := by
  cases a with
  | number digits scale =>
    rw [parseAmount_number hn hpos] at h
    split_ifs at h with hmax
    cases h
    have hread := toUnits_numberText hn hpos hmax
    by_cases hten : n < 10
    · rw [if_pos hten] at hread
      exact .inr ⟨hread, not_le.mpr hten⟩
    · rw [if_neg hten] at hread
      exact .inl ⟨hread, iff_of_true hmax (not_lt.mp hten)⟩
  | text s =>
    unfold parseAmount at h
    dsimp only at h
    split_ifs at h with hs
    cases h
    exact .inl ⟨toUnits_text hs hn hpos, Iff.rfl⟩
  | other => cases hn

/-- **A number and a text of the same amount are accepted alike from `10⁻⁶` to 100000**: below,
the text alone is read, and above, only the number has a maximum. -/
theorem accepted_alike_iff (hs : isAmountText s.toList = true) (htext : Denotes (.text s) n)
    (hnumber : Denotes (.number digits scale) n) (hn : 0 < n) :
    (AmountAccepted (.text s) ↔ AmountAccepted (.number digits scale)) ↔
      10 ≤ n ∧ n ≤ 10 ^ 12 := by
  have haccepted : AmountAccepted (.text s) :=
    ⟨s, n, if_pos hs, toUnits_text hs htext hn⟩
  rw [iff_true_left haccepted]
  unfold AmountAccepted
  rw [parseAmount_number hnumber hn]
  constructor
  · rintro ⟨text, u, hparse, hunits⟩
    split_ifs at hparse with hmax
    cases hparse
    rw [toUnits_numberText hnumber hn hmax] at hunits
    split_ifs at hunits with hten
    exact ⟨not_lt.mp hten, hmax⟩
  · rintro ⟨hten, hmax⟩
    refine ⟨_, n, if_pos hmax, ?_⟩
    rw [toUnits_numberText hnumber hn hmax, if_neg (not_lt.mpr hten)]

/-- The amount that a parsed request goes by: `amount`, or else `amount_usdc`. -/
theorem parseAmount_of_parseCreate {input : CreateInput} {dto : CreateDto}
    (h : parseCreate input = .ok dto) (ha : input.amount.or input.amountUsdc = some a) :
    parseAmount a = .ok dto.amount := by
  unfold parseCreate at h
  obtain ⟨amount, hamount, h⟩ := bind_eq_ok.mp h
  obtain ⟨amountUsdc, husdc, h⟩ := bind_eq_ok.mp h
  obtain ⟨currency, hcurrency, h⟩ := bind_eq_ok.mp h
  have hmapped : ∀ {x : Option AmountInput} {y : Option String}, x.mapM parseAmount = .ok y →
      x = none ∧ y = none ∨ ∃ a text, x = some a ∧ y = some text ∧ parseAmount a = .ok text := by
    intro x y hxy
    cases x with
    | none =>
      cases hxy
      exact .inl ⟨rfl, rfl⟩
    | some a =>
      obtain ⟨text, htext, hsome⟩ := bind_eq_ok.mp hxy
      cases hsome
      exact .inr ⟨a, text, rfl, rfl, htext⟩
  have hchosen : ∃ text, amount.or amountUsdc = some text ∧ parseAmount a = .ok text := by
    rcases hmapped hamount with ⟨hnone, rfl⟩ | ⟨a₁, text, hsome, rfl, htext⟩
    · rw [hnone, Option.none_or] at ha
      rcases hmapped husdc with ⟨hnone', rfl⟩ | ⟨a₂, text, hsome', rfl, htext⟩
      · rw [hnone'] at ha
        cases ha
      · cases hsome'.symm.trans ha
        exact ⟨text, rfl, htext⟩
    · rw [hsome] at ha
      cases ha
      exact ⟨text, rfl, htext⟩
  obtain ⟨text, hor, htext⟩ := hchosen
  dsimp only at h
  split at h
  · cases h
  · split at h
    · cases h
    · rw [hor] at h
      cases h
      exact htext

end Accepted

/-! ## Converted amounts -/

section Converted

variable {db : Db} {currency : Currency} {n k f : Nat} {text : String}

/-- The rate of a currency, a `NUMERIC(24,12)` that is not negative. -/
structure RateOf (db : Db) (currency : Currency) (k : Nat) : Prop where
  rate : getRate db currency = .ofRat (k / 10 ^ 12)
  lt : k < 10 ^ 24

/-- `n` units times the rate `k · 10⁻¹²`, in doubles. -/
def usdcValue (n k : Nat) : ℚ := toBinary64 (toBinary64 (n / 10 ^ 7) * toBinary64 (k / 10 ^ 12))

/-- `f` units divided by the rate. -/
def feeValue (f k : Nat) : ℚ := toBinary64 (toBinary64 (f / 10 ^ 7) / toBinary64 (k / 10 ^ 12))

theorem moderate_units (hn : 0 < n) (hmax : n ≤ 10 ^ 27) : Moderate ((n : ℚ) / 10 ^ 7) := by
  have hone : (1 : ℚ) ≤ n := by exact_mod_cast hn
  have hle : (n : ℚ) ≤ 10 ^ 27 := by exact_mod_cast hmax
  constructor
  · rw [le_div_iff₀ (by norm_num)]
    exact le_trans (by norm_num) hone
  · rw [div_le_iff₀ (by norm_num)]
    exact hle.trans (by norm_num)

theorem moderate_rate (hk : 0 < k) (hlt : k < 10 ^ 24) : Moderate ((k : ℚ) / 10 ^ 12) := by
  have hone : (1 : ℚ) ≤ k := by exact_mod_cast hk
  have hle : (k : ℚ) ≤ 10 ^ 24 := by exact_mod_cast hlt.le
  constructor
  · rw [le_div_iff₀ (by norm_num)]
    exact le_trans (by norm_num) hone
  · rw [div_le_iff₀ (by norm_num)]
    exact hle.trans (by norm_num)

theorem usdcValue_close (hn : 0 < n) (hmax : n ≤ 10 ^ 12) (hk : 0 < k) (hlt : k < 10 ^ 24) :
    Close (usdcValue n k) (((n * k : Nat) : ℚ) / ((10 ^ 12 : Nat) : ℚ) / 10 ^ 7) := by
  have hvalue : (n : ℚ) / 10 ^ 7 * (k / 10 ^ 12)
      = ((n * k : Nat) : ℚ) / ((10 ^ 12 : Nat) : ℚ) / 10 ^ 7 := by
    push_cast
    ring
  rw [← hvalue]
  exact close_mul (moderate_units hn (by omega)) (moderate_rate hk hlt)

theorem feeValue_close (hf : 0 < f) (hmax : f ≤ 10 ^ 27) (hk : 0 < k) (hlt : k < 10 ^ 24) :
    Close (feeValue f k) (((f * 10 ^ 12 : Nat) : ℚ) / k / 10 ^ 7) := by
  have hvalue : (f : ℚ) / 10 ^ 7 / (k / 10 ^ 12) = ((f * 10 ^ 12 : Nat) : ℚ) / k / 10 ^ 7 := by
    have hk' : (k : ℚ) ≠ 0 := by exact_mod_cast hk.ne'
    push_cast
    field_simp
    norm_num
  rw [← hvalue]
  exact close_div (moderate_units hf hmax) (moderate_rate hk hlt)

theorem product_nonneg (n k : Nat) :
    0 ≤ toBinary64 ((n : ℚ) / 10 ^ 7) * toBinary64 ((k : ℚ) / 10 ^ 12) :=
  mul_nonneg (toBinary64_nonneg (by positivity)) (toBinary64_nonneg (by positivity))

theorem usdcValue_nonneg (n k : Nat) : 0 ≤ usdcValue n k :=
  toBinary64_nonneg (product_nonneg n k)

theorem feeValue_nonneg (f k : Nat) : 0 ≤ feeValue f k :=
  toBinary64_nonneg (div_nonneg (toBinary64_nonneg (by positivity))
    (toBinary64_nonneg (by positivity)))

/-- The double of an amount or of a rate is of their size. -/
theorem toBinary64_div_le {a : Nat} {d b : ℚ} (hd : 0 < d) (h : a ≤ b * d) :
    toBinary64 (a / d) ≤ 2 * b + 1 := by
  have hle : a / d ≤ b := (div_le_iff₀ hd).mpr h
  have := toBinary64_le (div_nonneg (Nat.cast_nonneg a) hd.le)
  linarith

theorem div_le_large {a : Nat} {d : ℚ} (hd : 1 ≤ d) (h : a ≤ 10 ^ 27) : (a : ℚ) / d ≤ 10 ^ 40 := by
  have hle : (a : ℚ) ≤ 10 ^ 27 := by exact_mod_cast h
  calc (a : ℚ) / d ≤ a := div_le_self (Nat.cast_nonneg a) hd
    _ ≤ 10 ^ 40 := hle.trans (by norm_num)

/-- The value of `n` units in USDC. -/
theorem toUsdc_units (hrate : RateOf db currency k) (hc : currency ≠ .usdc)
    (hparse : JsNumber.parseFloat text.toList = .ofRat (n / 10 ^ 7)) (hmax : n ≤ 10 ^ 12) :
    toUsdc db text currency = String.ofList (fixedText 7 (printedUnits (usdcValue n k))) := by
  have hn' : (n : ℚ) ≤ 10 ^ 12 := by exact_mod_cast hmax
  have hk' : (k : ℚ) ≤ 10 ^ 24 := by exact_mod_cast hrate.lt.le
  have hamount : toBinary64 (n / 10 ^ 7) ≤ 2 * 10 ^ 5 + 1 :=
    toBinary64_div_le (by norm_num) (hn'.trans (by norm_num))
  have hrate' : toBinary64 (k / 10 ^ 12) ≤ 2 * 10 ^ 12 + 1 :=
    toBinary64_div_le (by norm_num) (hk'.trans (by norm_num))
  have hproduct : toBinary64 (n / 10 ^ 7) * toBinary64 (k / 10 ^ 12) ≤ 10 ^ 20 := by
    calc toBinary64 (n / 10 ^ 7) * toBinary64 (k / 10 ^ 12)
        ≤ (2 * 10 ^ 5 + 1) * (2 * 10 ^ 12 + 1) :=
          mul_le_mul hamount hrate' (toBinary64_nonneg (by positivity)) (by norm_num)
      _ ≤ 10 ^ 20 := by norm_num
  have hnonneg := product_nonneg n k
  -- so `toFixed` prints its digits
  have hlt : usdcValue n k < 10 ^ 21 := by
    have := toBinary64_le hnonneg
    unfold usdcValue
    linarith
  have hn : (n : ℚ) / 10 ^ 7 ≤ 10 ^ 40 := div_le_large (by norm_num) (by omega)
  have hk : (k : ℚ) / 10 ^ 12 ≤ 10 ^ 40 :=
    div_le_large (by norm_num) (by have := hrate.lt; omega)
  unfold toUsdc
  rw [if_neg hc, hparse, hrate.rate, JsNumber.ofRat_of_nonneg (by positivity) hn,
    JsNumber.ofRat_of_nonneg (by positivity) hk, JsNumber.mul,
    JsNumber.ofRat_of_nonneg hnonneg (hproduct.trans (by norm_num))]
  exact congrArg String.ofList (toFixed7_of_nonneg (usdcValue_nonneg n k) hlt)

theorem parseFloat_fixedText (f : Nat) :
    JsNumber.parseFloat (String.ofList (fixedText 7 f)).toList = .ofRat (f / 10 ^ 7) := by
  rw [String.toList_ofList]
  have hpos : Positional (fixedText 7 f) (Nat.toDigits 10 (f / 10 ^ 7))
      (padStart 7 '0' (Nat.toDigits 10 (f % 10 ^ 7))) :=
    ⟨Nat.toDigits_ne_nil, isDigit_toDigits, isDigit_padStart isDigit_toDigits, .inr rfl⟩
  rw [hpos.jsParseFloat]
  refine congrArg JsNumber.ofRat (Option.some.inj (hpos.decimal?.symm.trans ?_))
  exact decimal?_fixedText 7 f (by decide)

/-- The double of a rate is not tiny. -/
theorem toBinary64_rate_ge (hk : 0 < k) (hlt : k < 10 ^ 24) :
    1 / 10 ^ 13 ≤ toBinary64 ((k : ℚ) / 10 ^ 12) := by
  obtain ⟨s, hs, heq⟩ := (moderate_rate hk hlt).near
  have hfactor : 1 / 2 ≤ 1 + s := by
    have hone : (1 : ℚ) / 2 ^ 53 ≤ 1 / 2 := by norm_num
    linarith [(abs_le.mp hs).1]
  have hone : (1 : ℚ) ≤ k := by exact_mod_cast hk
  rw [heq]
  calc (1 : ℚ) / 10 ^ 13 ≤ 1 / 10 ^ 12 * (1 / 2) := by norm_num
    _ ≤ k / 10 ^ 12 * (1 + s) :=
      mul_le_mul (div_le_div_of_nonneg_right hone (by norm_num)) hfactor (by norm_num)
        (by positivity)

theorem feeValue_lt (hf : 0 < f) (hmax : f ≤ 10 ^ 27) (hk : 0 < k) (hlt : k < 10 ^ 24)
    (hsmall : f ≤ 10 ^ 15 * k) : feeValue f k < 10 ^ 21 := by
  obtain ⟨t, ht, heq⟩ := feeValue_close hf hmax hk hlt
  have hk' : (0 : ℚ) < k := by exact_mod_cast hk
  have hsmall' : (f : ℚ) ≤ 10 ^ 15 * k := by exact_mod_cast hsmall
  have hle : ((f * 10 ^ 12 : Nat) : ℚ) / k / 10 ^ 7 ≤ 10 ^ 20 := by
    rw [div_le_iff₀ (by norm_num), div_le_iff₀ hk']
    push_cast
    linarith
  have hone : (1 : ℚ) / 10 ^ 15 ≤ 1 := by norm_num
  obtain ⟨ht₁, ht₂⟩ := abs_le.mp ht
  rw [heq]
  calc ((f * 10 ^ 12 : Nat) : ℚ) / k / 10 ^ 7 * (1 + t) ≤ 10 ^ 20 * 2 :=
        mul_le_mul hle (by linarith) (by linarith) (by norm_num)
    _ < 10 ^ 21 := by norm_num

/-- The fee of `f` units, converted back. -/
theorem feeInCurrency_units (hrate : RateOf db currency k) (hc : currency ≠ .usdc)
    (hk : 0 < k) (hf : 0 < f) (hmax : f ≤ 10 ^ 27) (hsmall : f ≤ 10 ^ 15 * k) :
    feeInCurrency db f currency = if printedUnits (feeValue f k) = 0 then
      .error (.badRequest "Amount must be greater than zero")
      else .ok (printedUnits (feeValue f k) : Nat) := by
  have husdc : toUsdc db (fromUnits f) .usdc = String.ofList (fixedText 7 f) := by
    rw [toUsdc, if_pos rfl, fromUnits_natCast]
  have hrate' := toBinary64_rate_ge hk hrate.lt
  have hpos : 0 < toBinary64 ((k : ℚ) / 10 ^ 12) := lt_of_lt_of_le (by norm_num) hrate'
  have hfee : (f : ℚ) ≤ 10 ^ 27 := by exact_mod_cast hmax
  have hamount : toBinary64 (f / 10 ^ 7) ≤ 2 * 10 ^ 20 + 1 :=
    toBinary64_div_le (by norm_num) (hfee.trans (by norm_num))
  have hnonneg : 0 ≤ toBinary64 ((f : ℚ) / 10 ^ 7) / toBinary64 ((k : ℚ) / 10 ^ 12) :=
    div_nonneg (toBinary64_nonneg (by positivity)) hpos.le
  have hquotient : toBinary64 ((f : ℚ) / 10 ^ 7) / toBinary64 ((k : ℚ) / 10 ^ 12) ≤ 10 ^ 40 := by
    rw [div_le_iff₀ hpos]
    calc toBinary64 ((f : ℚ) / 10 ^ 7) ≤ 2 * 10 ^ 20 + 1 := hamount
      _ ≤ 10 ^ 40 * (1 / 10 ^ 13) := by norm_num
      _ ≤ 10 ^ 40 * toBinary64 ((k : ℚ) / 10 ^ 12) :=
        mul_le_mul_of_nonneg_left hrate' (by norm_num)
  have hf' : (f : ℚ) / 10 ^ 7 ≤ 10 ^ 40 := div_le_large (by norm_num) hmax
  have hk' : (k : ℚ) / 10 ^ 12 ≤ 10 ^ 40 :=
    div_le_large (by norm_num) (by have := hrate.lt; omega)
  unfold feeInCurrency
  rw [if_neg hc]
  dsimp only
  rw [husdc, parseFloat_fixedText, hrate.rate, JsNumber.ofRat_of_nonneg (by positivity) hf',
    JsNumber.ofRat_of_nonneg (by positivity) hk', JsNumber.div, if_neg hpos.ne',
    JsNumber.ofRat_of_nonneg hnonneg hquotient, ← toUnits_fixedText]
  exact congrArg (fun cs => toUnits (String.ofList cs))
    (toFixed7_of_nonneg (feeValue_nonneg f k) (feeValue_lt hf hmax hk hrate.lt hsmall))

end Converted

/-! ## The columns of the `INSERT` -/

section Columns

variable {db : Db} {dto : CreateDto} {m : Merchant} {q : Quote} {usdc : Int} {n k : Nat}

/-- The money columns of a quote are in the range of `NUMERIC(18,7)`. -/
structure ColumnsFit (q : Quote) : Prop where
  amount : Numeric.ofText? (fromUnits q.amount) ≠ none
  gross : Numeric.ofText? (fromUnits q.gross) ≠ none
  fee : Numeric.ofText? (fromUnits q.fee) ≠ none
  net : Numeric.ofText? (fromUnits q.net) ≠ none
  equiv : grossUsdcEquiv? q ≠ none

theorem ofText?_fromUnits_ne_none (u : Nat) :
    Numeric.ofText? (fromUnits u) ≠ none ↔ u < 10 ^ 18 := by
  rw [Numeric.ofText?_fromUnits_natCast, Numeric.ofUnits?]
  split
  · next h => exact iff_of_true (Option.some_ne_none _) (by simpa using h)
  · next h => exact iff_of_false (fun hne => hne rfl) (by simpa using h)

/-- The columns of an amount in range, for every merchant of the two tiers with fixed terms. -/
def ColumnsInRange (db : Db) (dto : CreateDto) : Prop :=
  ∀ m q usdc, m.tier ≠ .enterprise → priceFor db m dto = .ok (q, usdc) → ColumnsFit q

/-- The parsed amount is positive and at most 100000. -/
def UnitsInRange (dto : CreateDto) : Prop :=
  ∃ u, toUnits dto.amount = .ok u ∧ 0 < u ∧ u ≤ 100000 * SCALE

/-- A rate at which the value of the amount, and its fee converted back, fit into the columns. At
a tiny one the fee does not, unless the value rounds to zero and is refused. At any other the value
is below `10¹¹`: the doubles of the amount and of the rate multiply to less than the middle between
this and the double before. -/
def RateFits (n k : Nat) : Prop :=
  if k < 3 then n * k ≤ 5 * 10 ^ 11
  else toBinary64 (n / 10 ^ 7) * toBinary64 (k / 10 ^ 12) < 10 ^ 11 - 1 / 2 ^ 17

/-- The units of the value are in range with the product of the doubles. -/
theorem usdcUnits_lt_iff : printedUnits (usdcValue n k) < 10 ^ 18 ↔
    toBinary64 (n / 10 ^ 7) * toBinary64 (k / 10 ^ 12) < 10 ^ 11 - 1 / 2 ^ 17 := by
  have hnonneg := product_nonneg n k
  obtain ⟨hlow, hhigh⟩ := printedUnits_bounds (usdcValue_nonneg n k)
  -- `10¹¹`, by its last place
  have hten : ((6553600000000000 : Nat) : ℚ) * 2 ^ (-16 : Int) = 10 ^ 11 := by norm_num
  have hmiddle : (((6553600000000000 : Nat) : ℚ) - 1 / 2) * 2 ^ (-16 : Int)
      = 10 ^ 11 - 1 / 2 ^ 17 := by norm_num
  constructor
  · intro hlt
    rw [← hmiddle, ← toBinary64_lt_iff (by decide) (by decide) (by decide) (by decide) hnonneg,
      hten]
    by_contra hge
    have hunits : ((10 ^ 18 : Nat) : ℚ) < (printedUnits (usdcValue n k) + 1 : Nat) := by
      have hge : 10 ^ 11 ≤ usdcValue n k := not_lt.mp hge
      push_cast
      linarith
    have : 10 ^ 18 < printedUnits (usdcValue n k) + 1 := by exact_mod_cast hunits
    omega
  · intro hlt
    rw [← hmiddle] at hlt
    have hpred : usdcValue n k ≤ (((6553600000000000 : Nat) : ℚ) - 1) * 2 ^ (-16 : Int) :=
      toBinary64_le_pred (by decide) (by decide) (by decide) hnonneg hlt
    have hunits : (printedUnits (usdcValue n k) : ℚ) < 10 ^ 18 := by
      norm_num at hpred
      linarith
    exact_mod_cast hunits

/-- The value rounds to zero at a tiny rate. -/
theorem usdcUnits_eq_zero_iff (hn : 0 < n) (hmax : n ≤ 10 ^ 12) (hk : k < 3) :
    printedUnits (usdcValue n k) = 0 ↔ n * k ≤ 5 * 10 ^ 11 := by
  rcases Nat.eq_zero_or_pos k with rfl | hpos
  · have hzero : usdcValue n 0 = 0 := by simp [usdcValue]
    rw [hzero]
    exact iff_of_true (by decide +kernel) (by omega)
  obtain ⟨hlow, hhigh⟩ := (usdcValue_close hn hmax hpos (by omega)).printedUnits (by decide)
  by_cases hmiddle : n * k = 5 * 10 ^ 11
  · -- the double of the rate is below it
    rw [hmiddle]
    refine iff_of_true ?_ le_rfl
    obtain rfl | rfl : k = 1 ∨ k = 2 := by omega
    · obtain rfl : n = 500000000000 := by omega
      decide +kernel
    · obtain rfl : n = 250000000000 := by omega
      decide +kernel
  · -- elsewhere the three roundings do not reach the middle
    generalize printedUnits (usdcValue n k) = e at *
    generalize n * k = nk at *
    omega

/-- The terms of the two tiers. -/
theorem fixed_terms (hm : m.tier ≠ .enterprise) {fixed : Int} (h : fixedFeeUnits m = .ok fixed) :
    ∃ rate fixed' : Nat, feeRate m = rate ∧ fixed = fixed' ∧ rate ≤ 50 ∧ 0 < fixed' ∧
      fixed' ≤ 2500000 := by
  have htenth : toUnits "0.10" = .ok 1000000 := by decide +kernel
  have hquarter : toUnits "0.25" = .ok 2500000 := by decide +kernel
  unfold fixedFeeUnits at h
  unfold feeRate
  cases htier : m.tier with
  | pro =>
    rw [htier] at h
    cases htenth.symm.trans h
    exact ⟨30, 1000000, rfl, rfl, by decide, by decide, by decide⟩
  | enterprise => exact absurd htier hm
  | standard =>
    rw [htier] at h
    cases hquarter.symm.trans h
    exact ⟨50, 2500000, rfl, rfl, by decide, by decide, by decide⟩

/-- A request for `n` units, at the rate of its currency. -/
structure UnitsRequest (db : Db) (dto : CreateDto) (n k : Nat) : Prop where
  units : toUnits dto.amount = .ok n
  parse : JsNumber.parseFloat dto.amount.toList = .ofRat (n / 10 ^ 7)
  pos : 0 < n
  le : n ≤ 10 ^ 12
  rate : RateOf db dto.currency k

/-- The units of the value in USDC. -/
def equivUnits (currency : Currency) (n k : Nat) : Nat :=
  if currency = .usdc then n else printedUnits (usdcValue n k)

theorem UnitsRequest.toUnits_toUsdc (h : UnitsRequest db dto n k) :
    toUnits (toUsdc db dto.amount dto.currency) = if equivUnits dto.currency n k = 0 then
      .error (.badRequest "Amount must be greater than zero")
      else .ok (equivUnits dto.currency n k : Nat) := by
  have hpos := h.pos
  by_cases hc : dto.currency = .usdc
  · rw [toUsdc, if_pos hc, h.units, equivUnits, if_pos hc, if_neg (by omega)]
  · rw [toUsdc_units h.rate hc h.parse h.le, toUnits_fixedText, equivUnits, if_neg hc]

/-- The bounds behind a value that fits: the fee, and the fee converted back. -/
theorem fits_bounds {rate fixed e f : Nat} (hn : 0 < n) (hmax : n ≤ 10 ^ 12) (hk : 3 ≤ k)
    (hlt : k < 10 ^ 24) (hrate : rate ≤ 50) (hpos : 0 < fixed) (hfixed : fixed ≤ 2500000)
    (he : e = printedUnits (usdcValue n k)) (hfit : e < 10 ^ 18)
    (hf : f = e * rate / 10000 + fixed) :
    0 < f ∧ f < 10 ^ 16 ∧ f ≤ 10 ^ 15 * k ∧ n + printedUnits (feeValue f k) < 10 ^ 18 := by
  obtain ⟨hlow, -⟩ := (usdcValue_close hn hmax (by omega) hlt).printedUnits (by decide)
  rw [← he] at hlow
  have hproduct : n * k ≤ 10 ^ 12 * k := Nat.mul_le_mul_right k hmax
  have hle : e * rate ≤ e * 50 := Nat.mul_le_mul_left e hrate
  have hfee : 0 < f ∧ f < 10 ^ 16 ∧ f ≤ 10 ^ 15 * k := by
    generalize n * k = nk at *
    generalize e * rate = er at *
    omega
  obtain ⟨hf₀, hf₁, hf₂⟩ := hfee
  refine ⟨hf₀, hf₁, hf₂, ?_⟩
  obtain ⟨hback, -⟩ := (feeValue_close hf₀ (by omega) (by omega) hlt).printedUnits (by omega)
  have hsum : (n + printedUnits (feeValue f k)) * k < 10 ^ 18 * k := by
    rw [Nat.add_mul]
    generalize printedUnits (feeValue f k) * k = gk at *
    generalize n * k = nk at *
    generalize e * rate = er at *
    omega
  exact Nat.lt_of_mul_lt_mul_right hsum

theorem grossUsdcEquiv?_ne_none {x : Nat} (h : dto.currency ≠ .usdc) (hq : q.dto = dto)
    (hstr : q.usdcEquivStr = String.ofList (fixedText 7 x)) :
    grossUsdcEquiv? q ≠ none ↔ x < 10 ^ 18 := by
  rw [grossUsdcEquiv?, hq, if_neg h, hstr, ← fromUnits_natCast]
  exact ofText?_fromUnits_ne_none x

/-- **The columns fit at a rate that fits.** -/
theorem UnitsRequest.columnsInRange (h : UnitsRequest db dto n k) (hfits : RateFits n k) :
    ColumnsInRange db dto := by
  intro m q usdc hm hprice
  obtain ⟨-, husdc, -, amount, fixed, feeIn, hamount, hfixed, hfeeIn, hnet, rfl⟩ :=
    priceFor_ok_iff.mp hprice
  obtain ⟨rate, fixed, hrate, rfl, hrate50, hfixed₀, hfixed25⟩ := fixed_terms hm hfixed
  cases h.units.symm.trans hamount
  rw [h.toUnits_toUsdc] at husdc
  split_ifs at husdc with hzero
  cases husdc
  obtain ⟨e, he⟩ : ∃ e, e = equivUnits dto.currency n k := ⟨_, rfl⟩
  rw [← he] at hzero hfeeIn ⊢
  have hfee : ((e : Int) * feeRate m).tdiv 10000 + fixed
      = ((e * rate / 10000 + fixed : Nat) : Int) := by
    rw [hrate, ← Nat.cast_mul]
    rfl
  rw [hfee] at hfeeIn ⊢
  obtain ⟨f, hf⟩ : ∃ f, f = e * rate / 10000 + fixed := ⟨_, rfl⟩
  rw [← hf] at hfeeIn ⊢
  have hn := h.le
  obtain ⟨net, hnet⟩ : ∃ net : Nat, (n : Int) - fixed = net := Int.eq_ofNat_of_zero_le hnet
  have hnetle : net < 10 ^ 18 := by omega
  rw [hnet]
  by_cases hc : dto.currency = .usdc
  · rw [feeInCurrency, if_pos hc] at hfeeIn
    cases hfeeIn
    rw [equivUnits, if_pos hc] at he
    have hle : e * rate ≤ e * 50 := Nat.mul_le_mul_left e hrate50
    have hsum : (n : Int) + f = ((n + f : Nat) : Int) := rfl
    rw [hsum]
    have hgrossfit := (ofText?_fromUnits_ne_none (n + f)).mpr (by omega)
    refine ⟨(ofText?_fromUnits_ne_none n).mpr (by omega), hgrossfit,
      (ofText?_fromUnits_ne_none f).mpr (by omega), (ofText?_fromUnits_ne_none net).mpr hnetle, ?_⟩
    unfold grossUsdcEquiv?
    rwa [if_pos hc]
  · rw [equivUnits, if_neg hc] at he
    -- at a tiny rate the amount has been refused
    have hk : 3 ≤ k := by
      by_contra htiny
      rw [RateFits, if_pos (not_le.mp htiny)] at hfits
      exact hzero (he.trans ((usdcUnits_eq_zero_iff h.pos hn (not_le.mp htiny)).mpr hfits))
    rw [RateFits, if_neg (not_lt.mpr hk), ← usdcUnits_lt_iff, ← he] at hfits
    obtain ⟨hf₀, hfvalue, hsmall, hgross⟩ :=
      fits_bounds h.pos hn hk h.rate.lt hrate50 hfixed₀ hfixed25 he hfits hf
    rw [feeInCurrency_units h.rate hc (by omega) hf₀ (by omega) hsmall] at hfeeIn
    split_ifs at hfeeIn with hnone
    cases hfeeIn
    have hsum : (n : Int) + (printedUnits (feeValue f k) : Nat)
        = ((n + printedUnits (feeValue f k) : Nat) : Int) := rfl
    rw [hsum]
    exact ⟨(ofText?_fromUnits_ne_none n).mpr (by omega),
      (ofText?_fromUnits_ne_none _).mpr hgross, (ofText?_fromUnits_ne_none f).mpr (by omega),
      (ofText?_fromUnits_ne_none net).mpr hnetle,
      (grossUsdcEquiv?_ne_none hc rfl (toUsdc_units h.rate hc h.parse h.le)).mpr (he ▸ hfits)⟩

/-- A merchant of a tier, without bounds. -/
def plainMerchant (tier : Tier) : Merchant := { testMerchant with tier }

/-- The price of a converted amount for such a merchant. -/
theorem UnitsRequest.plain_price {tier : Tier} {rate fixed e f : Nat}
    (h : UnitsRequest db dto n k) (hc : dto.currency ≠ .usdc) (hk : 0 < k)
    (hrate : feeRate (plainMerchant tier) = rate)
    (hfixed : fixedFeeUnits (plainMerchant tier) = .ok fixed) (hnet : fixed ≤ n)
    (he : e = printedUnits (usdcValue n k)) (he₀ : e ≠ 0)
    (hf : f = e * rate / 10000 + fixed) (hf₀ : 0 < f) (hmax : f ≤ 10 ^ 27)
    (hsmall : f ≤ 10 ^ 15 * k) (hg₀ : printedUnits (feeValue f k) ≠ 0) :
    ∃ q, priceFor db (plainMerchant tier) dto = .ok (q, (e : Int)) ∧
      q.gross = ((n + printedUnits (feeValue f k) : Nat) : Int) ∧ q.dto = dto ∧
      q.usdcEquivStr = String.ofList (fixedText 7 e) := by
  have husdc := h.toUnits_toUsdc
  rw [equivUnits, if_neg hc, ← he, if_neg he₀] at husdc
  have hfee : ((e : Int) * feeRate (plainMerchant tier)).tdiv 10000 + fixed = (f : Int) := by
    rw [hrate, ← Nat.cast_mul, hf]
    rfl
  have hfeeIn := feeInCurrency_units h.rate hc hk hf₀ hmax hsmall
  rw [if_neg hg₀] at hfeeIn
  refine ⟨_, priceFor_ok_iff.mpr ⟨rfl, husdc, rfl, n, fixed, printedUnits (feeValue f k), h.units,
    hfixed, ?_, by omega, rfl⟩, rfl, rfl, ?_⟩
  · rw [hfee]
    exact hfeeIn
  · rw [he]
    exact toUsdc_units h.rate hc h.parse h.le

/-- At a tiny rate the standard fee, converted back, is too large for its column. -/
theorem UnitsRequest.le_of_tiny (h : UnitsRequest db dto n k) (hcols : ColumnsInRange db dto)
    (hc : dto.currency ≠ .usdc) (htiny : k < 3) : n * k ≤ 5 * 10 ^ 11 := by
  by_contra hvalue
  have hn := h.le
  have hlt := h.rate.lt
  have hk : 0 < k := by
    by_contra hzero
    obtain rfl : k = 0 := by omega
    omega
  have hstandard : fixedFeeUnits (plainMerchant .standard) = .ok ((2500000 : Nat) : Int) := by
    decide +kernel
  have hnk : n * k ≤ n * 2 := Nat.mul_le_mul_left n (by omega)
  -- the value is one or two units, and the fixed fee stands for at least `10¹¹` of the currency
  have he₀ : printedUnits (usdcValue n k) ≠ 0 :=
    mt (usdcUnits_eq_zero_iff h.pos hn htiny).mp hvalue
  obtain ⟨e, he⟩ : ∃ e, e = printedUnits (usdcValue n k) := ⟨_, rfl⟩
  have hebound : e ≤ 2 := by
    obtain ⟨hlow, -⟩ := (usdcValue_close h.pos hn hk hlt).printedUnits (by decide)
    rw [← he] at hlow
    generalize n * k = nk at *
    omega
  have hgbound : 10 ^ 18 ≤ printedUnits (feeValue 2500000 k) := by
    obtain ⟨-, hhigh⟩ := (feeValue_close (f := 2500000) (by decide) (by decide) hk hlt).printedUnits
      hk
    have hle : printedUnits (feeValue 2500000 k) * k ≤ printedUnits (feeValue 2500000 k) * 2 :=
      Nat.mul_le_mul_left _ (by omega)
    generalize printedUnits (feeValue 2500000 k) * k = gk at *
    omega
  have hf : 2500000 = e * 50 / 10000 + 2500000 := by omega
  obtain ⟨q, hprice, hgross, -⟩ := h.plain_price hc hk rfl hstandard (by omega) he (he ▸ he₀) hf
    (by decide) (by decide) (by omega) (by omega)
  have hfit := (hcols _ _ _ (by decide) hprice).gross
  rw [hgross, ofText?_fromUnits_ne_none] at hfit
  omega

/-- At any other rate a large value is too large for its column, already in the pro tier. -/
theorem UnitsRequest.lt_of_columnsInRange (h : UnitsRequest db dto n k)
    (hcols : ColumnsInRange db dto) (hc : dto.currency ≠ .usdc) (hk : 3 ≤ k) :
    printedUnits (usdcValue n k) < 10 ^ 18 := by
  by_contra hlarge
  have hn := h.le
  have hlt := h.rate.lt
  have hpro : fixedFeeUnits (plainMerchant .pro) = .ok ((1000000 : Nat) : Int) := by
    decide +kernel
  obtain ⟨e, he⟩ : ∃ e, e = printedUnits (usdcValue n k) := ⟨_, rfl⟩
  obtain ⟨f, hf⟩ : ∃ f, f = e * 30 / 10000 + 1000000 := ⟨_, rfl⟩
  rw [← he, not_lt] at hlarge
  obtain ⟨hlow, hhigh⟩ := (usdcValue_close h.pos hn (by omega) hlt).printedUnits (by decide)
  rw [← he] at hlow hhigh
  have hproduct : n * k ≤ 10 ^ 12 * k := Nat.mul_le_mul_right k hn
  -- otherwise the net amount is negative and the request is refused
  have hnpos : 1000000 ≤ n := by
    by_contra hsmall
    have hle : n * k ≤ 999999 * k := Nat.mul_le_mul_right k (by omega)
    generalize n * k = nk at *
    omega
  have hfee : 0 < f ∧ f ≤ 10 ^ 27 ∧ f ≤ 10 ^ 15 * k ∧ k ≤ f * 10 ^ 12 := by
    generalize n * k = nk at *
    omega
  obtain ⟨hf₀, hmax, hsmall, hge⟩ := hfee
  have hgbound : printedUnits (feeValue f k) ≠ 0 := by
    obtain ⟨-, hback⟩ := (feeValue_close hf₀ hmax (by omega) hlt).printedUnits (by omega)
    intro hzero
    rw [hzero] at hback
    omega
  obtain ⟨q, hprice, -, hdto, hstr⟩ := h.plain_price hc (by omega) rfl hpro hnpos he (by omega) hf
    hf₀ hmax hsmall hgbound
  have hfit := (hcols _ _ _ (by decide) hprice).equiv
  rw [grossUsdcEquiv?_ne_none hc hdto hstr] at hfit
  omega

/-- The rate of USDC is one. -/
theorem RateOf.eq_of_usdc (h : RateOf db .usdc k) : k = 10 ^ 12 := by
  have hrate := h.rate
  rw [getRate, if_pos rfl] at hrate
  have hlt := h.lt
  have hk : 0 < k := by
    by_contra hzero
    obtain rfl : k = 0 := by omega
    exact absurd hrate (by decide +kernel)
  rw [JsNumber.ofRat_of_nonneg (by positivity) (div_le_large (by norm_num) (by omega))] at hrate
  have hone := JsNumber.finite.inj hrate
  obtain ⟨t, ht, heq⟩ := (moderate_rate hk hlt).close
  rw [heq, div_mul_eq_mul_div, eq_div_iff (by norm_num), one_mul] at hone
  obtain ⟨ht₁, ht₂⟩ := abs_le.mp ht
  have hk' : (1 : ℚ) ≤ k := by exact_mod_cast hk
  have hhigh : ((k : Nat) : ℚ) < ((10 ^ 12 + 1 : Nat) : ℚ) := by
    push_cast
    nlinarith
  have hlow : ((10 ^ 12 : Nat) : ℚ) < ((k + 1 : Nat) : ℚ) := by
    push_cast
    nlinarith
  have h₁ : k < 10 ^ 12 + 1 := by exact_mod_cast hhigh
  have h₂ : 10 ^ 12 < k + 1 := by exact_mod_cast hlow
  omega

theorem rateFits_usdc (hn : n ≤ 10 ^ 12) : RateFits n (10 ^ 12) := by
  have hn' : (n : ℚ) ≤ 10 ^ 5 * 10 ^ 7 := by exact_mod_cast hn
  have hamount : toBinary64 (n / 10 ^ 7) ≤ 2 * 10 ^ 5 + 1 := toBinary64_div_le (by norm_num) hn'
  have hone : toBinary64 (((10 ^ 12 : Nat) : ℚ) / 10 ^ 12) = 1 := by
    have hcast : ((10 ^ 12 : Nat) : ℚ) / 10 ^ 12 = (1 : Nat) := by norm_num
    rw [hcast, toBinary64_natCast (by norm_num), Nat.cast_one]
  rw [RateFits, if_neg (by decide), hone, mul_one]
  exact lt_of_le_of_lt hamount (by norm_num)

/-- **Where the columns fit, the rate does**: at a tiny one the standard fee, converted back, is
too large, and at a large one the value for the pro tier. -/
theorem UnitsRequest.rateFits (h : UnitsRequest db dto n k) (hcols : ColumnsInRange db dto) :
    RateFits n k := by
  by_cases hc : dto.currency = .usdc
  · have hrate := h.rate
    rw [hc] at hrate
    rw [hrate.eq_of_usdc]
    exact rateFits_usdc h.le
  · unfold RateFits
    split_ifs with htiny
    · exact h.le_of_tiny hcols hc htiny
    · exact usdcUnits_lt_iff.mp (h.lt_of_columnsInRange hcols hc (not_lt.mp htiny))

/-- 100000 at the rate 999999.999999999999, whose double is a million. -/
example : ¬RateFits (10 ^ 12) 999999999999999999 := by
  rw [RateFits, if_neg (by decide)]
  decide +kernel

end Columns

/-! ## Every accepted spelling -/

section Spellings

variable {db : Db} {input : CreateInput} {dto : CreateDto} {a : AmountInput} {n k : Nat}

/-- An amount that is read has the value that `parseFloat` finds, too. -/
theorem parseFloat_of_spelled {text : String} (h : parseAmount a = .ok text) (hn : Denotes a n)
    (hpos : 0 < n) (hspelled : Spelled a n) :
    JsNumber.parseFloat text.toList = .ofRat (n / 10 ^ 7) := by
  cases a with
  | number digits scale =>
    rw [parseAmount_number hn hpos] at h
    split_ifs at h with hmax
    cases h
    have hmul := mul_pow_eq hn
    have hspelled : 10 ≤ n := hspelled
    have hge : 10 * 10 ^ scale ≤ n * 10 ^ scale := Nat.mul_le_mul_right _ hspelled
    have hle : n * 10 ^ scale ≤ 10 ^ 12 * 10 ^ scale := Nat.mul_le_mul_right _ hmax
    have hpow : 0 < 10 ^ scale := by positivity
    obtain ⟨whole, frac, hpositional, hvalue, -⟩ :=
      positional_numberText (m := digits) (s := scale) (by omega) (by omega)
    rw [String.toList_ofList, hpositional.jsParseFloat, hvalue]
    exact congrArg JsNumber.ofRat hn
  | text s =>
    unfold parseAmount at h
    dsimp only at h
    split_ifs at h with hs
    cases h
    obtain ⟨whole, frac, hpositional, -⟩ := positional_of_isAmountText hs
    rw [hpositional.jsParseFloat]
    exact congrArg JsNumber.ofRat (Option.some.inj (hpositional.decimal?.symm.trans hn))
  | other => cases hn

theorem amounts_in_range_iff (hdto : parseCreate input = .ok dto)
    (ha : input.amount.or input.amountUsdc = some a) (hn : Denotes a n) (hpos : 0 < n)
    (hrate : RateOf db dto.currency k) :
    UnitsInRange dto ∧ ColumnsInRange db dto ↔ Spelled a n ∧ RateFits n k := by
  have hparse := parseAmount_of_parseCreate hdto ha
  have hrequest : Spelled a n → UnitsRequest db dto n k := by
    intro hspelled
    rcases toUnits_of_parseAmount hparse hn hpos with ⟨hunits, hiff⟩ | ⟨-, hnot⟩
    · exact ⟨hunits, parseFloat_of_spelled hparse hn hpos hspelled, hpos, hiff.mpr hspelled, hrate⟩
    · exact absurd hspelled hnot
  constructor
  · rintro ⟨⟨u, hu, -, hmax⟩, hcols⟩
    have hspelled : Spelled a n := by
      rcases toUnits_of_parseAmount hparse hn hpos with ⟨hunits, hiff⟩ | ⟨herror, -⟩
      · cases hunits.symm.trans hu
        unfold SCALE at hmax
        exact hiff.mp (by omega)
      · rw [herror] at hu
        cases hu
    exact ⟨hspelled, (hrequest hspelled).rateFits hcols⟩
  · rintro ⟨hspelled, hfits⟩
    have hreq := hrequest hspelled
    have hle := hreq.le
    refine ⟨⟨n, hreq.units, by omega, ?_⟩, hreq.columnsInRange hfits⟩
    unfold SCALE
    omega

/-- **Bounds depend on the spelling.** The units of an accepted amount, and the columns of its
`INSERT`, are in range exactly if a number has at least ten units and a text at most 100000, and
the rate of the currency fits. A number and a text of one amount are accepted alike exactly
between these. -/
theorem bounds_by_spelling (n : Nat) (hpos : 0 < n) :
    (∀ (db : Db) (input : CreateInput) (dto : CreateDto) (a : AmountInput) (k : Nat),
      parseCreate input = .ok dto → input.amount.or input.amountUsdc = some a → Denotes a n →
      RateOf db dto.currency k →
        (UnitsInRange dto ∧ ColumnsInRange db dto ↔ Spelled a n ∧ RateFits n k)) ∧
    ∀ (s : String) (digits scale : Nat), isAmountText s.toList = true → Denotes (.text s) n →
      Denotes (.number digits scale) n →
        ((AmountAccepted (.text s) ↔ AmountAccepted (.number digits scale)) ↔
          10 ≤ n ∧ n ≤ 10 ^ 12) :=
  ⟨fun _ _ _ _ _ hdto ha hdenotes hrate => amounts_in_range_iff hdto ha hdenotes hpos hrate,
    fun _ _ _ hs htext hnumber => accepted_alike_iff hs htext hnumber hpos⟩

theorem bounds_by_spelling_ten :
    (UnitsInRange ⟨"10", .usdc, none, 60, false⟩ ∧
      ColumnsInRange testDb ⟨"10", .usdc, none, 60, false⟩) ∧
    (AmountAccepted (.text "10") ↔ AmountAccepted (.number 10 0)) := by
  have htext : Denotes (.text "10") 100000000 := by
    show decimal? "10".toList = _
    decide +kernel
  have hnumber : Denotes (.number 10 0) 100000000 := by
    show ((10 : Nat) : ℚ) / 10 ^ 0 = (100000000 : Nat) / 10 ^ 7
    norm_num
  have hdto : parseCreate tenUsdc = .ok ⟨"10", .usdc, none, 60, false⟩ := by decide +kernel
  have hrate : RateOf testDb .usdc (10 ^ 12) := ⟨by decide +kernel, by decide⟩
  have hfits : RateFits 100000000 (10 ^ 12) := rateFits_usdc (by decide)
  have hspelled : Spelled (.text "10") 100000000 := by
    show 100000000 ≤ 10 ^ 12
    decide
  obtain ⟨hrange, halike⟩ := bounds_by_spelling 100000000 (by decide)
  exact ⟨(hrange testDb tenUsdc _ _ (10 ^ 12) hdto rfl htext hrate).mpr ⟨hspelled, hfits⟩,
    (halike "10" 10 0 (by decide +kernel) htext hnumber).mpr ⟨by decide, by decide⟩⟩

/-- `{ amount_usdc: '100001' }`. -/
def aboveMaximum : CreateInput where
  amountUsdc := some (.text "100001")

/-- `{ amount_usdc: 0.0000001 }`. -/
def oneUnit : CreateInput where
  amountUsdc := some (.number 1 7)

/-- **Two amounts out of bounds**: a text has no maximum, and a number below `10⁻⁶` is a
`SyntaxError`. -/
theorem spellings_out_of_bounds :
    parseCreate aboveMaximum = .ok ⟨"100001", .usdc, none, 60, false⟩ ∧
    ¬UnitsInRange ⟨"100001", .usdc, none, 60, false⟩ ∧
    parseAmount (.number 100001 0) = .error .zodError ∧
    parseCreate oneUnit = .ok ⟨"1e-7", .usdc, none, 60, false⟩ ∧
    toUnits "1e-7" = .error .syntaxError ∧ ¬UnitsInRange ⟨"1e-7", .usdc, none, 60, false⟩ := by
  have habove : toUnits "100001" = .ok 1000010000000 := by decide +kernel
  have hone : toUnits "1e-7" = .error .syntaxError := by decide +kernel
  refine ⟨by decide +kernel, ?_, by decide +kernel, by decide +kernel, hone, ?_⟩
  · rintro ⟨u, hu, -, hmax⟩
    cases habove.symm.trans hu
    exact absurd hmax (by decide)
  · rintro ⟨u, hu, -⟩
    cases hone.symm.trans hu

end Spellings

end Stargate.Invoices
