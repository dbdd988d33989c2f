import Stargate.Base.EcmaScript
import Stargate.Schema

/-!
# Money in the API (`toUnits`, `fromUnits`)

The API computes with `BigInt` units of `10⁻⁷` and exchanges decimal text with
the database: `toUnits` reads text, `fromUnits` writes it.

For amounts that the API itself wrote, the two agree with the database's own
reading of the text: `toUnits_fixedText`, `ofText?_fromUnits`.
-/

namespace Stargate

open Base

/-- The errors that the API's services throw. -/
inductive ApiError where
  | badRequest (message : String)
  | notFound (message : String)
  | conflict (message : String)
  /-- `BigInt(text)` on text that is not an integer. -/
  | syntaxError
  /-- The request body does not match its schema. -/
  | zodError
  /-- A statement that the database rejects. -/
  | database
  /-- An error that a library throws. -/
  | library
  deriving DecidableEq, Repr

/-- A computation that succeeds has succeeded at each of its steps. -/
theorem bind_eq_ok {ε α β : Type} {x : Except ε α} {f : α → Except ε β} {b : β} :
    (x >>= f) = .ok b ↔ ∃ a, x = .ok a ∧ f a = .ok b := by
  cases x <;> simp [bind, Except.bind]

namespace Invoices

/-- `SCALE`. -/
def SCALE : Int := 10000000

/-- `toUnits(amount)`. -/
def toUnits (amount : String) : Except ApiError Int :=
  let whole := before '.' amount.toList
  let fraction := before '.' (after '.' amount.toList)
  match bigInt whole, bigInt ((fraction ++ List.replicate 7 '0').take 7) with
  | some w, some f =>
    let units := w * SCALE + f
    if units ≤ 0 then .error (.badRequest "Amount must be greater than zero") else .ok units
  | _, _ => .error .syntaxError

/-- `n.toString()` of a `BigInt`. -/
def bigIntText (n : Int) : List Char :=
  if n < 0 then '-' :: Nat.toDigits 10 n.natAbs else Nat.toDigits 10 n.natAbs

/-- `fromUnits(units)`. `BigInt` division truncates towards zero. -/
def fromUnits (units : Int) : String :=
  let whole := units.tdiv SCALE
  let fraction := padStart 7 '0' (bigIntText (units.tmod SCALE))
  String.ofList (bigIntText whole ++ '.' :: fraction)

/-- `/^\d+(\.\d{1,7})?$/`. -/
def isAmountText (cs : List Char) : Bool :=
  let (whole, rest) := spanDigits cs
  whole ≠ [] && match rest with
    | [] => true
    | '.' :: frac => frac.all Char.isDigit && decide (1 ≤ frac.length ∧ frac.length ≤ 7)
    | _ => false

/-- The parts of an amount. -/
theorem isAmountText_cases {cs : List Char} (h : isAmountText cs = true) :
    ∃ whole frac, whole ≠ [] ∧ (∀ c ∈ whole, c.isDigit = true) ∧
      (∀ c ∈ frac, c.isDigit = true) ∧ frac.length ≤ 7 ∧
      (cs = whole ∧ frac = [] ∨ cs = whole ++ '.' :: frac) := by
  have hsplit : cs.takeWhile Char.isDigit ++ cs.dropWhile Char.isDigit = cs :=
    List.takeWhile_append_dropWhile
  have hdigit : ∀ c ∈ cs.takeWhile Char.isDigit, c.isDigit = true :=
    fun c hc => List.mem_takeWhile_imp hc
  simp only [isAmountText, spanDigits, Bool.and_eq_true] at h
  obtain ⟨hne, h⟩ := h
  have hne := of_decide_eq_true hne
  split at h
  · next hrest =>
    rw [hrest, List.append_nil] at hsplit
    exact ⟨cs.takeWhile Char.isDigit, [], hne, hdigit, nofun, Nat.zero_le 7,
      .inl ⟨hsplit.symm, rfl⟩⟩
  · next frac hrest =>
    simp only [Bool.and_eq_true, decide_eq_true_eq, List.all_eq_true] at h
    exact ⟨cs.takeWhile Char.isDigit, frac, hne, hdigit, h.1, h.2.2, .inr (by rw [← hrest, hsplit])⟩
  · cases h

/-- The units of an amount with at most seven fraction digits. -/
theorem toUnits_of_parts {cs whole frac : List Char} {n : Nat} (hne : whole ≠ [])
    (hw : ∀ c ∈ whole, c.isDigit = true) (hf : ∀ c ∈ frac, c.isDigit = true)
    (hlen : frac.length ≤ 7) (hbefore : before '.' cs = whole) (hafter : after '.' cs = frac)
    (hn : n = Nat.ofDigitChars 10 (whole ++ frac) 0 * 10 ^ (7 - frac.length)) :
    toUnits (String.ofList cs)
      = if n = 0 then .error (.badRequest "Amount must be greater than zero") else .ok n := by
  have hfdot : '.' ∉ frac := not_mem_of_isDigit rfl hf
  have htake : (frac ++ List.replicate 7 '0').take 7
      = frac ++ List.replicate (7 - frac.length) '0' := by
    rw [List.take_append, List.take_of_length_le hlen, List.take_replicate,
      Nat.min_eq_left (Nat.sub_le _ _)]
  have hpad : ∀ c ∈ frac ++ List.replicate (7 - frac.length) '0', c.isDigit = true := by
    intro c hc
    rcases List.mem_append.mp hc with hc | hc
    · exact hf c hc
    · rw [List.eq_of_mem_replicate hc]
      rfl
  have hpadne : frac ++ List.replicate (7 - frac.length) '0' ≠ [] := by
    rw [← List.length_pos_iff, List.length_append, List.length_replicate]
    omega
  have hshift : Nat.ofDigitChars 10 frac (Nat.ofDigitChars 10 whole 0)
      = 10 ^ frac.length * Nat.ofDigitChars 10 whole 0 + Nat.ofDigitChars 10 frac 0 :=
    Nat.ofDigitChars_eq_ofDigitChars_zero
  have hscale : SCALE = 10 ^ frac.length * 10 ^ (7 - frac.length) := by
    rw [← pow_add, Nat.add_sub_cancel' hlen]
    rfl
  have hsum : ((Nat.ofDigitChars 10 whole 0 : Nat) : Int) * SCALE
      + ((Nat.ofDigitChars 10 (frac ++ List.replicate (7 - frac.length) '0') 0 : Nat) : Int)
      = n := by
    rw [hn, Nat.ofDigitChars_append, Nat.ofDigitChars_append, Nat.ofDigitChars_replicate_zero,
      hshift, hscale]
    push_cast
    ring
  simp only [toUnits, String.toList_ofList, hbefore, hafter, before_of_not_mem hfdot, htake,
    bigInt_of_isDigit hne hw, bigInt_of_isDigit hpadne hpad, hsum]
  by_cases h0 : n = 0
  · rw [if_pos h0, if_pos (by omega)]
  · rw [if_neg h0, if_neg (by omega)]

theorem toUnits_pos {amount : String} {u : Int} (h : toUnits amount = .ok u) : 0 < u := by
  simp only [toUnits] at h
  split at h
  · split at h
    · cases h
    · next hpos =>
      cases h
      omega
  · cases h

/-- Units that are not negative are written in fixed-point form. -/
theorem fromUnits_natCast (n : Nat) : fromUnits n = String.ofList (fixedText 7 n) := by
  have hw : (n : Int).tdiv SCALE = ((n / 10 ^ 7 : Nat) : Int) := by
    rw [Int.tdiv_eq_ediv_of_nonneg (Int.natCast_nonneg n)]
    rfl
  have hf : (n : Int).tmod SCALE = ((n % 10 ^ 7 : Nat) : Int) := by
    rw [Int.tmod_eq_emod_of_nonneg (Int.natCast_nonneg n)]
    rfl
  have htext : ∀ k : Nat, bigIntText (k : Int) = Nat.toDigits 10 k := fun k => by
    rw [bigIntText, if_neg (by omega), Int.natAbs_natCast]
  unfold fromUnits
  simp only [hw, hf, htext]
  rfl

/-- The two parts of a negative amount are written with their own signs. -/
theorem fromUnits_neg (n : Nat) :
    fromUnits (-(n : Int)) = String.ofList (bigIntText (-((n / 10 ^ 7 : Nat) : Int))
      ++ '.' :: padStart 7 '0' (bigIntText (-((n % 10 ^ 7 : Nat) : Int)))) := by
  have hw : (-(n : Int)).tdiv SCALE = -((n / 10 ^ 7 : Nat) : Int) := by
    rw [Int.neg_tdiv, Int.tdiv_eq_ediv_of_nonneg (Int.natCast_nonneg n)]
    rfl
  have hf : (-(n : Int)).tmod SCALE = -((n % 10 ^ 7 : Nat) : Int) := by
    rw [Int.neg_tmod, Int.tmod_eq_emod_of_nonneg (Int.natCast_nonneg n)]
    rfl
  simp only [fromUnits, hw, hf]

theorem bigIntText_neg (k : Nat) :
    bigIntText (-(k : Int)) = if k = 0 then Nat.toDigits 10 0 else '-' :: Nat.toDigits 10 k := by
  unfold bigIntText
  by_cases hk : k = 0
  · subst hk
    rfl
  · rw [if_pos (by omega), if_neg hk, Int.natAbs_neg, Int.natAbs_natCast]

theorem fromUnits_neg_of_whole {n : Nat} (h : n % 10 ^ 7 = 0) :
    fromUnits (-(n : Int)) = if n = 0 then String.ofList (fixedText 7 0)
      else String.ofList ('-' :: fixedText 7 n) := by
  rw [fromUnits_neg, h, bigIntText_neg, bigIntText_neg, if_pos rfl]
  by_cases h0 : n = 0
  · subst h0
    rfl
  · rw [if_neg h0, if_neg (by omega), fixedText, h]
    rfl

/-- The value of text whose fraction is the one of `n` units. -/
theorem toUnits_of_fraction {cs : List Char} {n : Nat} {w : Int}
    (hwhole : bigInt (before '.' cs) = some w)
    (hafter : after '.' cs = padStart 7 '0' (Nat.toDigits 10 (n % 10 ^ 7))) :
    toUnits (String.ofList cs) = if w * SCALE + ((n % 10 ^ 7 : Nat) : Int) ≤ 0 then
      .error (.badRequest "Amount must be greater than zero")
      else .ok (w * SCALE + ((n % 10 ^ 7 : Nat) : Int)) := by
  have hfrac : ∀ c ∈ padStart 7 '0' (Nat.toDigits 10 (n % 10 ^ 7)), c.isDigit = true :=
    isDigit_padStart isDigit_toDigits
  have hlen := length_fraction 7 n (by decide)
  have hbefore : before '.' (padStart 7 '0' (Nat.toDigits 10 (n % 10 ^ 7)))
      = padStart 7 '0' (Nat.toDigits 10 (n % 10 ^ 7)) :=
    before_of_not_mem (not_mem_of_isDigit rfl hfrac)
  have hne : padStart 7 '0' (Nat.toDigits 10 (n % 10 ^ 7)) ≠ [] := by
    rw [← List.length_pos_iff, hlen]
    decide
  have hf := bigInt_of_isDigit hne hfrac
  rw [ofDigitChars_padStart, Nat.ofDigitChars_ten_toDigits] at hf
  simp only [toUnits]
  rw [String.toList_ofList, hafter, hbefore, List.take_append_of_le_length (by rw [hlen]),
    List.take_of_length_le (by rw [hlen]), hwhole, hf]

/-- `toUnits` reads fixed-point text back; zero is the one amount it rejects. -/
theorem toUnits_fixedText (n : Nat) :
    toUnits (String.ofList (fixedText 7 n))
      = if n = 0 then .error (.badRequest "Amount must be greater than zero") else .ok n := by
  have hw := bigInt_of_isDigit Nat.toDigits_ne_nil (isDigit_toDigits (n := n / 10 ^ 7))
  rw [Nat.ofDigitChars_ten_toDigits, ← before_fixedText 7] at hw
  have hsum : ((n / 10 ^ 7 : Nat) : Int) * SCALE + ((n % 10 ^ 7 : Nat) : Int) = n := by
    unfold SCALE
    omega
  rw [toUnits_of_fraction hw (after_fixedText 7 n), hsum]
  by_cases h0 : n = 0
  · subst h0
    rfl
  · rw [if_neg (by omega), if_neg h0]

/-- The sign of a negative amount is read with its whole part only, where it is lost if that
part is zero. -/
theorem toUnits_neg_fixedText (n : Nat) :
    toUnits (String.ofList ('-' :: fixedText 7 n))
      = if 0 < n ∧ n < 10 ^ 7 then .ok n
        else .error (.badRequest "Amount must be greater than zero") := by
  have hdigits := digits?_of_isDigit Nat.toDigits_ne_nil (isDigit_toDigits (n := n / 10 ^ 7))
  rw [Nat.ofDigitChars_ten_toDigits] at hdigits
  have hspace : ∀ c ∈ '-' :: Nat.toDigits 10 (n / 10 ^ 7), isSpace c = false := by
    intro c hc
    rcases List.mem_cons.mp hc with rfl | hc
    · rfl
    · exact isSpace_of_isDigit (isDigit_toDigits c hc)
  have hdot : '.' ∉ '-' :: Nat.toDigits 10 (n / 10 ^ 7) := by
    intro hmem
    rcases List.mem_cons.mp hmem with h | h
    · cases h
    · exact dot_not_mem_toDigits _ h
  have hw : bigInt (before '.' ('-' :: fixedText 7 n)) = some (-((n / 10 ^ 7 : Nat) : Int)) := by
    rw [fixedText, ← List.cons_append, before_append hdot, bigInt, trim_of_forall hspace]
    simp only [hdigits, Option.map_some]
  have hafter : after '.' ('-' :: fixedText 7 n)
      = padStart 7 '0' (Nat.toDigits 10 (n % 10 ^ 7)) := by
    rw [fixedText, ← List.cons_append, after_append hdot]
  rw [toUnits_of_fraction hw hafter]
  unfold SCALE
  by_cases h : 0 < n ∧ n < 10 ^ 7
  · have hsum : -((n / 10 ^ 7 : Nat) : Int) * 10000000 + ((n % 10 ^ 7 : Nat) : Int) = n := by
      omega
    rw [if_pos h, hsum, if_neg (by omega)]
  · rw [if_neg h, if_pos (by omega)]

theorem toUnits_fromUnits {u : Int} (h : 0 < u) : toUnits (fromUnits u) = .ok u := by
  obtain ⟨n, rfl⟩ := Int.eq_ofNat_of_zero_le h.le
  rw [fromUnits_natCast, toUnits_fixedText, if_neg (by omega)]

end Invoices

/-! ## What the database makes of the text -/

namespace Numeric

theorem isBlank_of_isDigit_or_dot {c : Char} (h : c.isDigit = true ∨ c = '.') :
    isBlank c = false := by
  rcases h with h | rfl
  · have h₁ : 48 ≤ c.toNat := (Char.isDigit_iff_toNat.mp h).1
    simp only [isBlank, Bool.or_eq_false_iff, Bool.and_eq_false_iff, decide_eq_false_iff_not,
      beq_eq_false_iff_ne]
    omega
  · decide

/-- The characters of a number with signs in it. -/
def IsNumberChar (c : Char) : Prop := c.isDigit = true ∨ c = '.' ∨ c = '-'

theorem IsNumberChar.isBlank {c : Char} (h : IsNumberChar c) : isBlank c = false := by
  rcases h with h | rfl | rfl
  · exact isBlank_of_isDigit_or_dot (.inl h)
  · decide
  · decide

theorem IsNumberChar.isExpMark {c : Char} (h : IsNumberChar c) : isExpMark c = false := by
  rcases h with h | rfl | rfl
  · exact isExpMark_of_isDigit_or_dot (.inl h)
  · rfl
  · rfl

/-- Text without blanks is read as it stands. -/
theorem parse?_of_forall {cs : List Char} (h : ∀ c ∈ cs, isBlank c = false) :
    parse? (String.ofList cs) = decimal? cs := by
  have hd : cs.dropWhile isBlank = cs := by
    cases cs with
    | nil => rfl
    | cons c cs => simp [h c List.mem_cons_self]
  have hr : cs.rdropWhile isBlank = cs := by
    rw [List.rdropWhile_eq_self_iff]
    intro hne
    simp [h _ (List.getLast_mem hne)]
  rw [parse?, String.toList_ofList, hd, hr]

theorem ofText?_of_forall {cs : List Char} (h : ∀ c ∈ cs, isBlank c = false) :
    ofText? (String.ofList cs) = (decimal? cs).bind ofRat? := by
  rw [ofText?_eq, parse?_of_forall h]

/-- Fixed-point text is stored as its units. -/
theorem ofText?_fixedText (n : Nat) : ofText? (String.ofList (fixedText 7 n)) = ofUnits? n := by
  have hscale : (n : ℚ) / 10 ^ 7 * 10 ^ 7 = ((n : Int) : ℚ) := by
    push_cast
    field_simp
  rw [ofText?_of_forall fun c hc => isBlank_of_isDigit_or_dot (isDigit_fixedText 7 n c hc),
    decimal?_fixedText 7 n (by decide), Option.bind_some, ofRat?, hscale, roundHalfAway_intCast]

theorem ofText?_fromUnits_natCast (n : Nat) : ofText? (Invoices.fromUnits n) = ofUnits? n := by
  rw [Invoices.fromUnits_natCast, ofText?_fixedText]

/-- A sign in the fraction is an error. -/
theorem unsigned?_of_signed_fraction (q k : Nat) :
    unsigned? (Nat.toDigits 10 q ++ '.' :: padStart 7 '0' ('-' :: Nat.toDigits 10 k)) = none ∧
    ∀ c ∈ Nat.toDigits 10 q ++ '.' :: padStart 7 '0' ('-' :: Nat.toDigits 10 k),
      IsNumberChar c := by
  have hchars : ∀ c ∈ Nat.toDigits 10 q ++ '.' :: padStart 7 '0' ('-' :: Nat.toDigits 10 k),
      IsNumberChar c := by
    intro c hc
    simp only [padStart, List.mem_append, List.mem_cons, List.mem_replicate] at hc
    rcases hc with hc | rfl | ⟨-, rfl⟩ | rfl | hc
    · exact .inl (isDigit_toDigits c hc)
    · exact .inr (.inl rfl)
    · exact .inl rfl
    · exact .inr (.inr rfl)
    · exact .inl (isDigit_toDigits c hc)
  refine ⟨?_, hchars⟩
  rw [unsigned?_of_no_mark fun c hc => (hchars c hc).isExpMark]
  exact mantissa?_eq_none (c := '-') (dot_not_mem_toDigits q) (by simp [padStart]) rfl

/-- Other negative amounts are rejected. -/
theorem ofText?_fromUnits_neg {n : Nat} (h : n % 10 ^ 7 ≠ 0) :
    ofText? (Invoices.fromUnits (-(n : Int))) = none := by
  rw [Invoices.fromUnits_neg, Invoices.bigIntText_neg, Invoices.bigIntText_neg, if_neg h]
  by_cases hq : n / 10 ^ 7 = 0
  · obtain ⟨hnone, hchars⟩ := unsigned?_of_signed_fraction 0 (n % 10 ^ 7)
    rw [if_pos hq, ofText?_of_forall fun c hc => (hchars c hc).isBlank]
    -- without a sign in front it is read as an unsigned number
    exact congrArg (fun x => Option.bind x ofRat?) hnone
  · obtain ⟨hnone, hchars⟩ := unsigned?_of_signed_fraction (n / 10 ^ 7) (n % 10 ^ 7)
    rw [if_neg hq, List.cons_append, ofText?_of_forall]
    · rw [decimal?, hnone]
      rfl
    · intro c hc
      rcases List.mem_cons.mp hc with rfl | hc
      · decide
      · exact (hchars c hc).isBlank

/-- Whole negative amounts are stored as their units. -/
theorem ofText?_neg_fixedText (n : Nat) :
    ofText? (String.ofList ('-' :: fixedText 7 n)) = ofUnits? (-n) := by
  have hblank : ∀ c ∈ '-' :: fixedText 7 n, isBlank c = false := by
    intro c hc
    rcases List.mem_cons.mp hc with rfl | hc
    · decide
    · exact isBlank_of_isDigit_or_dot (isDigit_fixedText 7 n c hc)
  have hscale : -((n : ℚ) / 10 ^ 7) * 10 ^ 7 = ((-(n : Int) : Int) : ℚ) := by
    push_cast
    field_simp
  rw [ofText?_of_forall hblank, decimal?, unsigned?_fixedText 7 n (by decide), Option.map_some,
    Option.bind_some, ofRat?, hscale, roundHalfAway_intCast]

/-- **Where the database accepts what `fromUnits` writes, it stores the units.** The
fraction of a negative amount has a sign of its own, and is rejected unless it
is zero. -/
theorem units_of_ofText?_fromUnits {u : Int} {v : Numeric}
    (h : ofText? (Invoices.fromUnits u) = some v) : v.units = u := by
  rcases Int.le_total 0 u with hu | hu
  · obtain ⟨n, rfl⟩ := Int.eq_ofNat_of_zero_le hu
    rw [ofText?_fromUnits_natCast] at h
    exact ofUnits?_eq_some.mp h
  · obtain ⟨n, hn⟩ := Int.eq_ofNat_of_zero_le (Int.neg_nonneg_of_nonpos hu)
    obtain rfl : u = -(n : Int) := by omega
    by_cases hfrac : n % 10 ^ 7 = 0
    · rw [Invoices.fromUnits_neg_of_whole hfrac] at h
      split at h
      · next h0 =>
        rw [ofText?_fixedText] at h
        rw [ofUnits?_eq_some.mp h, h0]
        rfl
      · rw [ofText?_neg_fixedText] at h
        exact ofUnits?_eq_some.mp h
    · rw [ofText?_fromUnits_neg hfrac] at h
      cases h

/-- **Text that the API accepts as an amount** denotes a number of units, which is what `toUnits`
and the database read. -/
theorem isAmountText_spec {cs : List Char} (h : Invoices.isAmountText cs = true) :
    ∃ n : Nat, decimal? cs = some ((n : ℚ) / 10 ^ 7) ∧
      parse? (String.ofList cs) = some ((n : ℚ) / 10 ^ 7) ∧
      Invoices.toUnits (String.ofList cs)
        = if n = 0 then .error (.badRequest "Amount must be greater than zero") else .ok n := by
  obtain ⟨whole, frac, hne, hw, hf, hlen, hcs⟩ := Invoices.isAmountText_cases h
  have hdot : '.' ∉ whole := not_mem_of_isDigit rfl hw
  have hbefore : before '.' cs = whole := by
    rcases hcs with ⟨rfl, -⟩ | rfl
    · exact before_of_not_mem hdot
    · exact before_append hdot frac
  have hafter : after '.' cs = frac := by
    rcases hcs with ⟨rfl, rfl⟩ | rfl
    · exact after_of_not_mem hdot
    · exact after_append hdot frac
  have hchars : ∀ c ∈ cs, c.isDigit = true ∨ c = '.' := by
    intro c hc
    rcases hcs with ⟨rfl, -⟩ | rfl
    · exact .inl (hw c hc)
    · rcases List.mem_append.mp hc with hc | hc
      · exact .inl (hw c hc)
      · exact (List.mem_cons.mp hc).symm.imp_left (hf c)
  -- the value of the text, by its digits
  have hvalue : decimal? cs
      = some ((Nat.ofDigitChars 10 (whole ++ frac) 0 : ℚ) / 10 ^ frac.length) := by
    obtain ⟨c, ds, rfl⟩ := List.exists_cons_of_ne_nil hne
    have hhead : ∃ rest, cs = c :: rest := by
      rcases hcs with ⟨rfl, -⟩ | rfl
      · exact ⟨ds, rfl⟩
      · exact ⟨_, rfl⟩
    obtain ⟨rest, hrest⟩ := hhead
    rw [decimal?_eq_mantissa? hrest (hw c List.mem_cons_self) hchars]
    rcases hcs with ⟨rfl, rfl⟩ | rfl
    · simpa using mantissa?_of_isDigit_whole hne hw
    · exact mantissa?_of_isDigit hne hw hf
  have hpow : (10 : ℚ) ^ 7 = 10 ^ frac.length * 10 ^ (7 - frac.length) := by
    rw [← pow_add, Nat.add_sub_cancel' hlen]
  have hscale : (Nat.ofDigitChars 10 (whole ++ frac) 0 : ℚ) / 10 ^ frac.length
      = ((Nat.ofDigitChars 10 (whole ++ frac) 0 * 10 ^ (7 - frac.length) : Nat) : ℚ) / 10 ^ 7 := by
    rw [hpow]
    push_cast
    field_simp
  rw [hscale] at hvalue
  refine ⟨_, hvalue, ?_, Invoices.toUnits_of_parts hne hw hf hlen hbefore hafter rfl⟩
  rw [parse?_of_forall fun c hc => isBlank_of_isDigit_or_dot (hchars c hc), hvalue]

theorem parse?_of_isAmountText {cs : List Char} (h : Invoices.isAmountText cs = true) {u : Int}
    (hu : Invoices.toUnits (String.ofList cs) = .ok u) :
    ∃ p, parse? (String.ofList cs) = some p ∧ p * 10 ^ 7 = u := by
  obtain ⟨n, -, hp, hunits⟩ := isAmountText_spec h
  rw [hunits] at hu
  split at hu
  · cases hu
  · cases hu
    refine ⟨_, hp, ?_⟩
    push_cast
    field_simp

theorem units_of_ofText?_isAmountText {cs : List Char} (h : Invoices.isAmountText cs = true)
    {u : Int} {v : Numeric} (hu : Invoices.toUnits (String.ofList cs) = .ok u)
    (hv : ofText? (String.ofList cs) = some v) : v.units = u := by
  obtain ⟨p, hp, hscale⟩ := parse?_of_isAmountText h hu
  rw [ofText?_eq, hp, Option.bind_some, ofRat?, hscale, roundHalfAway_intCast] at hv
  exact ofUnits?_eq_some.mp hv

/-- The text of a column value that is not negative. -/
theorem text_of_nonneg {n : Numeric} (h : 0 ≤ n.units) :
    n.text = String.ofList (fixedText 7 n.units.natAbs) := by
  rw [text, unitsText, if_neg (by omega)]

/-- `toUnits` reads the text of a positive column back, and rejects zero. -/
theorem toUnits_text {n : Numeric} (h : 0 ≤ n.units) :
    Invoices.toUnits n.text = if n.units = 0 then
      .error (.badRequest "Amount must be greater than zero") else .ok n.units := by
  obtain ⟨k, hk⟩ := Int.eq_ofNat_of_zero_le h
  rw [text_of_nonneg h, Invoices.toUnits_fixedText, hk, Int.natAbs_natCast]
  by_cases h0 : k = 0
  · rw [if_pos h0, if_pos (by omega)]
  · rw [if_neg h0, if_neg (by omega)]

/-- The text of a column value denotes it. -/
theorem decimal?_text (n : Numeric) : decimal? n.text.toList = some n.value := by
  unfold text unitsText
  split
  · next h =>
    have habs : ((n.units.natAbs : Nat) : ℚ) = -(n.units : ℚ) := by
      rw [← Int.cast_natCast, Int.natCast_natAbs, abs_of_neg h, Int.cast_neg]
    rw [String.toList_ofList, decimal?, unsigned?_fixedText 7 _ (by decide), Option.map_some, habs,
      value]
    congr 1
    ring
  · next h =>
    have habs : ((n.units.natAbs : Nat) : ℚ) = (n.units : ℚ) := by
      rw [← Int.cast_natCast, Int.natCast_natAbs, abs_of_nonneg (by omega)]
    rw [String.toList_ofList, decimal?_fixedText 7 _ (by decide), habs, value]

/-- It is made of digits, a point and perhaps a sign. -/
theorem isNumberChar_text (n : Numeric) : ∀ c ∈ n.text.toList, IsNumberChar c := by
  have hfixed : ∀ k, ∀ c ∈ fixedText 7 k, IsNumberChar c := fun k c hc =>
    (isDigit_fixedText 7 k c hc).imp_right .inl
  unfold text unitsText
  split
  · rw [String.toList_ofList]
    intro c hc
    rcases List.mem_cons.mp hc with rfl | hc
    · exact .inr (.inr rfl)
    · exact hfixed _ c hc
  · rw [String.toList_ofList]
    exact hfixed _

end Numeric

end Stargate
