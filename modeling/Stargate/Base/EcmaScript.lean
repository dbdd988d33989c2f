import Mathlib.Data.List.DropRight
import Mathlib.Data.Nat.Find
import Stargate.Base.DecimalText
import Stargate.Base.Rounding

/-!
# ECMAScript numbers and strings

The built-in conversions between numbers and text that money code in
JavaScript goes through, over lists of characters. Numbers are exact rationals
except where `toBinary64` rounds them.

- `bigInt`: `BigInt(text)`;
- `parseFloat`, `number?`: `parseFloat(text)` and `Number(text)` before the
  rounding to a double;
- `toFixed7`: `x.toFixed(7)`;
- `numberText`: `String(v)` of a number given by its shortest decimal;
- `trimZeros`: `text.replace(/\.?0+$/, '')`;
- `JsNumber`: a number with `NaN` and the infinities, where a program compares them;
- `toISOString`: `date.toISOString()`.
-/

namespace Stargate.Base

/-! ## White space -/

/-- The `WhiteSpace` and `LineTerminator` code points. -/
def isSpace (c : Char) : Bool :=
  let n := c.toNat
  (9 ≤ n && n ≤ 13) || n == 0x20 || n == 0xA0 || n == 0x1680 || (0x2000 ≤ n && n ≤ 0x200A)
    || n == 0x2028 || n == 0x2029 || n == 0x202F || n == 0x205F || n == 0x3000 || n == 0xFEFF

/-- `text.trim()`. -/
def trim (cs : List Char) : List Char := (cs.dropWhile isSpace).rdropWhile isSpace

theorem isSpace_of_isDigit {c : Char} (h : c.isDigit = true) : isSpace c = false := by
  obtain ⟨h₁, h₂⟩ := Char.isDigit_iff_toNat.mp h
  have h₁ : 48 ≤ c.toNat := h₁
  have h₂ : c.toNat ≤ 57 := h₂
  simp only [isSpace, Bool.or_eq_false_iff, Bool.and_eq_false_iff, decide_eq_false_iff_not,
    beq_eq_false_iff_ne]
  omega

theorem trim_of_forall {cs : List Char} (h : ∀ c ∈ cs, isSpace c = false) : trim cs = cs := by
  have hd : cs.dropWhile isSpace = cs := by
    cases cs with
    | nil => rfl
    | cons c cs => simp [h c List.mem_cons_self]
  unfold trim
  rw [hd, List.rdropWhile_eq_self_iff]
  intro hne
  simp [h _ (List.getLast_mem hne)]

/-! ## Parts of a text -/

section Parts

variable {cs ds : List Char} {c : Char}

/-- `text.split(c)` of a text without the separator. -/
theorem splitOn_of_not_mem (h : c ∉ cs) : cs.splitOn c = [cs] := by
  rw [List.splitOn_eq_splitOnP]
  refine List.splitOnP_eq_singleton fun x hx => beq_eq_false_iff_ne.mpr ?_
  rintro rfl
  exact h hx

/-- The part in front of the first separator. -/
theorem splitOn_append (h : c ∉ cs) : (cs ++ c :: ds).splitOn c = cs :: ds.splitOn c := by
  rw [List.splitOn_eq_splitOnP, List.splitOn_eq_splitOnP]
  have hcs : ∀ x ∈ cs, (x == c) = false := by
    intro x hx
    refine beq_eq_false_iff_ne.mpr ?_
    rintro rfl
    exact h hx
  exact List.splitOnP_append_cons_of_forall_mem hcs c (beq_self_eq_true c) ds

/-- `parts.join(c)`, followed by one more part. -/
theorem splitOn_foldr {parts : List (List Char)} {last : List Char}
    (h : ∀ part ∈ parts, c ∉ part) (hlast : c ∉ last) :
    (parts.foldr (fun part rest => part ++ c :: rest) last).splitOn c = parts ++ [last] := by
  induction parts with
  | nil => exact splitOn_of_not_mem hlast
  | cons part parts ih =>
    rw [List.foldr_cons, splitOn_append (h part List.mem_cons_self),
      ih fun p hp => h p (List.mem_cons_of_mem part hp), List.cons_append]

end Parts

/-! ## Integers -/

/-- The value of a digit in a radix up to 16. -/
def hexValue? (c : Char) : Option Nat :=
  if c.isDigit then some (c.toNat - '0'.toNat)
  else if 'a' ≤ c ∧ c ≤ 'f' then some (c.toNat - 'a'.toNat + 10)
  else if 'A' ≤ c ∧ c ≤ 'F' then some (c.toNat - 'A'.toNat + 10)
  else none

/-- A non-empty string of digits in a radix. -/
def radix? (b : Nat) (cs : List Char) : Option Nat :=
  if cs = [] then none
  else cs.foldl (fun acc c => do
    let n ← acc
    let d ← hexValue? c
    if d < b then some (b * n + d) else none) (some 0)

/-- `BigInt(text)`; `none` is the `SyntaxError`. The empty string is `0n`, signs
are for decimals only, and `0x`, `0o`, `0b` introduce other radices. -/
def bigInt (cs : List Char) : Option Int :=
  match trim cs with
  | [] => some 0
  | '-' :: ds => (digits? ds).map fun (n : Nat) => -(n : Int)
  | '+' :: ds => (digits? ds).map fun (n : Nat) => (n : Int)
  | c :: x :: ds =>
    if c == '0' && (x == 'x' || x == 'X') then (radix? 16 ds).map fun (n : Nat) => (n : Int)
    else if c == '0' && (x == 'o' || x == 'O') then (radix? 8 ds).map fun (n : Nat) => (n : Int)
    else if c == '0' && (x == 'b' || x == 'B') then (radix? 2 ds).map fun (n : Nat) => (n : Int)
    else (digits? (c :: x :: ds)).map fun (n : Nat) => (n : Int)
  | [c] => (digits? [c]).map fun (n : Nat) => (n : Int)

/-- A digit is none of the characters that `bigInt` treats specially. -/
theorem ne_of_isDigit {c d : Char} (h : c.isDigit = true) (hd : d.isDigit = false) : c ≠ d := by
  rintro rfl
  rw [h] at hd
  cases hd

/-- `BigInt` of a string of decimal digits is its value. -/
theorem bigInt_of_isDigit {cs : List Char} (hne : cs ≠ []) (h : ∀ c ∈ cs, c.isDigit = true) :
    bigInt cs = some ((Nat.ofDigitChars 10 cs 0 : Nat) : Int) := by
  have htrim : trim cs = cs := trim_of_forall fun c hc => isSpace_of_isDigit (h c hc)
  have hdig := digits?_of_isDigit hne h
  unfold bigInt
  rw [htrim]
  split
  · exact absurd rfl hne
  · exact absurd rfl (ne_of_isDigit (h '-' List.mem_cons_self) rfl)
  · exact absurd rfl (ne_of_isDigit (h '+' List.mem_cons_self) rfl)
  · next c x ds _ _ =>
    have hx : ∀ d : Char, d.isDigit = false → (x == d) = false := fun d hd =>
      beq_eq_false_iff_ne.mpr (ne_of_isDigit (h x (by simp)) hd)
    rw [hx 'x' rfl, hx 'X' rfl, hx 'o' rfl, hx 'O' rfl, hx 'b' rfl, hx 'B' rfl, hdig]
    simp
  · simp [hdig]

/-! ## Numbers from text -/

/-- The digits at the start of a text, and the rest. -/
def spanDigits (cs : List Char) : List Char × List Char :=
  (cs.takeWhile Char.isDigit, cs.dropWhile Char.isDigit)

/-- The exponent that a text starts with: a mark, an optional sign and at least
one digit. Anything else is not part of the number. -/
def exponentPrefix : List Char → Int
  | c :: '-' :: ds => if isExpMark c then -(Nat.ofDigitChars 10 (spanDigits ds).1 0 : Int) else 0
  | c :: '+' :: ds => if isExpMark c then (Nat.ofDigitChars 10 (spanDigits ds).1 0 : Int) else 0
  | c :: ds => if isExpMark c then (Nat.ofDigitChars 10 (spanDigits ds).1 0 : Int) else 0
  | [] => 0

/-- The longest unsigned decimal literal that a text starts with. -/
def unsignedPrefix (cs : List Char) : Option ℚ :=
  let (whole, rest) := spanDigits cs
  let (frac, rest') := match rest with
    | '.' :: ds => spanDigits ds
    | _ => ([], rest)
  if whole = [] ∧ frac = [] then none
  else some ((Nat.ofDigitChars 10 (whole ++ frac) 0 : ℚ) / 10 ^ frac.length
    * 10 ^ exponentPrefix rest')

/-- `parseFloat(text)`, the number before rounding; `none` is `NaN` (and the
infinities, which no caller can tell from it). -/
def parseFloat (cs : List Char) : Option ℚ :=
  match cs.dropWhile isSpace with
  | '-' :: ds => (unsignedPrefix ds).map Neg.neg
  | '+' :: ds => unsignedPrefix ds
  | ds => unsignedPrefix ds

/-- `Number(text)` of a decimal literal, as a double; `none` is `NaN`. -/
def number? (cs : List Char) : Option ℚ :=
  match trim cs with
  | [] => some 0
  | ds => (decimal? ds).map toBinary64

/-- Text without white space is read as it stands. -/
theorem number?_of_forall {cs : List Char} (hne : cs ≠ []) (h : ∀ c ∈ cs, isSpace c = false) :
    number? cs = (decimal? cs).map toBinary64 := by
  unfold number?
  rw [trim_of_forall h]
  split
  · exact absurd rfl hne
  · rfl

/-! ## Text from numbers -/

/-- The text of an exponent: its mark, its sign and its digits. -/
def exponentText (e : Int) : List Char :=
  'e' :: (if 0 ≤ e then '+' else '-') :: Nat.toDigits 10 e.natAbs

/-- `String(v)` for the number `v = m · 10⁻ˢ` whose shortest decimal has these
digits: positional for `10⁻⁶ ≤ v < 10²¹`, with an exponent elsewhere. -/
def numberText (m s : Nat) : List Char :=
  let all := Nat.toDigits 10 m
  let ds := all.rdropWhile (· == '0')
  -- the decimal point stands after the first `n` digits
  let n : Int := all.length - s
  let k : Int := ds.length
  if ds = [] then ['0']
  else if k ≤ n ∧ n ≤ 21 then ds ++ List.replicate (n - k).toNat '0'
  else if 0 < n ∧ n ≤ 21 then ds.take n.toNat ++ '.' :: ds.drop n.toNat
  else if -6 < n ∧ n ≤ 0 then '0' :: '.' :: List.replicate (-n).toNat '0' ++ ds
  else match ds with
    | [d] => d :: exponentText (n - 1)
    | ds => ds.take 1 ++ '.' :: ds.drop 1 ++ exponentText (n - 1)

/-- `x.toFixed(7)`: seven fraction digits, ties up. From `10²¹` on the text is
`String(x)`, and every number of that size is an integer. -/
def toFixed7 (x : ℚ) : List Char :=
  if x < 0 then '-' :: positive (-x) else positive x
where
  positive (x : ℚ) : List Char :=
    if x < 10 ^ 21 then fixedText 7 (roundHalfUp (x * 10 ^ 7)).toNat
    else numberText ⌊x⌋.toNat 0

/-- `text.replace(/\.?0+$/, '')`: drop the zeros at the end, with a decimal
point that stands before them. The leftmost match starts at the first zero of
the last run of zeros, or at the point before it. -/
def trimZeros (cs : List Char) : List Char :=
  let body := cs.rdropWhile (· == '0')
  if body.length = cs.length then cs
  else if body.getLast? = some '.' then body.dropLast else body

/-- A sign in front stays. -/
theorem trimZeros_minus (cs : List Char) : ∃ ds, trimZeros ('-' :: cs) = '-' :: ds := by
  have hbody : ∃ ds, ('-' :: cs).rdropWhile (· == '0') = '-' :: ds := by
    have hne : ('-' :: cs).rdropWhile (· == '0') ≠ [] := by
      intro hnil
      have := List.rdropWhile_eq_nil_iff.mp hnil '-' List.mem_cons_self
      cases this
    obtain ⟨c, ds, hds⟩ := List.exists_cons_of_ne_nil hne
    have hpre := List.rdropWhile_prefix (· == '0') ('-' :: cs)
    rw [hds] at hpre
    exact ⟨ds, by rw [hds, (List.cons_prefix_cons.mp hpre).1]⟩
  obtain ⟨ds, hds⟩ := hbody
  unfold trimZeros
  simp only [hds]
  split
  · exact ⟨cs, rfl⟩
  · split
    · next hdot =>
      cases ds with
      | nil => cases hdot
      | cons d ds => exact ⟨_, rfl⟩
    · exact ⟨ds, rfl⟩

/-- Zeros after a text that does not end in zero are what `rdropWhile` drops. -/
theorem rdropWhile_append_zeros {xs : List Char} (h : ∀ hne : xs ≠ [], xs.getLast hne ≠ '0')
    (z : Nat) : (xs ++ List.replicate z '0').rdropWhile (· == '0') = xs := by
  induction z with
  | zero =>
    rw [List.replicate_zero, List.append_nil, List.rdropWhile_eq_self_iff]
    simpa using h
  | succ z ih =>
    rw [List.replicate_succ', ← List.append_assoc, List.rdropWhile_concat_pos _ _ _ rfl, ih]

/-- Dropping the zeros at the end of fixed-point text keeps its value. -/
theorem decimal?_trimZeros (k n : Nat) (hk : 0 < k) :
    decimal? (trimZeros (fixedText k n)) = some ((n : ℚ) / 10 ^ k) := by
  rw [← mantissa?_fixedText k n hk]
  obtain ⟨c, ds, hw, hc, -⟩ := fixedText_eq_cons k n
  have hds : ∀ x ∈ c :: ds, x.isDigit = true := fun x hx => isDigit_toDigits x (hw ▸ hx)
  -- split the fraction into what stays and its zeros
  generalize hF : padStart k '0' (Nat.toDigits 10 (n % 10 ^ k)) = F
  have hFd : ∀ x ∈ F, x.isDigit = true := hF ▸ isDigit_padStart isDigit_toDigits
  obtain ⟨B, z, hB, hlast⟩ : ∃ B z, F = B ++ List.replicate z '0' ∧
      ∀ hne : B ≠ [], B.getLast hne ≠ '0' := by
    refine ⟨F.rdropWhile (· == '0'), (F.rtakeWhile (· == '0')).length, ?_, fun hne => ?_⟩
    · rw [← List.eq_replicate_of_mem (a := '0') fun x hx => by
        simpa using List.mem_rtakeWhile_imp hx, List.rdropWhile_append_rtakeWhile]
    · simpa using List.rdropWhile_last_not _ _ hne
  have hBd : ∀ x ∈ B, x.isDigit = true := fun x hx => hFd x (by rw [hB]; simp [hx])
  have htext : fixedText k n = (c :: ds ++ '.' :: B) ++ List.replicate z '0' := by
    rw [fixedText, hw, hF, hB]
    simp
  have hbody : (fixedText k n).rdropWhile (· == '0') = c :: ds ++ '.' :: B := by
    rw [htext]
    refine rdropWhile_append_zeros (fun hne => ?_) z
    cases B with
    | nil => simp
    | cons b B => simpa using hlast (List.cons_ne_nil b B)
  have hval : mantissa? (fixedText k n) = mantissa? (c :: ds ++ '.' :: B) := by
    rw [htext, List.append_assoc]
    exact mantissa?_append_zeros (List.cons_ne_nil c ds) hds hBd z
  have hdot : ∀ x ∈ c :: ds ++ '.' :: B, x.isDigit = true ∨ x = '.' := by
    intro x hx
    rcases List.mem_append.mp hx with hx | hx
    · exact .inl (hds x hx)
    · rcases List.mem_cons.mp hx with rfl | hx
      · exact .inr rfl
      · exact .inl (hBd x hx)
  rw [hval]
  unfold trimZeros
  simp only [hbody]
  split
  · next hlen =>
    -- there were no zeros
    have hz : z = 0 := by simpa [htext] using hlen
    rw [htext, hz, List.replicate_zero, List.append_nil]
    exact decimal?_eq_mantissa? rfl hc hdot
  · split
    · next hdotlast =>
      -- the whole fraction was zeros: the point goes too
      cases B with
      | nil =>
        have hvalue : mantissa? (c :: ds ++ ['.']) = mantissa? (c :: ds) := by
          rw [mantissa?_of_isDigit (List.cons_ne_nil c ds) hds (by simp),
            mantissa?_of_isDigit_whole (List.cons_ne_nil c ds) hds]
          simp
        rw [List.dropLast_concat, hvalue]
        exact decimal?_eq_mantissa? rfl hc fun x hx => .inl (hds x hx)
      | cons b B =>
        have hmem : '.' ∈ b :: B := by
          rw [List.getLast?_append_cons, List.getLast?_cons_cons] at hdotlast
          exact List.mem_of_getLast? hdotlast
        cases hBd '.' hmem
    · exact decimal?_eq_mantissa? rfl hc hdot

/-! ## Numbers that are not finite -/

/-- A value of type Number. -/
inductive JsNumber where
  | nan
  | infinity (negative : Bool)
  | finite (x : ℚ)
  deriving DecidableEq

namespace JsNumber

/-- `Math.max(a, b)` for a finite `b`. -/
def max : JsNumber → ℚ → JsNumber
  | .nan, _ => .nan
  | .infinity negative, b => if negative then .finite b else .infinity false
  | .finite a, b => .finite (Max.max a b)

/-- `Math.min(a, b)` for a finite `b`. -/
def min : JsNumber → ℚ → JsNumber
  | .nan, _ => .nan
  | .infinity negative, b => if negative then .infinity true else .finite b
  | .finite a, b => .finite (Min.min a b)

/-- What `Math.min(Math.max(a, b), c)` gives is `NaN` or between the bounds. -/
theorem le_of_clamp {a : JsNumber} {b c x : ℚ} (hbc : b ≤ c) (h : (a.max b).min c = .finite x) :
    b ≤ x ∧ x ≤ c := by
  cases a with
  | nan => cases h
  | infinity negative =>
    cases negative with
    | true =>
      obtain rfl : Min.min b c = x := finite.inj h
      exact ⟨le_min le_rfl hbc, min_le_right b c⟩
    | false =>
      obtain rfl : c = x := finite.inj h
      exact ⟨hbc, le_rfl⟩
  | finite a =>
    obtain rfl : Min.min (Max.max a b) c = x := finite.inj h
    exact ⟨le_min (le_max_right a b) hbc, min_le_right _ c⟩

end JsNumber

/-! ## Dates

Time values from 1970 on, in milliseconds, and their calendar dates. -/

/-- `DayFromYear(y)`. -/
def dayFromYear (y : Nat) : Nat :=
  365 * (y - 1970) + (y - 1969) / 4 - (y - 1901) / 100 + (y - 1601) / 400

/-- `YearFromTime` of a day: the last year that has begun. -/
def yearFromDay (day : Nat) : Nat := Nat.findGreatest (dayFromYear · ≤ day) (1970 + day / 365)

/-- The lengths of the months of a year. -/
def monthLengths (y : Nat) : List Nat :=
  [31, if y % 4 = 0 ∧ (y % 100 ≠ 0 ∨ y % 400 = 0) then 29 else 28,
    31, 30, 31, 30, 31, 31, 30, 31, 30, 31]

/-- `MonthFromTime` and `DateFromTime` of a day of the year, both counted from one. -/
def monthDate : List Nat → Nat → Nat × Nat
  | [], day => (1, day + 1)
  | n :: months, day =>
    if day < n then (1, day + 1)
    else
      let (month, date) := monthDate months (day - n)
      (month + 1, date)

/-- A number with at least `k` digits. -/
def zeroPadded (k n : Nat) : List Char := padStart k '0' (Nat.toDigits 10 n)

/-- The year of a date: four digits, or a sign and six. -/
def yearText (y : Nat) : List Char :=
  if y ≤ 9999 then zeroPadded 4 y else '+' :: zeroPadded 6 y

/-- The date of a time value. -/
def dateText (ms : Nat) : List Char :=
  let day := ms / 86400000
  let y := yearFromDay day
  let (month, date) := monthDate (monthLengths y) (day - dayFromYear y)
  yearText y ++ '-' :: zeroPadded 2 month ++ '-' :: zeroPadded 2 date

/-- `HourFromTime`. -/
def hour (ms : Nat) : Nat := ms / 3600000 % 24

/-- `MinFromTime`. -/
def minute (ms : Nat) : Nat := ms / 60000 % 60

/-- `SecFromTime`. -/
def second (ms : Nat) : Nat := ms / 1000 % 60

/-- `new Date(ms).toISOString()`; `none` is the `RangeError` beyond the last time value. -/
def toISOString (ms : Nat) : Option (List Char) :=
  if ms ≤ 8640000000000000 then
    some (dateText ms ++ 'T' :: zeroPadded 2 (hour ms) ++ ':' :: zeroPadded 2 (minute ms)
      ++ ':' :: zeroPadded 2 (second ms) ++ '.' :: zeroPadded 3 (ms % 1000) ++ ['Z'])
  else none

example : (toISOString 1735732799999).map String.ofList = some "2025-01-01T11:59:59.999Z" := by
  decide +kernel

theorem length_zeroPadded {k n : Nat} (hk : 0 < k) (hn : n < 10 ^ k) :
    (zeroPadded k n).length = k :=
  length_padStart ((Nat.length_toDigits_le_iff (by decide) hk).mpr hn)

theorem not_mem_zeroPadded {c : Char} (hc : c.isDigit = false) (k n : Nat) :
    c ∉ zeroPadded k n :=
  not_mem_of_isDigit hc (isDigit_padStart isDigit_toDigits)

theorem colon_not_mem_dateText (ms : Nat) : ':' ∉ dateText ms := by
  have hyear : ∀ y, ':' ∉ yearText y := by
    intro y
    unfold yearText
    split <;> simp [not_mem_zeroPadded]
  simp [dateText, hyear, not_mem_zeroPadded]

/-- The text before the first colon ends in the hour, and the text between the first two
is the minute. -/
theorem toISOString_parts {ms : Nat} {text : List Char} (h : toISOString ms = some text) :
    ∃ start rest, text = start ++ ':' :: zeroPadded 2 (minute ms) ++ ':' :: rest ∧ ':' ∉ start := by
  unfold toISOString at h
  split at h
  · refine ⟨dateText ms ++ 'T' :: zeroPadded 2 (hour ms),
      zeroPadded 2 (second ms) ++ '.' :: zeroPadded 3 (ms % 1000) ++ ['Z'], ?_, ?_⟩
    · rw [← Option.some.inj h]
      simp only [List.append_assoc, List.cons_append]
    · simp [colon_not_mem_dateText, not_mem_zeroPadded]
  · cases h

end Stargate.Base
