import Mathlib.Tactic.SplitIfs
import Stargate.Base.DigitStrings
import Stargate.Base.Json

/-!
# JSON texts as they are printed

`JSON.stringify` writes a value without white space. What it writes is read back, so the text
determines the value.

- `quote`: a string between quotes, with its escapes;
- `print`: a value;
- `Printable`: the numbers of a value are literals;
- `parse_print`: reading what was printed. `print_inj` follows.
-/

namespace Stargate.Base

namespace Json

/-! ## The printer -/

/-- A character between quotes. -/
def escape (c : Char) : List Char :=
  if c = '"' then ['\\', '"']
  else if c = '\\' then ['\\', '\\']
  else if c.toNat = 8 then ['\\', 'b']
  else if c.toNat = 9 then ['\\', 't']
  else if c.toNat = 10 then ['\\', 'n']
  else if c.toNat = 12 then ['\\', 'f']
  else if c.toNat = 13 then ['\\', 'r']
  else if c.toNat < 32 then
    ['\\', 'u', '0', '0', Nat.digitChar (c.toNat / 16), Nat.digitChar (c.toNat % 16)]
  else [c]

/-- A string between quotes. -/
def quote (text : List Char) : List Char := '"' :: (text.flatMap escape ++ ['"'])

mutual

/-- `JSON.stringify(value)`. -/
def print : Json → List Char
  | .null => "null".toList
  | .bool true => "true".toList
  | .bool false => "false".toList
  | .number literal => literal
  | .string text => quote text
  | .array items => '[' :: (printItems items ++ [']'])
  | .object fields => '\x7b' :: (printFields fields ++ ['\x7d'])

/-- Items with commas between them. -/
def printItems : List Json → List Char
  | [] => []
  | item :: items => print item ++ if items.isEmpty then [] else ',' :: printItems items

/-- Fields with commas between them. -/
def printFields : List (List Char × Json) → List Char
  | [] => []
  | (name, value) :: fields =>
    quote name ++ ':' :: (print value ++
      if fields.isEmpty then [] else ',' :: printFields fields)

end

mutual

/-- All numbers are literals of JSON. -/
def Printable : Json → Prop
  | .number literal => isNumber literal = true
  | .array items => PrintableItems items
  | .object fields => PrintableFields fields
  | _ => True

def PrintableItems : List Json → Prop
  | [] => True
  | item :: items => Printable item ∧ PrintableItems items

def PrintableFields : List (List Char × Json) → Prop
  | [] => True
  | (_, value) :: fields => Printable value ∧ PrintableFields fields

end

/-! ## Strings -/

section Strings

variable {c d : Char} {rest text : List Char}

theorem stringRest_code {a b : Char} {unit : Nat} (hcode : codeUnit? a b c d = some unit)
    (h : unit < 0xD800) (rest : List Char) :
    stringRest ('\\' :: 'u' :: a :: b :: c :: d :: rest)
      = (stringRest rest).map fun (text, rest) => (Char.ofNat unit :: text, rest) := by
  rw [stringRest]
  simp only [hcode, if_pos (Or.inl h)]

theorem stringRest_escape (hc : escape? c = some d) (rest : List Char) :
    stringRest ('\\' :: c :: rest)
      = (stringRest rest).map fun (text, rest) => (d :: text, rest) := by
  have hu : c ≠ 'u' := by
    rintro rfl
    cases hc
  rw [stringRest.eq_def]
  split
  · next heq => cases heq
  · next heq => cases (List.cons.inj heq).1
  · next heq => exact absurd (List.cons.inj (List.cons.inj heq).2).1 hu
  · next heq =>
    cases heq
    rw [hc]
  · next hno heq =>
    cases heq
    exact (hno _ _ rfl rfl).elim

/-- The escape of a control character by its code. -/
theorem codeUnit?_digitChar : ∀ n < 32,
    codeUnit? '0' '0' (Nat.digitChar (n / 16)) (Nat.digitChar (n % 16)) = some n := by
  decide

/-- The three ways to write a character. -/
theorem escape_cases (c : Char) :
    (∃ d, escape c = ['\\', d] ∧ escape? d = some c) ∨
    (c.toNat < 32 ∧ escape c =
      ['\\', 'u', '0', '0', Nat.digitChar (c.toNat / 16), Nat.digitChar (c.toNat % 16)]) ∨
    (c ≠ '"' ∧ c ≠ '\\' ∧ 32 ≤ c.toNat ∧ escape c = [c]) := by
  have hcode : ∀ n, c.toNat = n → some (Char.ofNat n) = some c := by
    rintro n rfl
    rw [Char.ofNat_toNat]
  unfold escape
  split_ifs with hquote hbackslash h8 h9 h10 h12 h13 hcontrol
  · exact .inl ⟨'"', rfl, congrArg some hquote.symm⟩
  · exact .inl ⟨'\\', rfl, congrArg some hbackslash.symm⟩
  · exact .inl ⟨'b', rfl, hcode 8 h8⟩
  · exact .inl ⟨'t', rfl, hcode 9 h9⟩
  · exact .inl ⟨'n', rfl, hcode 10 h10⟩
  · exact .inl ⟨'f', rfl, hcode 12 h12⟩
  · exact .inl ⟨'r', rfl, hcode 13 h13⟩
  · exact .inr (.inl ⟨hcontrol, rfl⟩)
  · exact .inr (.inr ⟨hquote, hbackslash, Nat.le_of_not_lt hcontrol, rfl⟩)

/-- An escaped character is read as the character. -/
theorem stringRest_escape_append (c : Char) (rest : List Char) :
    stringRest (escape c ++ rest)
      = (stringRest rest).map fun (text, rest) => (c :: text, rest) := by
  rcases escape_cases c with ⟨d, heq, hd⟩ | ⟨hlt, heq⟩ | ⟨hquote, hbackslash, hle, heq⟩
  · rw [heq]
    exact stringRest_escape hd rest
  · have hread := stringRest_code (codeUnit?_digitChar c.toNat hlt) (by omega) rest
    rw [Char.ofNat_toNat] at hread
    rw [heq]
    exact hread
  · rw [heq]
    exact stringRest_cons hquote hbackslash hle rest

/-- **A string is read back**, up to its closing quote. -/
theorem stringRest_flatMap (text rest : List Char) :
    stringRest (text.flatMap escape ++ '"' :: rest) = some (text, rest) := by
  induction text with
  | nil => rfl
  | cons c text ih =>
    rw [List.flatMap_cons, List.append_assoc, stringRest_escape_append, ih]
    rfl

end Strings

/-! ## Numbers -/

section Numbers

variable {cs : List Char}

theorem isNumberChar_of_isDigit {c : Char} (h : c.isDigit = true) : isNumberChar c = true := by
  simp [isNumberChar, h]

theorem isNumberChar_of_isDigits (h : isDigits cs = true) : ∀ c ∈ cs, isNumberChar c = true := by
  intro c hc
  obtain ⟨-, hall⟩ := (Bool.and_eq_true _ _).mp h
  exact isNumberChar_of_isDigit (List.all_eq_true.mp hall c hc)

theorem isNumberChar_of_isExponent (h : isExponent cs = true) :
    ∀ c ∈ cs, isNumberChar c = true := by
  have hmark : ∀ {c : Char}, isExpMark c = true → isNumberChar c = true := by
    intro c hc
    simp [isNumberChar, hc]
  unfold isExponent at h
  split at h
  · exact fun c hc => absurd hc List.not_mem_nil
  · next m ds =>
    obtain ⟨hm, hds⟩ := (Bool.and_eq_true _ _).mp h
    exact List.forall_mem_cons.mpr ⟨hmark hm, List.forall_mem_cons.mpr
      ⟨by decide, isNumberChar_of_isDigits hds⟩⟩
  · next m ds =>
    obtain ⟨hm, hds⟩ := (Bool.and_eq_true _ _).mp h
    exact List.forall_mem_cons.mpr ⟨hmark hm, List.forall_mem_cons.mpr
      ⟨by decide, isNumberChar_of_isDigits hds⟩⟩
  · next m ds =>
    obtain ⟨hm, hds⟩ := (Bool.and_eq_true _ _).mp h
    exact List.forall_mem_cons.mpr ⟨hmark hm, isNumberChar_of_isDigits hds⟩

/-- The characters of a text that is digits up to some point. -/
theorem isNumberChar_of_dropWhile (h : ∀ c ∈ cs.dropWhile Char.isDigit, isNumberChar c = true) :
    ∀ c ∈ cs, isNumberChar c = true := by
  intro c hc
  rw [← List.takeWhile_append_dropWhile (p := Char.isDigit) (l := cs)] at hc
  rcases List.mem_append.mp hc with hc | hc
  · exact isNumberChar_of_isDigit (List.mem_takeWhile_imp hc)
  · exact h c hc

theorem isUnsigned_spec (h : isUnsigned cs = true) :
    cs ≠ [] ∧ ∀ c ∈ cs, isNumberChar c = true := by
  obtain ⟨hwhole, hrest⟩ := (Bool.and_eq_true _ _).mp h
  refine ⟨?_, isNumberChar_of_dropWhile ?_⟩
  · rintro rfl
    cases hwhole
  · split at hrest
    · next ds hdrop =>
      obtain ⟨-, hexponent⟩ := (Bool.and_eq_true _ _).mp hrest
      rw [hdrop]
      exact List.forall_mem_cons.mpr
        ⟨by decide, isNumberChar_of_dropWhile (isNumberChar_of_isExponent hexponent)⟩
    · exact isNumberChar_of_isExponent hrest

/-- The characters of a number. -/
theorem isNumber_spec (h : isNumber cs = true) : cs ≠ [] ∧ ∀ c ∈ cs, isNumberChar c = true := by
  unfold isNumber at h
  split at h
  · obtain ⟨-, hall⟩ := isUnsigned_spec h
    exact ⟨List.cons_ne_nil _ _, List.forall_mem_cons.mpr ⟨by decide, hall⟩⟩
  · exact isUnsigned_spec h

/-- The text of a natural number is a literal. -/
theorem isUnsigned_toDigits (n : Nat) : isUnsigned (Nat.toDigits 10 n) = true := by
  have hdigits : ∀ c ∈ Nat.toDigits 10 n, c.isDigit = true := isDigit_toDigits
  have htake : (Nat.toDigits 10 n).takeWhile Char.isDigit = Nat.toDigits 10 n :=
    List.takeWhile_eq_self_iff.mpr hdigits
  have hdrop : (Nat.toDigits 10 n).dropWhile Char.isDigit = [] :=
    List.dropWhile_eq_nil_iff.mpr hdigits
  have hwhole : isWhole (Nat.toDigits 10 n) = true := by
    rcases Nat.eq_zero_or_pos n with rfl | hn
    · decide
    · obtain ⟨c, cs, heq⟩ := List.exists_cons_of_ne_nil (Nat.toDigits_ne_nil (b := 10) (n := n))
      have hhead : c ≠ '0' := head_toDigits_ne hn heq
      rw [heq] at hdigits ⊢
      simp only [isWhole, Bool.and_eq_true, Bool.or_eq_true, bne_iff_ne, ne_eq, List.all_eq_true]
      exact ⟨⟨List.cons_ne_nil c cs, hdigits⟩, .inr (by simpa using hhead)⟩
  unfold isUnsigned
  rw [htake, hdrop, hwhole]
  rfl

theorem isNumber_toDigits (n : Nat) : isNumber (Nat.toDigits 10 n) = true := by
  unfold isNumber
  split
  · next hminus => exact absurd hminus (toDigits_ne_cons rfl _)
  · exact isUnsigned_toDigits n

end Numbers

/-! ## Values -/

section Values

/-- What a printed value starts with. -/
def starts (c : Char) : Bool :=
  isNumberChar c || ['n', 't', 'f', '"', '[', '\x7b'].contains c

variable {c : Char} {cs rest : List Char} {v : Json}

theorem ne_of_starts {d : Char} (hc : starts c = true) (hd : starts d = false) : c ≠ d := by
  rintro rfl
  cases hc.symm.trans hd

theorem skipSpace_starts (hc : starts c = true) : skipSpace (c :: cs) = c :: cs :=
  skipSpace_cons (ne_of_starts hc (by decide)) (ne_of_starts hc (by decide))
    (ne_of_starts hc (by decide)) (ne_of_starts hc (by decide))

theorem closing?_starts {bracket : Char} (hc : starts c = true) (hb : starts bracket = false) :
    closing? bracket (c :: cs) = none := by
  rw [closing?, skipSpace_starts hc]
  exact if_neg (ne_of_starts hc hb)

theorem exists_print (hv : v.Printable) : ∃ c cs, print v = c :: cs ∧ starts c = true := by
  cases v with
  | null => exact ⟨'n', _, rfl, by decide⟩
  | bool b =>
    cases b with
    | true => exact ⟨'t', _, rfl, by decide⟩
    | false => exact ⟨'f', _, rfl, by decide⟩
  | number literal =>
    obtain ⟨hne, hchars⟩ := isNumber_spec hv
    obtain ⟨c, cs, rfl⟩ := List.exists_cons_of_ne_nil hne
    exact ⟨c, cs, rfl, by simp [starts, hchars c List.mem_cons_self]⟩
  | string text => exact ⟨'"', _, rfl, by decide⟩
  | array items => exact ⟨'[', _, rfl, by decide⟩
  | object fields => exact ⟨'\x7b', _, rfl, by decide⟩

theorem printItems_singleton (item : Json) : printItems [item] = print item :=
  List.append_nil (print item)

theorem printItems_cons (item next : Json) (items : List Json) :
    printItems (item :: next :: items) = print item ++ ',' :: printItems (next :: items) := rfl

theorem printFields_singleton (name : List Char) (value : Json) :
    printFields [(name, value)] = quote name ++ ':' :: print value := by
  rw [printFields]
  exact congrArg (fun cs => quote name ++ ':' :: cs) (List.append_nil (print value))

theorem printFields_cons (name : List Char) (value : Json) (next : List Char × Json)
    (fields : List (List Char × Json)) :
    printFields ((name, value) :: next :: fields)
      = quote name ++ ':' :: (print value ++ ',' :: printFields (next :: fields)) := rfl

/-- Between the name of a field and its value. -/
theorem stringRest_quote (name rest : List Char) :
    ∃ tail, quote name ++ ':' :: rest = '"' :: tail ∧ stringRest tail = some (name, ':' :: rest) :=
  ⟨name.flatMap escape ++ '"' :: ':' :: rest, by simp [quote], stringRest_flatMap _ _⟩

mutual

/-- **A value is read back.** Two units of fuel for each character are enough. -/
theorem parseValue_print (v : Json) (hv : v.Printable) (rest : List Char) (hrest : Ends rest)
    (fuel : Nat) (hfuel : 2 * (print v).length ≤ fuel) :
    parseValue fuel (print v ++ rest) = some (v, rest) := by
  obtain ⟨fuel, rfl⟩ : ∃ k, fuel = k + 1 := by
    obtain ⟨c, cs, heq, -⟩ := exists_print hv
    rw [heq, List.length_cons] at hfuel
    exact ⟨fuel - 1, by omega⟩
  cases v with
  | null => rfl
  | bool b =>
    cases b with
    | true => rfl
    | false => rfl
  | number literal =>
    obtain ⟨hne, hchars⟩ := isNumber_spec hv
    rw [print, parseValue_number hne hchars fuel hrest]
    exact if_pos hv
  | string text =>
    have hread := stringRest_flatMap text rest
    simp only [print, quote, List.cons_append, List.append_assoc, List.nil_append, parseValue,
      skipSpace_starts (show starts '"' = true by decide), hread, Option.map_some]
  | array items =>
    cases items with
    | nil => rfl
    | cons item items =>
      rw [print, List.length_cons, List.length_append] at hfuel
      have hread := parseItems_print (item :: items) hv (List.cons_ne_nil _ _) rest fuel (by omega)
      obtain ⟨c, cs, heq, hc⟩ := exists_print hv.1
      have hopen : closing? ']' (printItems (item :: items) ++ ']' :: rest) = none := by
        rw [printItems, heq]
        exact closing?_starts hc (by decide)
      simp only [print, List.cons_append, List.append_assoc, List.nil_append, parseValue,
        skipSpace_starts (show starts '[' = true by decide), hopen, hread, Option.map_some]
  | object fields =>
    cases fields with
    | nil => rfl
    | cons field fields =>
      rw [print, List.length_cons, List.length_append] at hfuel
      have hread := parseFields_print (field :: fields) hv (List.cons_ne_nil _ _) rest fuel
        (by omega)
      have hopen : closing? '\x7d' (printFields (field :: fields) ++ '\x7d' :: rest) = none :=
        closing?_starts (show starts '"' = true by decide) (by decide)
      simp only [print, List.cons_append, List.append_assoc, List.nil_append, parseValue,
        skipSpace_starts (show starts '\x7b' = true by decide), hopen, hread, Option.map_some]

theorem parseItems_print (items : List Json) (hitems : PrintableItems items) (hne : items ≠ [])
    (rest : List Char) (fuel : Nat) (hfuel : 2 * (printItems items).length + 1 ≤ fuel) :
    parseItems fuel (printItems items ++ ']' :: rest) = some (items, rest) := by
  obtain ⟨fuel, rfl⟩ : ∃ k, fuel = k + 1 := ⟨fuel - 1, by omega⟩
  match items, hne with
  | [item], _ =>
    rw [printItems_singleton] at hfuel
    have hread := parseValue_print item hitems.1 (']' :: rest) (ends_cons (by decide)) fuel
      (by omega)
    rw [printItems_singleton]
    simp (disch := decide) only [parseItems, hread, skipSpace_cons]
  | item :: next :: items, _ =>
    rw [printItems_cons, List.length_append, List.length_cons] at hfuel
    have hread := parseValue_print item hitems.1
      (',' :: (printItems (next :: items) ++ ']' :: rest)) (ends_cons (by decide)) fuel (by omega)
    have hreads := parseItems_print (next :: items) hitems.2 (List.cons_ne_nil _ _) rest fuel
      (by omega)
    rw [printItems_cons, List.append_assoc, List.cons_append]
    simp (disch := decide) only [parseItems, hread, skipSpace_cons, hreads, Option.map_some]

theorem parseFields_print (fields : List (List Char × Json)) (hfields : PrintableFields fields)
    (hne : fields ≠ []) (rest : List Char) (fuel : Nat)
    (hfuel : 2 * (printFields fields).length + 1 ≤ fuel) :
    parseFields fuel (printFields fields ++ '\x7d' :: rest) = some (fields, rest) := by
  obtain ⟨fuel, rfl⟩ : ∃ k, fuel = k + 1 := ⟨fuel - 1, by omega⟩
  match fields, hne with
  | [(name, value)], _ =>
    rw [printFields_singleton, List.length_append, List.length_cons] at hfuel
    have hread := parseValue_print value hfields.1 ('\x7d' :: rest) (ends_cons (by decide)) fuel
      (by omega)
    obtain ⟨tail, htail, hname⟩ := stringRest_quote name (print value ++ '\x7d' :: rest)
    rw [printFields_singleton, List.append_assoc, List.cons_append, htail]
    simp (disch := decide) only [parseFields, skipSpace_cons, hname, hread]
  | (name, value) :: next :: fields, _ =>
    rw [printFields_cons, List.length_append, List.length_cons, List.length_append,
      List.length_cons] at hfuel
    have hread := parseValue_print value hfields.1
      (',' :: (printFields (next :: fields) ++ '\x7d' :: rest)) (ends_cons (by decide)) fuel
      (by omega)
    have hreads := parseFields_print (next :: fields) hfields.2 (List.cons_ne_nil _ _) rest fuel
      (by omega)
    obtain ⟨tail, htail, hname⟩ := stringRest_quote name
      (print value ++ ',' :: (printFields (next :: fields) ++ '\x7d' :: rest))
    rw [printFields_cons, List.append_assoc, List.cons_append, List.append_assoc,
      List.cons_append, htail]
    simp (disch := decide) only [parseFields, skipSpace_cons, hname, hread, hreads,
      Option.map_some]

end

/-- **Reading what was printed.** -/
theorem parse_print (hv : v.Printable) : parse (print v) = some v := by
  have hread := parseValue_print v hv [] (fun _ hc => nomatch hc) (2 * (print v).length + 2)
    (by omega)
  rw [List.append_nil] at hread
  rw [parse, hread]
  rfl

end Values

end Json

end Stargate.Base
