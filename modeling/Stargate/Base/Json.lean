import Stargate.Base.EcmaScript

/-!
# JSON texts

A parser for JSON, over lists of characters. A number stays the literal that it was written
as: what it stands for is up to the reader, and two readers may disagree.

- `Json.parse`: one value, with white space around it;
- `Json.get`: a field of an object; of two with the same name the later one;
- `parse_pair`: what is read from an object of two fields as the writers print it.
-/

namespace Stargate.Base

/-- A JSON value. -/
inductive Json where
  | null
  | bool (b : Bool)
  | number (literal : List Char)
  | string (text : List Char)
  | array (items : List Json)
  | object (fields : List (List Char × Json))

namespace Json

/-! ## Tokens -/

/-- The white space of JSON. -/
def skipSpace (cs : List Char) : List Char :=
  cs.dropWhile fun c => c == ' ' || c == '\t' || c == '\n' || c == '\r'

/-- A digit, a sign, the point or an exponent mark. -/
def isNumberChar (c : Char) : Bool := c.isDigit || c == '-' || c == '+' || c == '.' || isExpMark c

/-- Digits without a zero in front. -/
def isWhole (cs : List Char) : Bool :=
  cs != [] && cs.all Char.isDigit && (cs == ['0'] || cs.head? != some '0')

/-- One digit at least. -/
def isDigits (cs : List Char) : Bool := cs != [] && cs.all Char.isDigit

/-- What may stand after the whole part of a number. -/
def isExponent : List Char → Bool
  | [] => true
  | c :: '-' :: ds => isExpMark c && isDigits ds
  | c :: '+' :: ds => isExpMark c && isDigits ds
  | c :: ds => isExpMark c && isDigits ds

/-- A number without its sign. -/
def isUnsigned (cs : List Char) : Bool :=
  isWhole (cs.takeWhile Char.isDigit) &&
    match cs.dropWhile Char.isDigit with
    | '.' :: ds => isDigits (ds.takeWhile Char.isDigit) && isExponent (ds.dropWhile Char.isDigit)
    | ds => isExponent ds

/-- The grammar of numbers. -/
def isNumber : List Char → Bool
  | '-' :: cs => isUnsigned cs
  | cs => isUnsigned cs

/-- A number, up to the first character that cannot be part of one. -/
def parseNumber (cs : List Char) : Option (Json × List Char) :=
  let literal := cs.takeWhile isNumberChar
  if isNumber literal then some (.number literal, cs.dropWhile isNumberChar) else none

/-- The four digits after `\u`. -/
def codeUnit? (a b c d : Char) : Option Nat := do
  let a ← hexValue? a
  let b ← hexValue? b
  let c ← hexValue? c
  let d ← hexValue? d
  some (((a * 16 + b) * 16 + c) * 16 + d)

/-- The escapes of one character. -/
def escape? : Char → Option Char
  | '"' => some '"'
  | '\\' => some '\\'
  | '/' => some '/'
  | 'b' => some (Char.ofNat 8)
  | 'f' => some (Char.ofNat 12)
  | 'n' => some '\n'
  | 'r' => some '\r'
  | 't' => some '\t'
  | _ => none

/-- The rest of a string, after its opening quote. Half of a surrogate pair on its own is
refused. -/
def stringRest : List Char → Option (List Char × List Char)
  | [] => none
  | '"' :: rest => some ([], rest)
  | '\\' :: 'u' :: a :: b :: c :: d :: rest =>
    match codeUnit? a b c d with
    | none => none
    | some unit =>
      if unit < 0xD800 ∨ 0xE000 ≤ unit then
        (stringRest rest).map fun (text, rest) => (Char.ofNat unit :: text, rest)
      else if 0xDC00 ≤ unit then none
      else match rest with
        | '\\' :: 'u' :: e :: f :: g :: h :: rest =>
          match codeUnit? e f g h with
          | none => none
          | some low =>
            if 0xDC00 ≤ low ∧ low < 0xE000 then
              (stringRest rest).map fun (text, rest) =>
                (Char.ofNat (0x10000 + (unit - 0xD800) * 0x400 + (low - 0xDC00)) :: text, rest)
            else none
        | _ => none
  | '\\' :: c :: rest =>
    match escape? c with
    | none => none
    | some c => (stringRest rest).map fun (text, rest) => (c :: text, rest)
  | c :: rest =>
    if c == '\\' || c.toNat < 32 then none
    else (stringRest rest).map fun (text, rest) => (c :: text, rest)

/-! ## Values -/

/-- What stands after a closing bracket or brace, if it comes next. -/
def closing? (bracket : Char) (cs : List Char) : Option (List Char) :=
  match skipSpace cs with
  | c :: rest => if c = bracket then some rest else none
  | [] => none

mutual

/-- A value, and what stands after it. -/
def parseValue : Nat → List Char → Option (Json × List Char)
  | 0, _ => none
  | fuel + 1, cs =>
    match skipSpace cs with
    | 'n' :: 'u' :: 'l' :: 'l' :: rest => some (.null, rest)
    | 't' :: 'r' :: 'u' :: 'e' :: rest => some (.bool true, rest)
    | 'f' :: 'a' :: 'l' :: 's' :: 'e' :: rest => some (.bool false, rest)
    | '"' :: rest => (stringRest rest).map fun (text, rest) => (.string text, rest)
    | '[' :: rest =>
      match closing? ']' rest with
      | some rest => some (.array [], rest)
      | none => (parseItems fuel rest).map fun (items, rest) => (.array items, rest)
    | '\x7b' :: rest =>
      match closing? '\x7d' rest with
      | some rest => some (.object [], rest)
      | none => (parseFields fuel rest).map fun (fields, rest) => (.object fields, rest)
    | rest => parseNumber rest

/-- The items of an array, up to its closing bracket. -/
def parseItems : Nat → List Char → Option (List Json × List Char)
  | 0, _ => none
  | fuel + 1, cs =>
    match parseValue fuel cs with
    | none => none
    | some (item, rest) =>
      match skipSpace rest with
      | ',' :: rest => (parseItems fuel rest).map fun (items, rest) => (item :: items, rest)
      | ']' :: rest => some ([item], rest)
      | _ => none

/-- The fields of an object, up to its closing brace. -/
def parseFields : Nat → List Char → Option (List (List Char × Json) × List Char)
  | 0, _ => none
  | fuel + 1, cs =>
    match skipSpace cs with
    | '"' :: rest =>
      match stringRest rest with
      | none => none
      | some (name, rest) =>
        match skipSpace rest with
        | ':' :: rest =>
          match parseValue fuel rest with
          | none => none
          | some (value, rest) =>
            match skipSpace rest with
            | ',' :: rest =>
              (parseFields fuel rest).map fun (fields, rest) => ((name, value) :: fields, rest)
            | '\x7d' :: rest => some ([(name, value)], rest)
            | _ => none
        | _ => none
    | _ => none

end

/-- One value and nothing else. Every call consumes a character, or is the first one of an
array or an object. -/
def parse (cs : List Char) : Option Json :=
  match parseValue (2 * cs.length + 2) cs with
  | some (value, rest) => if skipSpace rest = [] then some value else none
  | none => none

/-- A field of an object; where a name is given twice, the later value counts. -/
def get (name : List Char) : Json → Option Json
  | .object fields => (fields.reverse.find? fun f => f.1 == name).map Prod.snd
  | _ => none

/-! ## What is read from texts as they are printed -/

section Printed

variable {name value name' literal : List Char}

/-- Text that stands between quotes as it is. -/
def IsPlain (text : List Char) : Prop := ∀ c ∈ text, c ≠ '"' ∧ c ≠ '\\' ∧ 32 ≤ c.toNat

instance decidableIsPlain : DecidablePred IsPlain := fun text =>
  List.decidableBAll (fun c => c ≠ '"' ∧ c ≠ '\\' ∧ 32 ≤ c.toNat) text

/-- A character that stands for itself. -/
theorem stringRest_cons {c : Char} (hquote : c ≠ '"') (hescape : c ≠ '\\')
    (hspace : 32 ≤ c.toNat) (rest : List Char) :
    stringRest (c :: rest) = (stringRest rest).map fun (text, rest) => (c :: text, rest) := by
  rw [stringRest.eq_def]
  split
  · next heq => cases heq
  · next heq => exact absurd (List.cons.inj heq).1 hquote
  · next heq => exact absurd (List.cons.inj heq).1 hescape
  · next heq => exact absurd (List.cons.inj heq).1 hescape
  · next heq =>
    obtain ⟨rfl, rfl⟩ := List.cons.inj heq
    rw [if_neg]
    simp [hescape]
    omega

theorem stringRest_plain (h : IsPlain value) (rest : List Char) :
    stringRest (value ++ '"' :: rest) = some (value, rest) := by
  induction value with
  | nil => rfl
  | cons c value ih =>
    obtain ⟨hquote, hescape, hspace⟩ := h c List.mem_cons_self
    have htail := ih fun x hx => h x (List.mem_cons_of_mem _ hx)
    rw [List.cons_append, stringRest_cons hquote hescape hspace, htail]
    rfl

/-- A number ends here. -/
def Ends (rest : List Char) : Prop := ∀ c ∈ rest.head?, isNumberChar c = false

theorem ends_cons {c : Char} {cs : List Char} (h : isNumberChar c = false) : Ends (c :: cs) := by
  rintro d ⟨⟩
  exact h

/-- A number, up to its end. -/
theorem parseNumber_append (h : ∀ c ∈ literal, isNumberChar c = true) {rest : List Char}
    (hrest : Ends rest) :
    parseNumber (literal ++ rest) =
      if isNumber literal then some (.number literal, rest) else none := by
  have htake : (literal ++ rest).takeWhile isNumberChar = literal := by
    rw [List.takeWhile_append_of_pos h]
    cases rest with
    | nil => exact List.append_nil literal
    | cons c rest =>
      rw [List.takeWhile_cons_of_neg (by simp [hrest c rfl]), List.append_nil]
  have hdrop : (literal ++ rest).dropWhile isNumberChar = rest := by
    rw [List.dropWhile_append_of_pos h]
    cases rest with
    | nil => rfl
    | cons c rest => rw [List.dropWhile_cons_of_neg (by simp [hrest c rfl])]
  unfold parseNumber
  rw [htake, hdrop]

theorem skipSpace_cons {c : Char} {cs : List Char} (h₁ : c ≠ ' ') (h₂ : c ≠ '\t') (h₃ : c ≠ '\n')
    (h₄ : c ≠ '\r') : skipSpace (c :: cs) = c :: cs := by
  simp [skipSpace, h₁, h₂, h₃, h₄]

/-- The literal of a number, where a value is expected. -/
theorem parseValue_number (hne : literal ≠ []) (h : ∀ c ∈ literal, isNumberChar c = true)
    (fuel : Nat) {rest : List Char} (hrest : Ends rest) :
    parseValue (fuel + 1) (literal ++ rest) =
      if isNumber literal then some (.number literal, rest) else none := by
  obtain ⟨c, cs, rfl⟩ := List.exists_cons_of_ne_nil hne
  have hc := h c List.mem_cons_self
  have hno : ∀ d, isNumberChar d = false → c ≠ d := by
    rintro d hd rfl
    rw [hd] at hc
    cases hc
  rw [← parseNumber_append h hrest, List.cons_append, parseValue,
    skipSpace_cons (hno _ rfl) (hno _ rfl) (hno _ rfl) (hno _ rfl)]
  split
  · next heq => exact absurd (List.cons.inj heq).1 (hno _ rfl)
  · next heq => exact absurd (List.cons.inj heq).1 (hno _ rfl)
  · next heq => exact absurd (List.cons.inj heq).1 (hno _ rfl)
  · next heq => exact absurd (List.cons.inj heq).1 (hno _ rfl)
  · next heq => exact absurd (List.cons.inj heq).1 (hno _ rfl)
  · next heq => exact absurd (List.cons.inj heq).1 (hno _ rfl)
  · rfl

/-- A number ends before a brace. -/
theorem parseValue_literal (hne : literal ≠ []) (h : ∀ c ∈ literal, isNumberChar c = true)
    (fuel : Nat) (rest : List Char) :
    parseValue (fuel + 1) (literal ++ '\x7d' :: rest) =
      if isNumber literal then some (.number literal, '\x7d' :: rest) else none :=
  parseValue_number hne h fuel (ends_cons (by decide))

/-- The fields from the second one on, and the closing brace. -/
def lastField (name' literal : List Char) : List Char :=
  '"' :: (name' ++ '"' :: ':' :: (literal ++ ['\x7d']))

/-- The text of an object of two fields, the first one a string. -/
def pairText (name value name' literal : List Char) : List Char :=
  '\x7b' :: '"' :: (name ++ '"' :: ':' :: '"' :: (value ++ '"' :: ',' :: lastField name' literal))

theorem parse_lastField {x : Option Json} (hname' : IsPlain name')
    (hx : ∀ fuel, parseValue (fuel + 1) (literal ++ ['\x7d']) = x.map fun x => (x, ['\x7d']))
    (fuel : Nat) : parseFields (fuel + 2) (lastField name' literal) =
      x.map fun x => ([(name', x)], []) := by
  rw [lastField, parseFields]
  simp (disch := decide) only [skipSpace_cons, stringRest_plain hname', hx fuel]
  cases x with
  | none => rfl
  | some x => rfl

/-- **What is read from an object of two fields.** -/
theorem parse_pair {x : Option Json} (hname : IsPlain name) (hvalue : IsPlain value)
    (hname' : IsPlain name')
    (hx : ∀ fuel, parseValue (fuel + 1) (literal ++ ['\x7d']) = x.map fun x => (x, ['\x7d'])) :
    parse (pairText name value name' literal) =
      x.map fun x => .object [(name, .string value), (name', x)] := by
  obtain ⟨fuel, hfuel⟩ : ∃ fuel, 2 * (pairText name value name' literal).length + 2 = fuel + 4 :=
    ⟨2 * (pairText name value name' literal).length - 2, by
      have : 0 < (pairText name value name' literal).length := by simp [pairText]
      omega⟩
  have hstring : parseValue (fuel + 2) ('"' :: (value ++ '"' :: ',' :: lastField name' literal)) =
      some (.string value, ',' :: lastField name' literal) := by
    simp (disch := decide) only [parseValue, skipSpace_cons, stringRest_plain hvalue,
      Option.map_some]
  have hfields : parseFields (fuel + 3) ('"' :: (name ++ '"' :: ':' :: '"' ::
      (value ++ '"' :: ',' :: lastField name' literal))) =
      x.map fun x => ([(name, .string value), (name', x)], []) := by
    rw [parseFields]
    simp (disch := decide) only [skipSpace_cons, stringRest_plain hname, hstring,
      parse_lastField hname' hx]
    cases x with
    | none => rfl
    | some x => rfl
  have hopen : closing? '\x7d' ('"' :: (name ++ '"' :: ':' :: '"' ::
      (value ++ '"' :: ',' :: lastField name' literal))) = none := rfl
  rw [parse, hfuel, pairText, parseValue]
  simp (disch := decide) only [skipSpace_cons, hopen, hfields]
  cases x with
  | none => rfl
  | some x => rfl

end Printed

end Json

end Stargate.Base
