import Stargate.Base.DecimalText

/-!
# HTTP messages with a length

A message is lines of ASCII up to an empty one, and then a body of as many bytes as its
`Content-Length` says. The body may be any text, whose bytes are not as many as its characters.

- `utf8`, `fromUtf8`: bytes of texts;
- `Message.text`: a message as it is sent;
- `read`: a client, `read_text`: it finds the message, whatever comes after it.
-/

namespace Stargate.Base

namespace Http

/-! ## Bytes -/

abbrev Bytes := List UInt8

/-- The bytes of a text. -/
def utf8 (cs : List Char) : Bytes := cs.flatMap String.utf8EncodeChar

/-- The text of bytes. -/
def fromUtf8 (bs : Bytes) : Option (List Char) := bs.toByteArray.utf8Decode?.map Array.toList

section Bytes

variable {cs ds : List Char} {l rest : Bytes}

theorem fromUtf8_utf8 (cs : List Char) : fromUtf8 (utf8 cs) = some cs := by
  show (List.utf8Encode cs).utf8Decode?.map Array.toList = some cs
  rw [List.utf8Decode?_utf8Encode]
  rfl

theorem utf8_append (cs ds : List Char) : utf8 (cs ++ ds) = utf8 cs ++ utf8 ds :=
  List.flatMap_append

/-- A character that stands in a line as one byte, and does not end it. -/
def IsPrintable (c : Char) : Prop := 32 ≤ c.toNat ∧ c.toNat < 128

theorem utf8EncodeChar_printable {c : Char} (h : IsPrintable c) :
    String.utf8EncodeChar c = [c.toUInt8] := by
  have hsize : c.utf8Size = 1 := by
    rw [Char.utf8Size_eq_one_iff, UInt32.le_iff_toNat_le]
    exact Nat.le_of_lt_succ h.2
  rw [String.utf8EncodeChar_eq_singleton hsize]
  rfl

theorem toUInt8_ne {c : Char} (h : IsPrintable c) : c.toUInt8 ≠ 13 := by
  intro heq
  have hmod : c.toNat % 256 = 13 := congrArg UInt8.toNat heq
  have := h.1
  have := h.2
  omega

/-- A line of printable characters has no carriage return. -/
theorem ne_of_mem_utf8 (h : ∀ c ∈ cs, IsPrintable c) : ∀ b ∈ utf8 cs, b ≠ 13 := by
  intro b hb
  obtain ⟨c, hc, hbc⟩ := List.mem_flatMap.mp hb
  rw [utf8EncodeChar_printable (h c hc)] at hbc
  obtain rfl := List.mem_singleton.mp hbc
  exact toUInt8_ne (h c hc)

theorem utf8_ne_nil (hne : cs ≠ []) (h : ∀ c ∈ cs, IsPrintable c) : utf8 cs ≠ [] := by
  obtain ⟨c, cs, rfl⟩ := List.exists_cons_of_ne_nil hne
  rw [utf8, List.flatMap_cons, utf8EncodeChar_printable (h c List.mem_cons_self)]
  exact List.cons_ne_nil _ _

end Bytes

/-! ## Messages -/

/-- A message: its first line, its headers and its body. -/
structure Message where
  start : List Char
  headers : List (List Char × List Char)
  body : List Char
  deriving DecidableEq

/-- The end of a line. -/
def crlf : List Char := ['\r', '\n']

def headerLine (h : List Char × List Char) : List Char := h.1 ++ ':' :: ' ' :: h.2

/-- The lines in front of the empty one. -/
def Message.lines (m : Message) : List (List Char) := m.start :: m.headers.map headerLine

/-- A message as it is sent. -/
def Message.text (m : Message) : List Char :=
  m.lines.flatMap (fun line => line ++ crlf) ++ (crlf ++ m.body)

/-- The first line, and what comes after it. -/
def readLine : Bytes → Option (Bytes × Bytes)
  | 13 :: 10 :: rest => some ([], rest)
  | b :: rest => (readLine rest).map fun (line, rest) => (b :: line, rest)
  | [] => none

/-- The lines up to an empty one. -/
def readHead : Nat → Bytes → Option (List Bytes × Bytes)
  | 0, _ => none
  | fuel + 1, bs =>
    match readLine bs with
    | none => none
    | some ([], rest) => some ([], rest)
    | some (b :: line, rest) =>
      (readHead fuel rest).map fun (lines, rest) => ((b :: line) :: lines, rest)

/-- A header and its value. -/
def parseHeader (line : List Char) : List Char × List Char :=
  (before ':' line, (after ':' line).dropWhile (· == ' '))

def contentLength : List Char := "Content-Length".toList

/-- What a client makes of the bytes that it receives. -/
def read (wire : Bytes) : Option Message :=
  match readHead (wire.length + 1) wire with
  | some (lines, rest) =>
    match lines.mapM fromUtf8 with
    | some (start :: headers) => do
      let headers := headers.map parseHeader
      let n ← (headers.lookup contentLength).bind digits?
      if n ≤ rest.length then
        let body ← fromUtf8 (rest.take n)
        some { start, headers, body }
      else none
    | _ => none
  | none => none

/-- A message whose lines can be told apart, with the length of its body. -/
structure Message.WellFormed (m : Message) : Prop where
  nonempty : ∀ line ∈ m.lines, line ≠ []
  printable : ∀ line ∈ m.lines, ∀ c ∈ line, IsPrintable c
  names : ∀ h ∈ m.headers, ':' ∉ h.1
  values : ∀ h ∈ m.headers, h.2.head? ≠ some ' '
  length : m.headers.lookup contentLength = some (Nat.toDigits 10 (utf8 m.body).length)

section Read

variable {l rest : Bytes} {m : Message}

theorem readLine_append (h : ∀ b ∈ l, b ≠ 13) (rest : Bytes) :
    readLine (l ++ 13 :: 10 :: rest) = some (l, rest) := by
  induction l with
  | nil => rfl
  | cons b l ih =>
    have hb : b ≠ 13 := h b List.mem_cons_self
    rw [List.cons_append, readLine.eq_def]
    split
    · next heq => exact absurd (List.cons.inj heq).1 hb
    · next heq =>
      cases heq
      rw [ih fun b hb => h b (List.mem_cons_of_mem _ hb)]
      rfl
    · next heq => cases heq

theorem readHead_append {lines : List Bytes} (hne : ∀ l ∈ lines, l ≠ [])
    (h : ∀ l ∈ lines, ∀ b ∈ l, b ≠ 13) (rest : Bytes) {fuel : Nat} (hfuel : lines.length < fuel) :
    readHead fuel (lines.flatMap (fun l => l ++ [13, 10]) ++ (13 :: 10 :: rest))
      = some (lines, rest) := by
  induction lines generalizing fuel with
  | nil =>
    obtain ⟨fuel, rfl⟩ : ∃ k, fuel = k + 1 := ⟨fuel - 1, by omega⟩
    rfl
  | cons l lines ih =>
    obtain ⟨fuel, rfl⟩ : ∃ k, fuel = k + 1 := ⟨fuel - 1, by omega⟩
    have hread := ih (fun l hl => hne l (List.mem_cons_of_mem _ hl))
      (fun l hl => h l (List.mem_cons_of_mem _ hl)) (Nat.lt_of_succ_lt_succ hfuel)
    obtain ⟨b, l, rfl⟩ := List.exists_cons_of_ne_nil (hne l List.mem_cons_self)
    have hline := readLine_append (h _ List.mem_cons_self)
      (lines.flatMap (fun l => l ++ [13, 10]) ++ (13 :: 10 :: rest))
    have hbytes : ((b :: l) :: lines).flatMap (fun l => l ++ [13, 10]) ++ (13 :: 10 :: rest)
        = (b :: l) ++ 13 :: 10 :: (lines.flatMap (fun l => l ++ [13, 10]) ++ (13 :: 10 :: rest)) := by
      simp
    rw [hbytes, readHead, hline]
    simp only [hread, Option.map_some]

theorem parseHeader_headerLine {h : List Char × List Char} (hname : ':' ∉ h.1)
    (hvalue : h.2.head? ≠ some ' ') : parseHeader (headerLine h) = h := by
  obtain ⟨name, value⟩ := h
  rw [parseHeader, headerLine, before_append hname, after_append hname, List.dropWhile_cons_of_pos
    (by rfl)]
  cases value with
  | nil => rfl
  | cons c value =>
    have hc : c ≠ ' ' := fun heq => hvalue (congrArg some heq)
    rw [List.dropWhile_cons_of_neg (by simpa using hc)]

theorem mapM_fromUtf8 (lines : List (List Char)) :
    (lines.map utf8).mapM fromUtf8 = some lines := by
  induction lines with
  | nil => rfl
  | cons line lines ih =>
    rw [List.map_cons, List.mapM_cons, fromUtf8_utf8, ih]
    rfl

theorem utf8_lines (lines : List (List Char)) :
    utf8 (lines.flatMap fun line => line ++ crlf)
      = (lines.map utf8).flatMap fun l => l ++ [13, 10] := by
  induction lines with
  | nil => rfl
  | cons line lines ih =>
    rw [List.flatMap_cons, utf8_append, ih, utf8_append]
    rfl

/-- **A client reads the message that was sent**, also where more follows. -/
theorem read_text (hm : m.WellFormed) (more : Bytes) : read (utf8 m.text ++ more) = some m := by
  have hwire : utf8 m.text ++ more
      = (m.lines.map utf8).flatMap (fun l => l ++ [13, 10])
        ++ (13 :: 10 :: (utf8 m.body ++ more)) := by
    rw [Message.text, utf8_append, utf8_append, utf8_lines, List.append_assoc, List.append_assoc]
    rfl
  have hlen : (m.lines.map utf8).length < (utf8 m.text ++ more).length + 1 := by
    have hle : ∀ lines : List Bytes,
        lines.length ≤ (lines.flatMap fun l => l ++ [13, 10]).length := by
      intro lines
      induction lines with
      | nil => exact Nat.le_refl 0
      | cons l lines ih => simp at ih ⊢; omega
    have := hle (m.lines.map utf8)
    rw [hwire, List.length_append]
    omega
  have hnonempty : ∀ l ∈ m.lines.map utf8, l ≠ [] := by
    intro l hl
    obtain ⟨line, hline, rfl⟩ := List.mem_map.mp hl
    exact utf8_ne_nil (hm.nonempty line hline) (hm.printable line hline)
  have hreturn : ∀ l ∈ m.lines.map utf8, ∀ b ∈ l, b ≠ 13 := by
    intro l hl
    obtain ⟨line, hline, rfl⟩ := List.mem_map.mp hl
    exact ne_of_mem_utf8 (hm.printable line hline)
  have hread := readHead_append hnonempty hreturn (utf8 m.body ++ more) hlen
  have hheaders : (m.headers.map headerLine).map parseHeader = m.headers := by
    rw [List.map_map]
    refine (List.map_congr_left fun h hh => ?_).trans (List.map_id _)
    exact parseHeader_headerLine (hm.names h hh) (hm.values h hh)
  have hdigits : digits? (Nat.toDigits 10 (utf8 m.body).length)
      = some (utf8 m.body).length := by
    rw [digits?_of_isDigit Nat.toDigits_ne_nil isDigit_toDigits, Nat.ofDigitChars_ten_toDigits]
  rw [← hwire] at hread
  rw [read, hread]
  simp only [mapM_fromUtf8, Message.lines, hheaders, hm.length, Option.bind_eq_bind,
    Option.bind_some, hdigits, List.length_append, Nat.le_add_right, if_true, List.take_left,
    fromUtf8_utf8]

end Read

end Http

end Stargate.Base
