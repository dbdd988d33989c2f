import Stargate.Base.LeadingBits
import Stargate.ApiKeys.IpAllowList

/-!
# Ranges of addresses (`ipMatchesCidr`)

An entry of an allow list with a `/` is a range of IPv4 addresses. The code reads its parts
with `Number` and `parseInt` and computes with the 32-bit operators, and nothing checks what
was read.

- `quad?`, `range?`: addresses and ranges that are well formed;
- `matches_quads_iff`: on these the code compares leading bits;
- `entry_decision`: what it compares on any entry and any client;
- `admits_malformed_client`, `admits_own_address`: what an entry with four parts lets in,
  whatever the parts are.
-/

namespace Stargate.ApiKeys

open Base

/-! ## Addresses and ranges as they are written -/

/-- The number of four octets. -/
def quadBits (a b c d : Nat) : BitVec 32 :=
  BitVec.ofNat 32 (a * 2 ^ 24 + b * 2 ^ 16 + c * 2 ^ 8 + d)

/-- A decimal octet. -/
def octet? (cs : List Char) : Option Nat := (digits? cs).filter (· ≤ 255)

/-- The address that four decimal octets are. -/
def quad? (cs : List Char) : Option (BitVec 32) :=
  match (cs.splitOn '.').map octet? with
  | [some a, some b, some c, some d] => some (quadBits a b c d)
  | _ => none

/-- The length of a prefix. -/
def prefixLength? (cs : List Char) : Option Nat := (digits? cs).filter (· ≤ 32)

/-- A range: its address and the length of its prefix. -/
def range? (cs : List Char) : Option (BitVec 32 × Nat) :=
  match cs.splitOn '/' with
  | [range, bits] => (quad? range).bind fun y => (prefixLength? bits).map fun n => (y, n)
  | _ => none

/-- Text of four parts between dots. -/
def FourParts (cs : List Char) : Prop := (cs.splitOn '.').length = 4

instance instDecidableFourParts (cs : List Char) : Decidable (FourParts cs) :=
  inferInstanceAs (Decidable (_ = _))

/-- `createApiKeySchema` on an element of `allowed_ips`. -/
def admitsEntry (entry : String) : Bool := entry ≠ ""

/-- Four octets. -/
structure Quad where
  a : Fin 256
  b : Fin 256
  c : Fin 256
  d : Fin 256
  deriving DecidableEq

namespace Quad

/-- The address, as a number. -/
def bits (q : Quad) : BitVec 32 := quadBits q.a q.b q.c q.d

/-- The address in plain decimal. -/
def chars (q : Quad) : List Char :=
  Nat.toDigits 10 q.a ++ '.' :: (Nat.toDigits 10 q.b ++ '.' :: (Nat.toDigits 10 q.c ++ '.' ::
    Nat.toDigits 10 q.d))

def text (q : Quad) : String := String.ofList q.chars

example : text ⟨192, 168, 0, 1⟩ = "192.168.0.1" := by decide +kernel

/-- The octets of a number. -/
def ofBits (x : BitVec 32) : Quad where
  a := ⟨x.toNat / 2 ^ 24, by omega⟩
  b := ⟨x.toNat / 2 ^ 16 % 256, by omega⟩
  c := ⟨x.toNat / 2 ^ 8 % 256, by omega⟩
  d := ⟨x.toNat % 256, by omega⟩

theorem bits_ofBits (x : BitVec 32) : (ofBits x).bits = x := by
  refine BitVec.eq_of_toNat_eq ?_
  have hx := x.isLt
  simp only [bits, quadBits, ofBits, BitVec.toNat_ofNat]
  omega

theorem bits_injective : Function.Injective bits := by
  rintro ⟨⟨a, ha⟩, ⟨b, hb⟩, ⟨c, hc⟩, ⟨d, hd⟩⟩ ⟨⟨a', ha'⟩, ⟨b', hb'⟩, ⟨c', hc'⟩, ⟨d', hd'⟩⟩ h
  have h := congrArg BitVec.toNat h
  simp only [bits, quadBits, BitVec.toNat_ofNat] at h
  obtain ⟨rfl, rfl, rfl, rfl⟩ : a = a' ∧ b = b' ∧ c = c' ∧ d = d' := by omega
  rfl

end Quad

/-! ## Parts of a text -/

section Parts

variable {cs ds : List Char} {c : Char}

theorem splitOn_before (c : Char) (cs : List Char) :
    ∃ tail, cs.splitOn c = before c cs :: tail := by
  by_cases h : c ∈ cs
  · obtain ⟨as, bs, rfl, has⟩ := List.eq_append_cons_of_mem h
    exact ⟨bs.splitOn c, by rw [splitOn_append has, before_append has]⟩
  · exact ⟨[], by rw [splitOn_of_not_mem h, before_of_not_mem h]⟩

/-- The first two parts of a text with a separator. -/
theorem splitOn_of_mem (h : c ∈ cs) :
    ∃ tail, cs.splitOn c = before c cs :: before c (after c cs) :: tail := by
  obtain ⟨as, bs, rfl, has⟩ := List.eq_append_cons_of_mem h
  obtain ⟨tail, htail⟩ := splitOn_before c bs
  exact ⟨tail, by rw [splitOn_append has, before_append has, after_append has, htail]⟩

/-- A character in front of a text goes into its first part. -/
theorem splitOn_cons {x : Char} (h : x ≠ c) (cs : List Char) :
    ∃ part parts, cs.splitOn c = part :: parts ∧ (x :: cs).splitOn c = (x :: part) :: parts := by
  obtain ⟨part, parts, hsplit⟩ := List.exists_cons_of_ne_nil (List.splitOn_ne_nil c cs)
  refine ⟨part, parts, hsplit, ?_⟩
  rw [List.splitOn_cons_eq_if_modifyHead, if_neg (by simpa using h), hsplit]
  rfl

end Parts

/-! ## Numbers -/

section Numbers

variable {cs : List Char} {n : Nat}

theorem digits?_eq_some : digits? cs = some n ↔
    cs ≠ [] ∧ (∀ c ∈ cs, c.isDigit = true) ∧ Nat.ofDigitChars 10 cs 0 = n := by
  constructor
  · intro h
    unfold digits? at h
    split_ifs at h with hdigits
    exact ⟨hdigits.1, List.all_eq_true.mp hdigits.2, Option.some.inj h⟩
  · rintro ⟨hne, hdigits, rfl⟩
    exact digits?_of_isDigit hne hdigits

theorem ofRat_natCast (h : n < 2 ^ 53) : JsNumber.ofRat n = .finite n := by
  have hlt : ¬(2 : ℚ) ^ 1024 ≤ |(n : ℚ)| := by
    rw [Nat.abs_cast, not_le]
    calc (n : ℚ) < 2 ^ 53 := by exact_mod_cast h
      _ ≤ 2 ^ 1024 := by gcongr <;> norm_num
  unfold JsNumber.ofRat
  rw [toBinary64_natCast h]
  dsimp only
  rw [if_neg hlt]

/-- `Number` of decimal digits. -/
theorem ofText_digits (h : digits? cs = some n) (hn : n < 2 ^ 53) :
    JsNumber.ofText cs = .finite n := by
  obtain ⟨hne, hdigits, rfl⟩ := digits?_eq_some.mp h
  obtain ⟨c, ds, rfl⟩ := List.exists_cons_of_ne_nil hne
  have hdecimal : JsNumber.ofDecimal (c :: ds)
      = .finite (Nat.ofDigitChars 10 (c :: ds) 0 : Nat) := by
    unfold JsNumber.ofDecimal
    rw [decimal?_eq_mantissa? rfl (hdigits c List.mem_cons_self) fun x hx => .inl (hdigits x hx),
      mantissa?_of_isDigit_whole hne hdigits]
    exact ofRat_natCast hn
  unfold JsNumber.ofText
  rw [trim_of_forall fun x hx => isSpace_of_isDigit (hdigits x hx)]
  split
  · next heq => cases heq
  · next x ds' heq =>
    obtain ⟨rfl, rfl⟩ := List.cons.inj heq
    -- the second character is a digit, so no radix follows
    have hx : ∀ d : Char, d.isDigit = false → (x == d) = false := fun d hd =>
      beq_eq_false_iff_ne.mpr (ne_of_isDigit (hdigits x (by simp)) hd)
    rw [hx 'x' rfl, hx 'X' rfl, hx 'o' rfl, hx 'O' rfl, hx 'b' rfl, hx 'B' rfl]
    exact hdecimal
  · rw [if_neg, if_neg]
    · exact hdecimal
    · rintro heq
      have := hdigits '-' (by rw [heq]; decide)
      cases this
    · rintro (heq | heq)
      · have := hdigits 'I' (by rw [heq]; decide)
        cases this
      · have := hdigits 'I' (by rw [heq]; decide)
        cases this

/-- `parseInt` of decimal digits. -/
theorem parseInt_digits (h : digits? cs = some n) (hn : n < 2 ^ 53) :
    parseInt cs = .finite n := by
  obtain ⟨hne, hdigits, rfl⟩ := digits?_eq_some.mp h
  obtain ⟨c, ds, rfl⟩ := List.exists_cons_of_ne_nil hne
  have hspace : (c :: ds).dropWhile isSpace = c :: ds :=
    List.dropWhile_cons_of_neg (by
      rw [isSpace_of_isDigit (hdigits c List.mem_cons_self)]
      exact Bool.false_ne_true)
  have hspan : (spanDigits (c :: ds)).1 = c :: ds := List.takeWhile_eq_self_iff.mpr hdigits
  unfold parseInt
  rw [hspace]
  split
  · next heq =>
    obtain ⟨rfl, -⟩ := List.cons.inj heq
    cases hdigits '-' List.mem_cons_self
  · next heq =>
    obtain ⟨rfl, -⟩ := List.cons.inj heq
    cases hdigits '+' List.mem_cons_self
  · dsimp only
    rw [hspan]
    dsimp only
    rw [one_mul, Int.cast_natCast]
    exact ofRat_natCast hn

theorem toInt32_natCast : toInt32 (.finite n) = BitVec.ofNat 32 n := by
  show BitVec.ofInt 32 ((n : ℚ).num.tdiv (n : ℚ).den) = _
  rw [Rat.num_natCast, Rat.den_natCast, Nat.cast_one, Int.tdiv_one]
  exact BitVec.ofInt_natCast 32 n

/-- The mask of a prefix is that many leading ones. -/
theorem and_cidrMask_eq_iff {x y : BitVec 32} (hn : n ≤ 32) :
    x &&& cidrMask (.finite n) = y &&& cidrMask (.finite n) ↔ AgreeOn n x y := by
  by_cases hzero : n = 0
  · -- a shift by 32 would not shift, so the code has a mask of its own for zero bits
    subst hzero
    have hmask : cidrMask (.finite (0 : Nat)) = 0#32 := rfl
    rw [hmask, BitVec.and_zero, BitVec.and_zero]
    exact iff_of_true rfl fun i hi => absurd hi (Nat.not_lt_zero i)
  · have hminus : minus32 (.finite n) = .finite ((32 - n : Nat) : ℚ) := by
      have hcast : (32 : ℚ) - n = ((32 - n : Nat) : ℚ) := by
        rw [Nat.cast_sub hn]
        rfl
      show JsNumber.ofRat (32 - n) = _
      rw [hcast]
      exact ofRat_natCast (by omega)
    have hshift : (toInt32 (minus32 (.finite n))).toNat % 32 = 32 - n := by
      rw [hminus, toInt32_natCast, BitVec.toNat_ofNat]
      omega
    have hmask : cidrMask (.finite n) = BitVec.allOnes 32 <<< (32 - n) := by
      unfold cidrMask
      rw [if_neg (by simpa using hzero), hshift]
    rw [hmask]
    exact and_leadingOnes_eq_iff hn

end Numbers

/-! ## What the code compares -/

section Decision

variable {ip cidr : String} {range rest : List Char} {x y : BitVec 32} {n : Nat}

/-- `reduce` over four parts. -/
theorem ipNumber_four {p q r s : JsNumber} {a b c d : Nat} (hp : toInt32 p = BitVec.ofNat 32 a)
    (hq : toInt32 q = BitVec.ofNat 32 b) (hr : toInt32 r = BitVec.ofNat 32 c)
    (hs : toInt32 s = BitVec.ofNat 32 d) (hb : b < 2 ^ 8) (hc : c < 2 ^ 8) (hd : d < 2 ^ 8) :
    ipNumber [p, q, r, s] = quadBits a b c d := by
  have hfirst : (0 : BitVec 32) <<< 8 ||| BitVec.ofNat 32 a = BitVec.ofNat 32 a := by
    show 0#32 <<< 8 ||| _ = _
    rw [BitVec.zero_shiftLeft, BitVec.zero_or]
  have hnumber : (((a * 2 ^ 8 + b) * 2 ^ 8 + c) * 2 ^ 8 + d)
      = a * 2 ^ 24 + b * 2 ^ 16 + c * 2 ^ 8 + d := by ring
  unfold ipNumber quadBits
  rw [List.foldl_cons, List.foldl_cons, List.foldl_cons, List.foldl_cons, List.foldl_nil, hp, hq,
    hr, hs, hfirst, shiftLeft_or_ofNat hb, shiftLeft_or_ofNat hc, shiftLeft_or_ofNat hd, hnumber]

theorem toInt32_octet {cs : List Char} (h : octet? cs = some n) :
    toInt32 (JsNumber.ofText cs) = BitVec.ofNat 32 n ∧ n < 2 ^ 8 := by
  obtain ⟨hdigits, hle⟩ := Option.filter_eq_some_iff.mp h
  have hle : n ≤ 255 := of_decide_eq_true hle
  rw [ofText_digits hdigits (by omega), toInt32_natCast]
  exact ⟨rfl, by omega⟩

theorem quad?_eq_some {cs : List Char} : quad? cs = some x ↔
    ∃ as bs cs' ds a b c d, cs.splitOn '.' = [as, bs, cs', ds] ∧ octet? as = some a ∧
      octet? bs = some b ∧ octet? cs' = some c ∧ octet? ds = some d ∧ x = quadBits a b c d := by
  unfold quad?
  constructor
  · intro h
    split at h
    · next a b c d hparts =>
      obtain ⟨as, ps, hsplit, ha, hps⟩ := List.map_eq_cons_iff.mp hparts
      obtain ⟨bs, ps, rfl, hb, hps⟩ := List.map_eq_cons_iff.mp hps
      obtain ⟨cs', ps, rfl, hc, hps⟩ := List.map_eq_cons_iff.mp hps
      obtain ⟨ds, ps, rfl, hd, hps⟩ := List.map_eq_cons_iff.mp hps
      rw [List.map_eq_nil_iff] at hps
      subst hps
      exact ⟨as, bs, cs', ds, a, b, c, d, hsplit, ha, hb, hc, hd, (Option.some.inj h).symm⟩
    · cases h
  · rintro ⟨as, bs, cs', ds, a, b, c, d, hsplit, ha, hb, hc, hd, rfl⟩
    rw [hsplit, List.map_cons, List.map_cons, List.map_cons, List.map_cons, List.map_nil, ha, hb,
      hc, hd]

/-- The number that the code makes of an address. -/
def addressNumber (cs : List Char) : BitVec 32 := ipNumber ((cs.splitOn '.').map JsNumber.ofText)

/-- It is the address, where that is well formed. -/
theorem addressNumber_of_quad? {cs : List Char} (h : quad? cs = some x) :
    FourParts cs ∧ addressNumber cs = x := by
  obtain ⟨as, bs, cs', ds, a, b, c, d, hsplit, ha, hb, hc, hd, rfl⟩ := quad?_eq_some.mp h
  obtain ⟨ha, -⟩ := toInt32_octet ha
  obtain ⟨hb, hb'⟩ := toInt32_octet hb
  obtain ⟨hc, hc'⟩ := toInt32_octet hc
  obtain ⟨hd, hd'⟩ := toInt32_octet hd
  refine ⟨congrArg List.length hsplit, ?_⟩
  unfold addressNumber
  rw [hsplit]
  exact ipNumber_four ha hb hc hd hb' hc' hd'

/-- The address of an entry, up to its first `/`. -/
def entryAddress (cidr : String) : List Char := before '/' cidr.toList

/-- The mask of an entry. -/
def entryMask (cidr : String) : BitVec 32 :=
  cidrMask (parseInt (before '/' (after '/' cidr.toList)))

/-- What the code compares on an entry with a `/`. -/
theorem entry_decision (h : '/' ∈ cidr.toList) : ipMatchesCidr ip cidr = true ↔
    FourParts ip.toList ∧ FourParts (entryAddress cidr) ∧
      addressNumber ip.toList &&& entryMask cidr
        = addressNumber (entryAddress cidr) &&& entryMask cidr := by
  obtain ⟨tail, hsplit⟩ := splitOn_of_mem h
  unfold ipMatchesCidr
  rw [hsplit]
  dsimp only
  rw [List.length_map, List.length_map]
  by_cases hparts : (ip.toList.splitOn '.').length ≠ 4 ∨
      ((before '/' cidr.toList).splitOn '.').length ≠ 4
  · rw [if_pos hparts]
    constructor
    · intro hfalse
      cases hfalse
    · rintro ⟨hip, hrange, -⟩
      exact absurd ⟨hip, hrange⟩ (not_and_or.mpr hparts)
  · obtain ⟨hip, hrange⟩ := not_or.mp hparts
    rw [if_neg hparts, beq_iff_eq]
    exact ⟨fun heq => ⟨not_not.mp hip, not_not.mp hrange, heq⟩, fun hall => hall.2.2⟩

/-- A well-formed entry has its address and its mask. -/
theorem entry_of_range? (h : range? cidr.toList = some (y, n)) :
    '/' ∈ cidr.toList ∧ n ≤ 32 ∧ quad? (entryAddress cidr) = some y ∧
      entryMask cidr = cidrMask (.finite n) := by
  have hmem : '/' ∈ cidr.toList := by
    by_contra hmem
    rw [range?, splitOn_of_not_mem hmem] at h
    cases h
  obtain ⟨tail, hsplit⟩ := splitOn_of_mem hmem
  rw [range?, hsplit] at h
  cases tail with
  | cons part parts => cases h
  | nil =>
    obtain ⟨y', hy', hrest⟩ := Option.bind_eq_some_iff.mp h
    obtain ⟨n', hn', heq⟩ := Option.map_eq_some_iff.mp hrest
    obtain ⟨rfl, rfl⟩ := Prod.mk.inj heq
    obtain ⟨hdigits, hle⟩ := Option.filter_eq_some_iff.mp hn'
    have hle : n' ≤ 32 := of_decide_eq_true hle
    refine ⟨hmem, hle, hy', ?_⟩
    rw [entryMask, parseInt_digits hdigits (by omega)]

/-- **On well-formed ranges and addresses the code compares leading bits.** -/
theorem matches_quads_iff (hip : quad? ip.toList = some x)
    (hcidr : range? cidr.toList = some (y, n)) :
    ipMatchesCidr ip cidr = true ↔ AgreeOn n x y := by
  obtain ⟨hmem, hn, hy, hmask⟩ := entry_of_range? hcidr
  obtain ⟨hipParts, hipNumber⟩ := addressNumber_of_quad? hip
  obtain ⟨hentryParts, hentryNumber⟩ := addressNumber_of_quad? hy
  rw [entry_decision hmem, hipNumber, hentryNumber, hmask, and_cidrMask_eq_iff hn]
  exact ⟨fun h => h.2.2, fun h => ⟨hipParts, hentryParts, h⟩⟩

end Decision

/-! ## Plain addresses -/

section Plain

theorem octet?_toDigits (n : Fin 256) : octet? (Nat.toDigits 10 n) = some n.val := by
  have hdigits : digits? (Nat.toDigits 10 n) = some n.val :=
    digits?_eq_some.mpr ⟨Nat.toDigits_ne_nil, isDigit_toDigits, Nat.ofDigitChars_ten_toDigits⟩
  exact Option.filter_eq_some_iff.mpr ⟨hdigits, decide_eq_true (by omega)⟩

theorem Quad.quad?_chars (q : Quad) : quad? q.chars = some q.bits := by
  have hdot : ∀ n : Fin 256, '.' ∉ Nat.toDigits 10 n.val := fun n =>
    not_mem_of_isDigit rfl isDigit_toDigits
  refine quad?_eq_some.mpr ⟨_, _, _, _, _, _, _, _, ?_, octet?_toDigits q.a, octet?_toDigits q.b,
    octet?_toDigits q.c, octet?_toDigits q.d, rfl⟩
  rw [chars, splitOn_append (hdot q.a), splitOn_append (hdot q.b), splitOn_append (hdot q.c),
    splitOn_of_not_mem (hdot q.d)]

theorem Quad.slash_not_mem (q : Quad) : '/' ∉ q.chars := by
  have hslash : ∀ n : Fin 256, '/' ∉ Nat.toDigits 10 n.val := fun n =>
    not_mem_of_isDigit rfl isDigit_toDigits
  simp [chars, hslash]

theorem Quad.text_eq_iff (p q : Quad) : p.text = q.text ↔ p.bits = q.bits := by
  constructor
  · intro h
    have hchars : p.chars = q.chars := String.ofList_injective h
    have hquad := p.quad?_chars
    rw [hchars, q.quad?_chars] at hquad
    exact (Option.some.inj hquad).symm
  · intro h
    rw [Quad.bits_injective h]

theorem prefixLength?_toDigits (n : Fin 33) : prefixLength? (Nat.toDigits 10 n) = some n.val := by
  have hdigits : digits? (Nat.toDigits 10 n) = some n.val :=
    digits?_eq_some.mpr ⟨Nat.toDigits_ne_nil, isDigit_toDigits, Nat.ofDigitChars_ten_toDigits⟩
  exact Option.filter_eq_some_iff.mpr ⟨hdigits, decide_eq_true (by omega)⟩

/-- An entry of a list: a range, or an address without a `/`. -/
inductive Entry where
  | range (address : Quad) (bits : Fin 33)
  | plain (address : String) (noSlash : '/' ∉ address.toList)

namespace Entry

/-- The entry as it is stored. -/
def text : Entry → String
  | .range address bits => String.ofList (address.chars ++ '/' :: Nat.toDigits 10 bits)
  | .plain address _ => address

example : text (.range ⟨10, 0, 0, 0⟩ 8) = "10.0.0.0/8" := by decide +kernel

/-- The entry covers an address: by the leading bits of its range, or as the same text. -/
def Matches (ip : Quad) : Entry → Prop
  | .range address bits => ∀ i < bits.val, ip.bits.getMsbD i = address.bits.getMsbD i
  | .plain address _ => ip.text = address

end Entry

/-- The texts of two plain addresses differ where the addresses do. -/
theorem Entry.matches_plain (ip address : Quad) (h : '/' ∉ address.text.toList) :
    Matches ip (.plain address.text h) ↔ ip.bits = address.bits :=
  ip.text_eq_iff address

theorem range?_text (address : Quad) (bits : Fin 33) :
    range? (Entry.text (.range address bits)).toList = some (address.bits, bits.val) := by
  have hslash : '/' ∉ Nat.toDigits 10 bits.val := not_mem_of_isDigit rfl isDigit_toDigits
  show range? (String.ofList _).toList = _
  rw [String.toList_ofList, range?, splitOn_append address.slash_not_mem, splitOn_of_not_mem hslash]
  dsimp only
  rw [address.quad?_chars, prefixLength?_toDigits]
  rfl

theorem ipMatchesCidr_text (ip : Quad) (e : Entry) :
    ipMatchesCidr ip.text e.text = true ↔ e.Matches ip := by
  cases e with
  | range address bits =>
    have hip : quad? ip.text.toList = some ip.bits := by
      rw [Quad.text, String.toList_ofList]
      exact ip.quad?_chars
    exact matches_quads_iff hip (range?_text address bits)
  | plain address noSlash =>
    show ipMatchesCidr ip.text address = true ↔ ip.text = address
    unfold ipMatchesCidr
    rw [splitOn_of_not_mem noSlash]
    exact beq_iff_eq

/-- **CIDR matching is correct on well-formed input**: a range holds the addresses whose leading
bits are its own, a plain address only itself, and a list lets in what some entry holds. A list
that is empty or missing lets in everything. -/
theorem allow_list_correct :
    (∀ (ip range : Quad) (n : Fin 33),
      ipMatchesCidr ip.text (Entry.text (.range range n)) = true ↔
        ∀ i < n.val, ip.bits.getMsbD i = range.bits.getMsbD i) ∧
    (∀ ip address : Quad, ipMatchesCidr ip.text address.text = true ↔ ip.bits = address.bits) ∧
    ∀ (ip : Quad) (entries : Option (List Entry)),
      isIpAllowed (some ip.text) (entries.map (·.map Entry.text)) = true ↔
        entries.getD [] = [] ∨ ∃ e ∈ entries.getD [], e.Matches ip := by
  refine ⟨fun ip range n => ipMatchesCidr_text ip (.range range n), fun ip address => ?_,
    fun ip entries => ?_⟩
  · have hslash : '/' ∉ address.text.toList := by
      rw [Quad.text, String.toList_ofList]
      exact address.slash_not_mem
    rw [← Entry.matches_plain ip address hslash]
    exact ipMatchesCidr_text ip (.plain address.text hslash)
  · -- an address is not the empty text, which counts as a missing one
    have hip : (some ip.text).filter (· ≠ "") = some ip.text := by
      rw [Option.filter_some, if_pos]
      refine decide_eq_true fun h => ?_
      have hquad := ip.quad?_chars
      rw [← String.toList_ofList (l := ip.chars)] at hquad
      change quad? ip.text.toList = _ at hquad
      rw [h] at hquad
      cases hquad
    match entries with
    | none => exact iff_of_true rfl (.inl rfl)
    | some [] => exact iff_of_true rfl (.inl rfl)
    | some (e :: es) =>
      show isIpAllowed (some ip.text) (some (e.text :: es.map Entry.text)) = true ↔ _
      unfold isIpAllowed
      dsimp only
      rw [hip]
      dsimp only
      rw [← List.map_cons, List.any_map, List.any_eq_true, Option.getD_some]
      simp only [Function.comp, ipMatchesCidr_text]
      exact ⟨.inr, fun h => h.resolve_left (List.cons_ne_nil _ _)⟩

end Plain

/-! ## Entries that are not well formed -/

section Malformed

variable {cidr : String}

/-- What a match should mean: entry and client are well formed, and the client is in the
range. -/
def MatchSound (ip cidr : String) : Prop :=
  ipMatchesCidr ip cidr = true → ∃ x y n, quad? ip.toList = some x ∧
    range? cidr.toList = some (y, n) ∧ AgreeOn n x y

/-- A blank in front of a number is not read. -/
theorem ofText_blank (cs : List Char) : JsNumber.ofText (' ' :: cs) = JsNumber.ofText cs := by
  have htrim : trim (' ' :: cs) = trim cs := by
    unfold trim
    rw [List.dropWhile_cons_of_pos rfl]
  unfold JsNumber.ofText
  rw [htrim]

/-- **Every entry with four parts lets in a client that is not an address**: its own text, after
a blank. -/
theorem admits_malformed_client (h : '/' ∈ cidr.toList) (hparts : FourParts (entryAddress cidr)) :
    ∃ ip : String, quad? ip.toList = none ∧ ipMatchesCidr ip cidr = true := by
  obtain ⟨part, parts, hsplit, hblank⟩ :=
    splitOn_cons (show ' ' ≠ '.' by decide) (entryAddress cidr)
  refine ⟨String.ofList (' ' :: entryAddress cidr), ?_, (entry_decision h).mpr ?_⟩
  · -- its first octet starts with a blank
    rw [String.toList_ofList]
    by_contra hsome
    obtain ⟨x, hx⟩ := Option.ne_none_iff_exists'.mp hsome
    obtain ⟨as, bs, cs, ds, a, b, c, d, hquad, ha, -⟩ := quad?_eq_some.mp hx
    rw [hblank] at hquad
    obtain ⟨rfl, -⟩ := List.cons.inj hquad
    obtain ⟨hdigits, -⟩ := Option.filter_eq_some_iff.mp ha
    cases (digits?_eq_some.mp hdigits).2.1 ' ' List.mem_cons_self
  · have hnumber :
        addressNumber (' ' :: entryAddress cidr) = addressNumber (entryAddress cidr) := by
      unfold addressNumber
      rw [hblank, hsplit, List.map_cons, List.map_cons, ofText_blank]
    rw [String.toList_ofList, hnumber]
    refine ⟨?_, hparts, rfl⟩
    unfold FourParts at hparts ⊢
    rw [hblank]
    rwa [hsplit] at hparts

/-- **Every entry with four parts lets in the address that the code reads in it.** -/
theorem admits_own_address (h : '/' ∈ cidr.toList) (hparts : FourParts (entryAddress cidr)) :
    ipMatchesCidr (Quad.ofBits (addressNumber (entryAddress cidr))).text cidr = true := by
  set q := Quad.ofBits (addressNumber (entryAddress cidr)) with hq
  obtain ⟨hqParts, hqNumber⟩ := addressNumber_of_quad? q.quad?_chars
  refine (entry_decision h).mpr ?_
  rw [Quad.text, String.toList_ofList, hqNumber, hq, Quad.bits_ofBits]
  exact ⟨hqParts, hparts, rfl⟩

/-- **When an entry fails closed.** Against any client, exactly where its address does not have
four parts, since then it matches nothing. Against clients that are addresses, exactly where
also the entry is well formed. -/
theorem fails_closed_iff (h : '/' ∈ cidr.toList) :
    ((∀ ip, MatchSound ip cidr) ↔ ¬FourParts (entryAddress cidr)) ∧
    ((∀ ip, quad? ip.toList ≠ none → MatchSound ip cidr) ↔
      range? cidr.toList ≠ none ∨ ¬FourParts (entryAddress cidr)) := by
  have hnever : ¬FourParts (entryAddress cidr) → ∀ ip, MatchSound ip cidr := by
    intro hparts ip hmatch
    exact absurd ((entry_decision h).mp hmatch).2.1 hparts
  refine ⟨⟨fun hsound hparts => ?_, hnever⟩, ⟨fun hsound => ?_, ?_⟩⟩
  · obtain ⟨ip, hip, hmatch⟩ := admits_malformed_client h hparts
    obtain ⟨x, y, n, hx, -⟩ := hsound ip hmatch
    rw [hip] at hx
    cases hx
  · -- the address that the code reads in a malformed entry is a client, too
    by_contra hcond
    obtain ⟨hrange, hparts⟩ := not_or.mp hcond
    have hquad : quad? (Quad.ofBits (addressNumber (entryAddress cidr))).text.toList ≠ none := by
      rw [Quad.text, String.toList_ofList, Quad.quad?_chars]
      exact Option.some_ne_none _
    obtain ⟨x, y, n, -, hy, -⟩ := hsound _ hquad (admits_own_address h (not_not.mp hparts))
    rw [hy] at hrange
    exact hrange (Option.some_ne_none _)
  · rintro (hrange | hparts) ip hip hmatch
    · obtain ⟨⟨y, n⟩, hy⟩ := Option.ne_none_iff_exists'.mp hrange
      obtain ⟨x, hx⟩ := Option.ne_none_iff_exists'.mp hip
      exact ⟨x, y, n, hx, hy, (matches_quads_iff hx hy).mp hmatch⟩
    · exact hnever hparts ip hmatch

theorem fails_closed_iff_witness : '/' ∈ "10.0.0.0/33".toList ∧
    ((∀ ip, MatchSound ip "10.0.0.0/33") ↔ ¬FourParts (entryAddress "10.0.0.0/33")) := by
  have h : '/' ∈ "10.0.0.0/33".toList := by decide +kernel
  exact ⟨h, (fails_closed_iff h).1⟩

/-- **Mistyped prefixes admit other networks**: 33 bits count as one bit, and a prefix that
starts with a zero digit only counts as no bits. -/
theorem mistyped_prefixes_admit :
    admitsEntry "10.0.0.0/33" = true ∧ range? "10.0.0.0/33".toList = none ∧
    ipMatchesCidr "100.64.0.1" "10.0.0.0/33" = true ∧ ¬MatchSound "100.64.0.1" "10.0.0.0/33" ∧
    ipMatchesCidr "203.0.113.9" "10.0.0.0/0x8" = true := by
  have hmatch : ipMatchesCidr "100.64.0.1" "10.0.0.0/33" = true := by decide +kernel
  have hrange : range? "10.0.0.0/33".toList = none := by decide +kernel
  refine ⟨by decide +kernel, hrange, hmatch, fun hsound => ?_, by decide +kernel⟩
  obtain ⟨x, y, n, -, hy, -⟩ := hsound hmatch
  rw [hrange] at hy
  cases hy

end Malformed

end Stargate.ApiKeys
