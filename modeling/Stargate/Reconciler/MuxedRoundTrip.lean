import Stargate.Reconciler.Matcher
import Stargate.Stellar.MuxedAddress

/-!
# Muxed ids do not survive the round trip through an address

The API writes muxed addresses with `buildMuxedAddress`, the reconciler reads
them with `decode_muxed_id`. The reader takes the last ten characters of the
address, reverses them and parses a decimal number; in an M-address these
characters are base32 digits of the low 33 bits of the id and of the checksum.

Where the parse succeeds at all, every character is one of `2`–`7`: the decoded
number is at most `6777777777` (the leading one carries the padding bit, so it
is even), while the id has five-bit digits from 26 on and is at least
`26 · 2²⁸ = 6979321856`. So no id is ever decoded.
-/

namespace Stargate.Reconciler

open Base Stellar

/-- The characters that `decode_muxed_id` reads off an M-address. -/
theorem take_reverse_muxedAddress {crc : List UInt8 → UInt8 × UInt8} {key : Vector UInt8 32}
    {m : Nat} {cs : List Char} (h : (buildMuxedAddress crc key m).toList = 'M' :: cs) :
    cs.reverse.take 10
      = (List.range 10).map fun j =>
          base32Char (base32Value (muxedBytes crc key m) / 32 ^ j % 32) := by
  have htext : base32 (muxedBytes crc key m) = 'M' :: cs := by
    rw [← h, buildMuxedAddress, String.toList_ofList]
  have hlen : cs.length = 68 := by
    have := congrArg List.length htext
    rw [length_base32, length_muxedBytes, List.length_cons] at this
    simpa [base32Length] using this.symm
  rw [← take_reverse_base32 (k := 10) (by simp [base32Length]), htext, List.reverse_cons,
    List.take_append_of_le_length (by simp [hlen])]

/-- A string of base32 characters that parses as an integer consists of the
digits `2` to `7`, lowest five-bit digit first. -/
theorem parse_base32Chars {v : Nat} {n : Int}
    (h : parseI64 ((List.range 10).map fun j => base32Char (v / 32 ^ j % 32)) = some n) :
    (∀ j < 10, 26 ≤ v / 32 ^ j % 32) ∧
      n = (List.range 10).foldl (fun acc j => 10 * acc + (v / 32 ^ j % 32 - 24)) 0 := by
  have hspec : ∀ j, _ := fun j => base32Char_spec (v / 32 ^ j % 32) (Nat.mod_lt _ (by decide))
  have hcons : (List.range 10).map (fun j => base32Char (v / 32 ^ j % 32))
      = base32Char (v / 32 ^ 0 % 32)
        :: ((List.range 9).map Nat.succ).map fun j => base32Char (v / 32 ^ j % 32) := by
    rw [List.range_succ_eq_map, List.map_cons]
  have hint := (Option.filter_eq_some_iff.mp h).1
  rw [hcons] at hint
  obtain ⟨hdig, hn⟩ := integer?_eq_some (hspec 0).1 (hspec 0).2.1 hint
  rw [← hcons] at hdig hn
  have hj : ∀ j < 10, (base32Char (v / 32 ^ j % 32)).isDigit = true := fun j hj =>
    hdig _ (List.mem_map.mpr ⟨j, List.mem_range.mpr hj, rfl⟩)
  refine ⟨fun j h10 => ((hspec j).2.2 (hj j h10)).1, ?_⟩
  rw [hn, Nat.ofDigitChars_eq_foldl, List.foldl_map]
  congr 1
  refine List.foldl_ext _ _ _ fun acc j hmem => ?_
  rw [((hspec j).2.2 (hj j (List.mem_range.mp hmem))).2]

/-- Ten decimal digits, the leading one at most 6 and the others at most 7. -/
theorem decimal_le {d : Nat → Nat} (h₀ : d 0 ≤ 6) (h : ∀ j, d j ≤ 7) :
    (List.range 10).foldl (fun acc j => 10 * acc + d j) 0 ≤ 6777777777 := by
  have h₁ := h 1
  have h₂ := h 2
  have h₃ := h 3
  have h₄ := h 4
  have h₅ := h 5
  have h₆ := h 6
  have h₇ := h 7
  have h₈ := h 8
  have h₉ := h 9
  simp only [List.range, List.range.loop, List.foldl_cons, List.foldl_nil]
  omega

/-- **No muxed id is recovered from its own address**, whatever the treasury key
and whatever the checksum. -/
theorem decodeMuxedId_buildMuxedAddress_ne (crc : List UInt8 → UInt8 × UInt8)
    (key : Vector UInt8 32) (m : Nat) :
    decodeMuxedId (buildMuxedAddress crc key m) ≠ some (m : Int) := by
  intro h
  unfold decodeMuxedId at h
  split at h
  · next cs htext =>
    rw [take_reverse_muxedAddress htext] at h
    obtain ⟨hdigits, hm⟩ := parse_base32Chars h
    obtain ⟨high, sum, hsum, hv⟩ := base32Value_muxedBytes crc key m
    generalize base32Value (muxedBytes crc key m) = v at *
    have hle : ∀ j, v / 32 ^ j % 32 ≤ 31 := fun j =>
      Nat.le_of_lt_succ (Nat.mod_lt _ (by decide))
    -- the lowest digit carries the padding bit, so it is even
    have hdecoded : m ≤ 6777777777 := by
      rw [Int.natCast_inj.mp hm]
      refine decimal_le ?_ fun j => Nat.sub_le_sub_right (hle j) 24
      show v / 32 ^ 0 % 32 - 24 ≤ 6
      rw [pow_zero, Nat.div_one]
      omega
    -- the tenth digit is bits 28 to 32 of the id
    have htop := hdigits 9 (by decide)
    have hshift : v / 32 ^ 9 = (high * 2 ^ 64 + m % 2 ^ 64) / 2 ^ 28 := by omega
    omega
  · cases h

/-- The round trip fails on the first id that a fresh platform allots. -/
theorem decodeMuxedId_first_id :
    ¬ ∀ (key : Vector UInt8 32) (m : Nat), m < 2 ^ 63 →
      decodeMuxedId (buildMuxedAddress crc16 key m) = some (m : Int) := fun h =>
  absurd (h (Vector.replicate 32 0) 16777217 (by decide)) (by decide +kernel)

end Stargate.Reconciler
