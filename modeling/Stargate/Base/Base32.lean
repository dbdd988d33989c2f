import Mathlib.Data.List.Basic
import Mathlib.Tactic.IntervalCases
import Mathlib.Tactic.NormNum
import Mathlib.Tactic.Ring

/-!
# Base32 text of byte strings

RFC 4648 base32 without padding characters: the bytes, read as one big-endian
number and shifted left to a multiple of five bits, written in radix 32.

The text is described from its end (`reverse_base32`), because a consumer that
reads characters from the end meets the low digits of the number first.
-/

namespace Stargate.Base

/-- The big-endian value of a byte string. -/
def ofBytes (bs : List UInt8) : Nat := bs.foldl (fun n b => n * 256 + b.toNat) 0

theorem foldl_ofBytes (bs : List UInt8) (n : Nat) :
    bs.foldl (fun n b => n * 256 + b.toNat) n = n * 256 ^ bs.length + ofBytes bs := by
  induction bs generalizing n with
  | nil => simp [ofBytes]
  | cons b bs ih =>
    have hb : ofBytes (b :: bs) = b.toNat * 256 ^ bs.length + ofBytes bs := by
      simpa [ofBytes] using ih b.toNat
    rw [List.foldl_cons, ih, hb, List.length_cons, pow_succ]
    ring

theorem ofBytes_append (as bs : List UInt8) :
    ofBytes (as ++ bs) = ofBytes as * 256 ^ bs.length + ofBytes bs := by
  rw [ofBytes, List.foldl_append]
  exact foldl_ofBytes bs _

/-- The `k` low bytes of a number, big-endian. -/
def toBytes (k n : Nat) : List UInt8 :=
  (List.range k).reverse.map fun j => UInt8.ofNat (n / 256 ^ j)

@[simp] theorem length_toBytes (k n : Nat) : (toBytes k n).length = k := by
  simp [toBytes]

theorem ofBytes_toBytes (k n : Nat) : ofBytes (toBytes k n) = n % 256 ^ k := by
  induction k with
  | zero => simp [toBytes, ofBytes, Nat.mod_one]
  | succ k ih =>
    have hsplit : toBytes (k + 1) n = UInt8.ofNat (n / 256 ^ k) :: toBytes k n := by
      simp [toBytes, List.range_succ]
    rw [hsplit, ← List.singleton_append, ofBytes_append, ih, length_toBytes]
    have hbyte : ofBytes [UInt8.ofNat (n / 256 ^ k)] = n / 256 ^ k % 256 := by
      simp [ofBytes]
    rw [hbyte, pow_succ, Nat.mod_mul]
    ring

/-- The base32 character of a five-bit digit: `A`–`Z`, then `2`–`7`. -/
def base32Char (d : Nat) : Char :=
  if d < 26 then Char.ofNat ('A'.toNat + d) else Char.ofNat ('2'.toNat + (d - 26))

/-- The decimal digits among the base32 characters are `2` to `7`, for the
five-bit digits from 26 on. -/
theorem base32Char_spec : ∀ d < 32, base32Char d ≠ '-' ∧ base32Char d ≠ '+' ∧
    ((base32Char d).isDigit = true → 26 ≤ d ∧ (base32Char d).toNat - '0'.toNat = d - 24) := by
  decide

/-- The number of base32 characters of `n` bytes. -/
def base32Length (n : Nat) : Nat := (8 * n + 4) / 5

/-- The number whose radix-32 digits are the base32 text of the bytes. -/
def base32Value (bs : List UInt8) : Nat :=
  ofBytes bs * 2 ^ (5 * base32Length bs.length - 8 * bs.length)

/-- The base32 text of a byte string, without padding. -/
def base32 (bs : List UInt8) : List Char :=
  (List.range (base32Length bs.length)).reverse.map fun j =>
    base32Char (base32Value bs / 32 ^ j % 32)

@[simp] theorem length_base32 (bs : List UInt8) :
    (base32 bs).length = base32Length bs.length := by
  simp [base32]

/-- Read from the end, the text lists the digits from the lowest on. -/
theorem take_reverse_base32 {bs : List UInt8} {k : Nat} (hk : k ≤ base32Length bs.length) :
    (base32 bs).reverse.take k
      = (List.range k).map fun j => base32Char (base32Value bs / 32 ^ j % 32) := by
  rw [base32, ← List.map_reverse, List.reverse_reverse, ← List.map_take, List.take_range,
    Nat.min_eq_left hk]

end Stargate.Base
