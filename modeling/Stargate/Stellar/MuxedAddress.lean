import Stargate.Base.Base32

/-!
# Muxed addresses (`src/stellar/stellar.service.ts`)

`StellarService.buildMuxedAddress` wraps the platform treasury account and a
muxed id in an M-address: the base32 text of the version byte `0x60`, the 32
bytes of the account's key, the id as 8 big-endian bytes, and a two-byte
checksum of all of these. The checksum is a parameter of the layout; `crc16` is
the one that the SDK computes.
-/

namespace Stargate.Stellar

open Base

/-- The version byte of a muxed account. -/
def versionMuxed : UInt8 := 0x60

/-- The bytes under the checksum. -/
def muxedPayload (key : Vector UInt8 32) (id : Nat) : List UInt8 :=
  versionMuxed :: key.toList ++ toBytes 8 id

@[simp] theorem length_muxedPayload (key : Vector UInt8 32) (id : Nat) :
    (muxedPayload key id).length = 41 := by
  simp [muxedPayload]

/-- The bytes of an M-address. -/
def muxedBytes (crc : List UInt8 → UInt8 × UInt8) (key : Vector UInt8 32) (id : Nat) :
    List UInt8 :=
  let sum := crc (muxedPayload key id)
  muxedPayload key id ++ [sum.1, sum.2]

@[simp] theorem length_muxedBytes (crc : List UInt8 → UInt8 × UInt8) (key : Vector UInt8 32)
    (id : Nat) : (muxedBytes crc key id).length = 43 := by
  simp [muxedBytes]

/-- One bit of the CRC-16/XMODEM register. -/
def crc16Bit (r : BitVec 16) : BitVec 16 :=
  if r.getMsbD 0 then (r <<< 1) ^^^ 0x1021 else r <<< 1

/-- The CRC-16/XMODEM checksum, low byte first. -/
def crc16 (bs : List UInt8) : UInt8 × UInt8 :=
  let r := bs.foldl (fun r b =>
    (List.range 8).foldl (fun r _ => crc16Bit r) (r ^^^ (BitVec.ofNat 16 (b.toNat * 256)))) 0#16
  (UInt8.ofNat r.toNat, UInt8.ofNat (r.toNat / 256))

/-- `buildMuxedAddress(muxedId)`: the text stored in `invoices.muxed_address`. -/
def buildMuxedAddress (crc : List UInt8 → UInt8 × UInt8) (key : Vector UInt8 32)
    (muxedId : Nat) : String :=
  String.ofList (base32 (muxedBytes crc key muxedId))

/-- Below the account bits, the number behind an M-address is the id, the
checksum, and one bit of padding. -/
theorem base32Value_muxedBytes (crc : List UInt8 → UInt8 × UInt8) (key : Vector UInt8 32)
    (id : Nat) : ∃ high sum : Nat, sum < 2 ^ 16 ∧
      base32Value (muxedBytes crc key id)
        = ((high * 2 ^ 64 + id % 2 ^ 64) * 2 ^ 16 + sum) * 2 := by
  set sum := crc (muxedPayload key id) with hsum
  refine ⟨ofBytes (versionMuxed :: key.toList), ofBytes [sum.1, sum.2], ?_, ?_⟩
  · have h₁ := sum.1.toNat_lt
    have h₂ := sum.2.toNat_lt
    simp only [ofBytes, List.foldl_cons, List.foldl_nil]
    omega
  · have hpayload : ofBytes (muxedPayload key id)
        = ofBytes (versionMuxed :: key.toList) * 2 ^ 64 + id % 2 ^ 64 := by
      rw [muxedPayload, ofBytes_append, length_toBytes, ofBytes_toBytes]
      norm_num
    rw [base32Value, length_muxedBytes, muxedBytes, ofBytes_append, hpayload, ← hsum]
    norm_num [base32Length]

end Stargate.Stellar
