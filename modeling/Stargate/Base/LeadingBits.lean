import Mathlib.Data.Nat.Bitwise
import Mathlib.Data.BitVec

/-!
# Leading bits

- `AgreeOn n x y`: the first `n` bits of two bit vectors are the same;
- `and_leadingOnes_eq_iff`: a mask of `n` leading ones compares these;
- `shiftLeft_or_ofNat`: a digit shifted in from below.
-/

namespace Stargate.Base

variable {w n : Nat} {x y : BitVec w}

/-- The first `n` bits of `x` are those of `y`. -/
def AgreeOn (n : Nat) (x y : BitVec w) : Prop := ∀ i < n, x.getMsbD i = y.getMsbD i

instance instDecidableAgreeOn : Decidable (AgreeOn n x y) :=
  inferInstanceAs (Decidable (∀ i < n, _))

/-- A mask of leading ones compares leading bits. -/
theorem and_leadingOnes_eq_iff (hn : n ≤ w) :
    x &&& BitVec.allOnes w <<< (w - n) = y &&& BitVec.allOnes w <<< (w - n) ↔
      AgreeOn n x y := by
  have hbit : ∀ z : BitVec w, ∀ i < w, (z &&& BitVec.allOnes w <<< (w - n)).getMsbD i
      = (z.getMsbD i && decide (i < n)) := by
    intro z i hi
    rw [BitVec.getMsbD_and, BitVec.getMsbD_shiftLeft, BitVec.getMsbD_allOnes]
    congr 1
    rw [decide_eq_decide]
    omega
  constructor
  · intro h i hi
    have := congrArg (BitVec.getMsbD · i) h
    simpa [hbit _ i (hi.trans_le hn), hi] using this
  · intro h
    refine BitVec.eq_of_getMsbD_eq fun i hi => ?_
    rw [hbit x i hi, hbit y i hi]
    by_cases hin : i < n
    · rw [h i hin]
    · rw [decide_eq_false hin, Bool.and_false, Bool.and_false]

/-- A digit shifted in from below. -/
theorem shiftLeft_or_ofNat {a b k : Nat} (hb : b < 2 ^ k) :
    BitVec.ofNat w a <<< k ||| BitVec.ofNat w b = BitVec.ofNat w (a * 2 ^ k + b) := by
  have hshift : BitVec.ofNat w a <<< k = BitVec.ofNat w (a <<< k) := by
    refine BitVec.eq_of_toNat_eq ?_
    simp [Nat.shiftLeft_eq, Nat.mod_mul_mod]
  rw [hshift, ← BitVec.ofNat_or, ← Nat.shiftLeft_add_eq_or_of_lt hb, Nat.shiftLeft_eq]

end Stargate.Base
