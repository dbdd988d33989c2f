import Stargate.Base.DigitStrings
import Stargate.Disputes.Create
import Stargate.Invoices.AmountSpelling

/-!
# Amounts between text and units

`toUnits` and `fromUnits` are written twice, in `InvoicesService` and in `DisputesService`; the
copies differ in the message for an amount of zero.

- `Converts`: what the two functions owe each other;
- `amount_conversions`: both copies pay it.
-/

namespace Stargate

open Base

namespace Disputes

/-- This service's `fromUnits(units)`. -/
def disputeText (units : Int) : String := Invoices.fromUnits units

end Disputes

namespace Invoices

variable {s : String} {n : Nat} {v : ℚ}

/-- Text with seven places and no superfluous zero in front. -/
def IsFixedPoint (s : String) : Prop := ∃ whole frac, FixedPoint 7 s.toList whole frac

/-- Amounts are read as their units, and written back in one way. -/
structure Converts (toUnits : String → Except ApiError Int) (fromUnits : Int → String) :
    Prop where
  /-- What is written is read back. -/
  read : ∀ u, 1 ≤ u → toUnits (fromUnits u) = .ok u
  /-- An amount is read as its value, and then written as the one text that denotes it. -/
  units : ∀ s v, isAmountText s.toList = true → decimal? s.toList = some v → v ≠ 0 →
    ∃ u, toUnits s = .ok u ∧ (u : ℚ) = v * 10 ^ 7 ∧
      ∀ t, IsFixedPoint t ∧ decimal? t.toList = some v ↔ t = fromUnits u
  zero : ∀ s, isAmountText s.toList = true → decimal? s.toList = some 0 →
    ∃ message, toUnits s = .error (.badRequest message)

/-- An amount has a number of units. -/
theorem exists_units (hs : isAmountText s.toList = true) (hv : decimal? s.toList = some v) :
    ∃ n : Nat, v = n / 10 ^ 7 ∧
      toUnits s = if n = 0 then .error (.badRequest "Amount must be greater than zero")
        else .ok n := by
  obtain ⟨whole, frac, hpos, hlen⟩ := positional_of_isAmountText hs
  have hvalue : Positional.value whole frac = v :=
    Option.some.inj (hpos.decimal?.symm.trans hv)
  obtain ⟨n, hn⟩ : ∃ n : Nat, v = n / 10 ^ 7 := by
    refine ⟨Nat.ofDigitChars 10 (whole ++ frac) 0 * 10 ^ (7 - frac.length), ?_⟩
    have hpow : (10 : ℚ) ^ 7 = 10 ^ frac.length * 10 ^ (7 - frac.length) := by
      rw [← pow_add, Nat.add_sub_cancel' hlen]
    rw [← hvalue, Positional.value, hpow, Nat.cast_mul, Nat.cast_pow, Nat.cast_ofNat,
      mul_div_mul_right _ _ (by positivity)]
  refine ⟨n, hn, ?_⟩
  have hread := toUnits_positional hpos hlen (hvalue.trans hn)
  rwa [String.ofList_toList] at hread

/-- The one text of `n` units. -/
theorem isFixedPoint_iff (t : String) :
    IsFixedPoint t ∧ decimal? t.toList = some ((n : ℚ) / 10 ^ 7) ↔ t = fromUnits n := by
  rw [IsFixedPoint, decimal?_fixedPoint_iff (by decide), fromUnits_natCast]
  exact ⟨fun h => by rw [← h, String.ofList_toList], fun h => by rw [h, String.toList_ofList]⟩

theorem converts_toUnits : Converts toUnits fromUnits where
  read u hu := toUnits_fromUnits (by omega)
  units s v hs hv hne := by
    obtain ⟨n, rfl, hunits⟩ := exists_units hs hv
    have hn : n ≠ 0 := by
      rintro rfl
      exact hne (by simp)
    rw [if_neg hn] at hunits
    refine ⟨n, hunits, ?_, fun t => isFixedPoint_iff t⟩
    rw [div_mul_cancel₀ _ (by positivity), Int.cast_natCast]
  zero s hs hv := by
    obtain ⟨n, hn, hunits⟩ := exists_units hs hv
    have hzero : n = 0 := by
      have := (div_eq_zero_iff.mp hn.symm).resolve_right (by positivity)
      exact_mod_cast this
    rw [if_pos hzero] at hunits
    exact ⟨_, hunits⟩

/-- Only the message differs. -/
theorem disputeUnits_cases (s : String) :
    (∃ message, toUnits s = .error (.badRequest message) ∧
      Disputes.disputeUnits s = .error (.badRequest "amount_usdc must be > 0")) ∨
    Disputes.disputeUnits s = toUnits s := by
  unfold Disputes.disputeUnits
  cases toUnits s with
  | ok u => exact .inr rfl
  | error e =>
    cases e with
    | badRequest message => exact .inl ⟨message, rfl, rfl⟩
    | _ => exact .inr rfl

theorem disputeUnits_of_ok {u : Int} (h : toUnits s = .ok u) :
    Disputes.disputeUnits s = .ok u := by
  rcases disputeUnits_cases s with ⟨message, hbad, -⟩ | heq
  · rw [h] at hbad
    cases hbad
  · rw [heq, h]

theorem converts_disputeUnits : Converts Disputes.disputeUnits Disputes.disputeText where
  read u hu := disputeUnits_of_ok (converts_toUnits.read u hu)
  units s v hs hv hne := by
    obtain ⟨u, hunits, hvalue, htext⟩ := converts_toUnits.units s v hs hv hne
    exact ⟨u, disputeUnits_of_ok hunits, hvalue, htext⟩
  zero s hs hv := by
    obtain ⟨message, hunits⟩ := converts_toUnits.zero s hs hv
    rcases disputeUnits_cases s with ⟨-, -, hbad⟩ | heq
    · exact ⟨_, hbad⟩
    · exact ⟨message, heq.trans hunits⟩

/-- **Units survive the way through text, and amounts the way through units**, in both services:
an amount comes back as the one text of its value with seven places. -/
theorem amount_conversions :
    Converts toUnits fromUnits ∧ Converts Disputes.disputeUnits Disputes.disputeText :=
  ⟨converts_toUnits, converts_disputeUnits⟩

example : (toUnits "007.5").map fromUnits = .ok "7.5000000" := by decide +kernel

end Invoices

end Stargate
