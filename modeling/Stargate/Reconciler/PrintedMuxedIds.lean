import Mathlib.Data.List.Palindrome
import Stargate.Base.DigitStrings
import Stargate.Reconciler.Processor

/-!
# Muxed ids printed in decimal

The reconciler's tests address a payment to an invoice by `M` and the decimal digits of its
muxed id. `decode_muxed_id` reverses the characters and does not reverse them back.

- `decodeMuxedId_printed`: it reads the last ten digits from right to left;
- `printed_id_iff`: so it finds the id exactly where that has at most ten digits, and these read
  the same in both directions.
-/

namespace Stargate.Reconciler

open Base

/-- `format!("M{muxed_id}")`. -/
def printedId (n : Nat) : String := String.ofList ('M' :: Nat.toDigits 10 n)

/-- The number that `decode_muxed_id` makes of the digits of another. -/
def reversedId (n : Nat) : Nat := Nat.ofDigitChars 10 ((Nat.toDigits 10 n).reverse.take 10) 0

section Digits

variable {cs : List Char} {n : Nat}

/-- A string of at most ten digits is an `i64`. -/
theorem parseI64_digits (hne : cs ≠ []) (h : ∀ c ∈ cs, c.isDigit = true) (hlen : cs.length ≤ 10) :
    parseI64 cs = some ((Nat.ofDigitChars 10 cs 0 : Nat) : Int) := by
  have hlt : Nat.ofDigitChars 10 cs 0 < 2 ^ 63 := calc
    Nat.ofDigitChars 10 cs 0 < 10 ^ cs.length := ofDigitChars_lt h
    _ ≤ 10 ^ 10 := Nat.pow_le_pow_right (by decide) hlen
    _ < 2 ^ 63 := by decide
  have hinteger : integer? cs = some ((Nat.ofDigitChars 10 cs 0 : Nat) : Int) := by
    obtain ⟨c, ds, rfl⟩ := List.exists_cons_of_ne_nil hne
    have hc := h c List.mem_cons_self
    unfold integer?
    split
    · next heq =>
      cases heq
      cases hc
    · next heq =>
      cases heq
      cases hc
    · rw [digits?_of_isDigit hne h]
      rfl
  rw [parseI64, hinteger, Option.filter_some, if_pos]
  exact decide_eq_true (by omega)

theorem isDigit_reversed : ∀ c ∈ (Nat.toDigits 10 n).reverse.take 10, c.isDigit = true :=
  fun c hc => isDigit_toDigits c (List.mem_reverse.mp (List.mem_of_mem_take hc))

/-- **The last ten digits are read backwards.** -/
theorem decodeMuxedId_printed (n : Nat) :
    decodeMuxedId (printedId n) = some (reversedId n : Int) := by
  unfold decodeMuxedId printedId
  rw [String.toList_ofList]
  refine parseI64_digits ?_ isDigit_reversed (List.length_take_le 10 _)
  rw [ne_eq, List.take_eq_nil_iff, List.reverse_eq_nil_iff, not_or]
  exact ⟨by decide, Nat.toDigits_ne_nil⟩

theorem reversedId_lt (n : Nat) : reversedId n < 10 ^ 10 :=
  (ofDigitChars_lt isDigit_reversed).trans_le
    (Nat.pow_le_pow_right (by decide) (List.length_take_le 10 _))

/-- The ids that are read as themselves. -/
theorem reversedId_eq_iff :
    reversedId n = n ↔ n < 10 ^ 10 ∧ (Nat.toDigits 10 n).Palindrome := by
  constructor
  · intro h
    have hlt : n < 10 ^ 10 := h ▸ reversedId_lt n
    refine ⟨hlt, List.Palindrome.of_reverse_eq ?_⟩
    have hlen : (Nat.toDigits 10 n).length ≤ 10 :=
      (Nat.length_toDigits_le_iff (by decide) (by decide)).mpr hlt
    rw [reversedId, List.take_of_length_le (by rwa [List.length_reverse])] at h
    refine ofDigitChars_inj List.length_reverse ?_ isDigit_toDigits ?_
    · exact fun c hc => isDigit_toDigits c (List.mem_reverse.mp hc)
    · rw [h, Nat.ofDigitChars_ten_toDigits]
  · rintro ⟨hlt, hpalindrome⟩
    have hlen : (Nat.toDigits 10 n).length ≤ 10 :=
      (Nat.length_toDigits_le_iff (by decide) (by decide)).mpr hlt
    rw [reversedId, hpalindrome.reverse_eq, List.take_of_length_le hlen,
      Nat.ofDigitChars_ten_toDigits]

end Digits

/-! ## Matches -/

/-- Payments to the printed id that carry no memo match invoices with this id only. -/
def MatchesOnly (n : Nat) : Prop :=
  ∀ db payment row, payment.toAddress = printedId n → payment.memo = none →
    matchInvoice db payment = some row →
    ∃ i ∈ db.invoices, row = InvoiceRow.of i ∧ i.muxedId = n

/-- What is matched has the reversed id. -/
theorem matches_reversed {db : Db} {payment : HorizonPayment} {row : InvoiceRow} {n : Nat}
    (hto : payment.toAddress = printedId n) (hmemo : payment.memo = none)
    (h : matchInvoice db payment = some row) :
    ∃ i ∈ db.invoices, row = InvoiceRow.of i ∧ i.muxedId = (reversedId n : Int) := by
  obtain ⟨i, hi, hrow, -, -, hmuxed | ⟨hne, -⟩⟩ := matchInvoice_some h
  · rw [hto, decodeMuxedId_printed] at hmuxed
    exact ⟨i, hi, hrow, (Option.some.inj hmuxed).symm⟩
  · exact absurd hmemo hne

/-- An invoice with the reversed id is matched. -/
theorem match_seedInvoice (n : Nat) :
    matchInvoice (seedDb (seedInvoice 1 (reversedId n))) (makePayment "1" (printedId n) "10.5")
      = some (InvoiceRow.of (seedInvoice 1 (reversedId n))) := by
  have hselect : selectByMuxedId (seedDb (seedInvoice 1 (reversedId n))) (reversedId n)
      = some (InvoiceRow.of (seedInvoice 1 (reversedId n))) :=
    selectByMuxedId_of_mem (i := seedInvoice 1 (reversedId n)) (List.mem_singleton_self _) rfl
  have hto : (makePayment "1" (printedId n) "10.5").toAddress = printedId n := rfl
  unfold matchInvoice
  rw [hto, decodeMuxedId_printed]
  dsimp only
  rw [hselect]
  rfl

/-- **When a printed id is decoded**: where it has at most ten digits and is a palindrome. There
and only there a payment to it is matched by this id and no other. -/
theorem printed_id_iff (n : Nat) :
    (decodeMuxedId (printedId n) = some (n : Int)
        ↔ n < 10 ^ 10 ∧ (Nat.toDigits 10 n).Palindrome) ∧
    (MatchesOnly n ↔ n < 10 ^ 10 ∧ (Nat.toDigits 10 n).Palindrome) := by
  rw [decodeMuxedId_printed, Option.some.injEq, Int.natCast_inj, ← reversedId_eq_iff]
  refine ⟨Iff.rfl, ?_, ?_⟩
  · intro h
    obtain ⟨i, hi, -, hid⟩ := h _ _ _ rfl rfl (match_seedInvoice n)
    rw [List.mem_singleton.mp hi] at hid
    exact Int.natCast_inj.mp hid
  · intro heq db payment row hto hmemo hmatch
    have h := matches_reversed hto hmemo hmatch
    rwa [heq] at h

/-- The id of the happy path: `M99001` is read as 10099. -/
theorem happy_path_id : decodeMuxedId "M99001" = some 10099 ∧
    decodeMuxedId (printedId 99001) ≠ some 99001 ∧ ¬MatchesOnly 99001 := by
  have hprinted : decodeMuxedId (printedId 99001) = some 10099 := by decide +kernel
  refine ⟨by decide +kernel, fun h => ?_, fun h => ?_⟩
  · rw [hprinted] at h
    cases h
  · obtain ⟨i, hi, -, hid⟩ := h _ _ _ rfl rfl (match_seedInvoice 99001)
    rw [List.mem_singleton.mp hi] at hid
    have hreversed : (seedInvoice 1 (reversedId 99001)).muxedId ≠ 99001 := by decide +kernel
    exact hreversed hid

end Stargate.Reconciler
