import Stargate.Reconciler.Payment

/-!
# Matching payments to invoices (`matcher.rs`)

`match_invoice` runs up to two `SELECT`s: by the muxed id decoded from the
destination, then by memo. Each is a function of the committed invoices here;
`matchInvoice` is their composition.
-/

namespace Stargate.Reconciler

open Base

/-- `matcher::InvoiceRow`. -/
structure InvoiceRow where
  id : Uuid
  merchantId : Uuid
  grossUsdc : Numeric
  feeUsdc : Numeric
  netUsdc : Numeric
  currency : Currency
  grossUsdcEquiv : Numeric
  deriving DecidableEq

/-- The columns that `match_invoice` selects. -/
def InvoiceRow.of (i : Invoice) : InvoiceRow where
  id := i.id
  merchantId := i.merchantId
  grossUsdc := i.grossUsdc
  feeUsdc := i.feeUsdc
  netUsdc := i.netUsdc
  currency := i.currency
  grossUsdcEquiv := i.grossUsdcEquiv

/-- `str::parse::<i64>`: an optional sign and digits, in range. -/
def parseI64 (cs : List Char) : Option Int :=
  (integer? cs).filter fun n => -2 ^ 63 ≤ n ∧ n < 2 ^ 63

/-- `decode_muxed_id`: the last ten characters after the `M`, read backwards. -/
def decodeMuxedId (destination : String) : Option Int :=
  match destination.toList with
  | 'M' :: cs => parseI64 (cs.reverse.take 10)
  | _ => none

/-- `SELECT ... WHERE muxed_id=$1 AND status='pending'`. -/
def selectByMuxedId (db : Db) (muxedId : Int) : Option InvoiceRow :=
  (db.invoices.find? fun i => i.muxedId == muxedId && i.status == .pending).map InvoiceRow.of

/-- `SELECT ... WHERE memo=$1 AND status='pending'`. -/
def selectByMemo (db : Db) (memo : String) : Option InvoiceRow :=
  (db.invoices.find? fun i => i.memo == some memo && i.status == .pending).map InvoiceRow.of

/-- `match_invoice` after the muxed lookup found nothing. -/
def matchMemo (db : Db) (payment : HorizonPayment) : Option InvoiceRow :=
  match payment.memo with
  | none => none
  | some memo =>
    match selectByMemo db memo with
    | some inv => if inv.currency.code = paymentAssetCurrency payment then some inv else none
    | none => none

/-- `match_invoice`. A muxed hit in another currency does not fall through. -/
def matchInvoice (db : Db) (payment : HorizonPayment) : Option InvoiceRow :=
  match decodeMuxedId payment.toAddress with
  | none => matchMemo db payment
  | some muxedId =>
    match selectByMuxedId db muxedId with
    | some inv => if inv.currency.code = paymentAssetCurrency payment then some inv else none
    | none => matchMemo db payment

/-- The muxed lookup of a payment, if there is one, finds nothing. -/
def NoMuxedHit (db : Db) (payment : HorizonPayment) : Prop :=
  ∀ muxedId, decodeMuxedId payment.toAddress = some muxedId → selectByMuxedId db muxedId = none

/-- Without a muxed hit the memo decides. -/
theorem matchInvoice_of_noMuxedHit {db : Db} {payment : HorizonPayment}
    (h : NoMuxedHit db payment) : matchInvoice db payment = matchMemo db payment := by
  unfold matchInvoice
  split
  · rfl
  · next m hm => rw [h m hm]

/-- `i` is the invoice that a payment is for: by muxed destination or by memo. -/
def AddressedTo (payment : HorizonPayment) (i : Invoice) : Prop :=
  decodeMuxedId payment.toAddress = some i.muxedId ∨ (payment.memo ≠ none ∧ payment.memo = i.memo)

theorem selectByMuxedId_some {db : Db} {m : Int} {row : InvoiceRow}
    (h : selectByMuxedId db m = some row) :
    ∃ i ∈ db.invoices, row = InvoiceRow.of i ∧ i.status = .pending ∧ i.muxedId = m := by
  obtain ⟨i, hi, rfl⟩ := Option.map_eq_some_iff.mp h
  obtain ⟨hmem, hp⟩ := Table.find?_some hi
  simp only [Bool.and_eq_true, beq_iff_eq] at hp
  exact ⟨i, hmem, rfl, hp.2, hp.1⟩

/-- Muxed ids are unique, so the lookup finds a pending invoice by its own. -/
theorem selectByMuxedId_of_mem {db : Db} {i : Invoice} (hi : i ∈ db.invoices)
    (hp : i.status = .pending) : selectByMuxedId db i.muxedId = some (.of i) := by
  cases hfind : db.invoices.find? fun j => j.muxedId == i.muxedId && j.status == .pending with
  | none =>
    have := List.find?_eq_none.mp hfind i hi
    simp [hp] at this
  | some j =>
    obtain ⟨hj, hpj⟩ := Table.find?_some hfind
    simp only [Bool.and_eq_true, beq_iff_eq] at hpj
    rw [selectByMuxedId, hfind, Table.eq_of_conflict hj hi (.inr (.inl hpj.1))]
    rfl

theorem selectByMemo_some {db : Db} {memo : String} {row : InvoiceRow}
    (h : selectByMemo db memo = some row) :
    ∃ i ∈ db.invoices, row = InvoiceRow.of i ∧ i.status = .pending ∧ i.memo = some memo := by
  obtain ⟨i, hi, rfl⟩ := Option.map_eq_some_iff.mp h
  obtain ⟨hmem, hp⟩ := Table.find?_some hi
  simp only [Bool.and_eq_true, beq_iff_eq] at hp
  exact ⟨i, hmem, rfl, hp.2, hp.1⟩

/-- A muxed hit is a pending invoice under the muxed id. -/
theorem noMuxedHit_iff {db : Db} {payment : HorizonPayment} : NoMuxedHit db payment ↔
    ∀ i ∈ db.invoices, i.status = .pending → decodeMuxedId payment.toAddress ≠ some i.muxedId := by
  constructor
  · intro h i hi hp hdec
    have hnone := h _ hdec
    rw [selectByMuxedId_of_mem hi hp] at hnone
    cases hnone
  · intro h m hm
    cases hsel : selectByMuxedId db m with
    | none => rfl
    | some r =>
      obtain ⟨i, hi, -, hp, rfl⟩ := selectByMuxedId_some hsel
      exact absurd hm (h i hi hp)

/-- Only the invoices count. -/
theorem matchInvoice_congr {db db' : Db} {payment : HorizonPayment}
    (h : db'.invoices = db.invoices) : matchInvoice db' payment = matchInvoice db payment := by
  simp only [matchInvoice, matchMemo, selectByMuxedId, selectByMemo, h]

theorem noMuxedHit_congr {db db' : Db} {payment : HorizonPayment}
    (h : db'.invoices = db.invoices) (hno : NoMuxedHit db payment) : NoMuxedHit db' payment := by
  rw [noMuxedHit_iff] at *
  rwa [h]

theorem matchMemo_some {db : Db} {payment : HorizonPayment} {row : InvoiceRow}
    (h : matchMemo db payment = some row) :
    ∃ memo, payment.memo = some memo ∧ selectByMemo db memo = some row ∧
      row.currency.code = paymentAssetCurrency payment := by
  unfold matchMemo at h
  cases hm : payment.memo with
  | none => simp [hm] at h
  | some memo =>
    cases hs : selectByMemo db memo with
    | none => simp [hm, hs] at h
    | some inv =>
      simp only [hm, hs, Option.ite_none_right_eq_some, Option.some.injEq] at h
      obtain ⟨hcur, rfl⟩ := h
      exact ⟨memo, rfl, hs, hcur⟩

/-- **What a match says**: the row is of a stored invoice that is pending, in
the payment's currency, and that the payment is addressed to. -/
theorem matchInvoice_some {db : Db} {payment : HorizonPayment} {row : InvoiceRow}
    (h : matchInvoice db payment = some row) :
    ∃ i ∈ db.invoices, row = InvoiceRow.of i ∧ i.status = .pending ∧
      i.currency.code = paymentAssetCurrency payment ∧ AddressedTo payment i := by
  have hmemo : matchMemo db payment = some row →
      ∃ i ∈ db.invoices, row = InvoiceRow.of i ∧ i.status = .pending ∧
        i.currency.code = paymentAssetCurrency payment ∧ AddressedTo payment i := by
    intro hm
    obtain ⟨memo, hpm, hs, hcur⟩ := matchMemo_some hm
    obtain ⟨i, hi, rfl, hp, him⟩ := selectByMemo_some hs
    exact ⟨i, hi, rfl, hp, hcur, .inr ⟨by simp [hpm], by rw [hpm, him]⟩⟩
  unfold matchInvoice at h
  cases hd : decodeMuxedId payment.toAddress with
  | none =>
    rw [hd] at h
    exact hmemo h
  | some m =>
    cases hs : selectByMuxedId db m with
    | none =>
      simp only [hd, hs] at h
      exact hmemo h
    | some inv =>
      simp only [hd, hs, Option.ite_none_right_eq_some, Option.some.injEq] at h
      obtain ⟨hcur, rfl⟩ := h
      obtain ⟨i, hi, rfl, hp, him⟩ := selectByMuxedId_some hs
      exact ⟨i, hi, rfl, hp, hcur, .inl (by rw [hd, him])⟩

/-- The invoice that a payment matches is stored and pending. -/
theorem pending_of_match {db : Db} {payment : HorizonPayment} {row : InvoiceRow}
    (h : matchInvoice db payment = some row) :
    ∃ i ∈ db.invoices, i.id = row.id ∧ i.status = .pending := by
  obtain ⟨i, hi, rfl, hp, -⟩ := matchInvoice_some h
  exact ⟨i, hi, rfl, hp⟩

end Stargate.Reconciler
