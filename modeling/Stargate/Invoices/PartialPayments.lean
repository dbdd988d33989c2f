import Stargate.Invoices.WholeCalls

/-!
# Paying an invoice in several parts (`applyPartialPayment`)

One call is a transaction: it stores its row or leaves the database as it is. A
payment that leaves something to pay would store `'partial'`, which only one of the
two `CHECK` constraints on the column admits. So an invoice is paid in full by its
first payment or by none: `completes_iff`.
-/

namespace Stargate.Invoices

open Base

/-- Every payment of the list is accepted in turn; the invoice is `'partial'` after
each but the last, and paid with nothing remaining after that. -/
def Completes (invoiceId : Uuid) : Db → List (Timestamp × String) → Prop
  | _, [] => True
  | db, (now, paidAmount) :: rest =>
    ∃ row db', applyPartialPayment now db invoiceId paidAmount = (.ok row, db') ∧
      row ∈ db'.invoices ∧ row.id = invoiceId ∧
      (if rest = [] then row.status = .paid ∧ row.amountRemainingUsdc.units = 0
        else row.status = .partiallyPaid) ∧
      Completes invoiceId db' rest

section Payments

variable {db : Db} {i : Invoice} {now : Timestamp} {paidAmount : String}

/-- The row that the call locks. -/
theorem find?_active (hi : i ∈ db.invoices) (hactive : i.status.active = true) :
    (db.invoices.find? fun j => j.id == i.id && j.status.active) = some i := by
  cases hfind : db.invoices.find? fun j => j.id == i.id && j.status.active with
  | none =>
    have := List.find?_eq_none.mp hfind i hi
    simp [hactive] at this
  | some j =>
    obtain ⟨hj, hp⟩ := Table.find?_some hfind
    simp only [Bool.and_eq_true, beq_iff_eq] at hp
    rw [Table.eq_of_conflict hj hi (.inl hp.1)]

/-- The row that a call stores is found in the database after it. -/
theorem mem_commitPartial {row : Invoice} {remaining : Int} (hi : i ∈ db.invoices)
    (hrow : partialRow i paidAmount remaining now = some row) :
    row ∈ (commitPartial db row).invoices := by
  obtain ⟨-, paid, -, rfl⟩ := partialRow_eq_some_iff.mp hrow
  unfold commitPartial
  rw [Table.mem_modify]
  exact ⟨i, hi, by simp⟩

/-- **A call that succeeds pays the invoice off.** -/
theorem stored_of_applyPartialPayment {db' : Db} {row : Invoice} {invoiceId : Uuid}
    (h : applyPartialPayment now db invoiceId paidAmount = (.ok row, db')) :
    row ∈ db'.invoices ∧ row.id = invoiceId ∧ row.status = .paid ∧
      row.amountRemainingUsdc.units = 0 := by
  unfold applyPartialPayment at h
  split at h
  · cases h
  · next invoice hfind =>
    split at h
    · cases h
    · split at h
      · cases h
      · next hrow =>
        cases h
        obtain ⟨hmem, hp⟩ := Table.find?_some hfind
        simp only [Bool.and_eq_true, beq_iff_eq] at hp
        refine ⟨mem_commitPartial hmem hrow, ?_⟩
        obtain ⟨-, paid, -, rfl⟩ := partialRow_eq_some_iff.mp hrow
        exact ⟨hp.1, rfl, rfl⟩

/-- The units of a well-formed payment. -/
structure Amount (paidAmount : String) (units : Int) : Prop where
  text : isAmountText paidAmount.toList = true
  units : toUnits paidAmount = .ok units

/-- **A payment of all that remains is stored** if the column holds what is paid
then. -/
theorem applyPartialPayment_all (hi : i ∈ db.invoices) (hactive : i.status.active = true)
    (henabled : i.partialPaymentsEnabled = true)
    (hamount : Amount paidAmount i.amountRemainingUsdc.units) :
    (∃ row db', applyPartialPayment now db i.id paidAmount = (.ok row, db')) ↔
      (i.amountPaidUsdc.units + i.amountRemainingUsdc.units).natAbs < 10 ^ 18 := by
  have hpos := toUnits_pos hamount.units
  have hbefore : toUnits i.amountRemainingUsdc.text = .ok i.amountRemainingUsdc.units := by
    rw [Numeric.toUnits_text (by omega), if_neg (by omega)]
  have hremaining : partialRemaining i paidAmount = .ok 0 := by
    simp [partialRemaining, henabled, hamount.units, hbefore, bind, Except.bind]
  -- the database reads the text as the service does
  have hunits := hamount.units
  rw [← String.ofList_toList (s := paidAmount)] at hunits
  obtain ⟨p, hp, hscale⟩ := Numeric.parse?_of_isAmountText hamount.text hunits
  rw [String.ofList_toList] at hp
  have hsum : (i.amountPaidUsdc.value + p) * 10 ^ 7
      = ((i.amountPaidUsdc.units + i.amountRemainingUsdc.units : Int) : ℚ) := by
    push_cast
    rw [add_mul, hscale, Numeric.value]
    field_simp
  have hstored : ((Numeric.parse? paidAmount).bind fun p =>
      Numeric.ofRat? (i.amountPaidUsdc.value + p))
        = Numeric.ofUnits? (i.amountPaidUsdc.units + i.amountRemainingUsdc.units) := by
    rw [hp, Option.bind_some, Numeric.ofRat?, hsum, roundHalfAway_intCast]
  simp only [applyPartialPayment, find?_active hi hactive, hremaining]
  constructor
  · rintro ⟨row, db', h⟩
    split at h
    · cases h
    · next hrow =>
      obtain ⟨-, paid, hpaid, -⟩ := partialRow_eq_some_iff.mp hrow
      rw [hstored, Numeric.ofUnits?_eq_some] at hpaid
      rw [← hpaid]
      exact paid.inRange
  · intro hfits
    obtain ⟨row, hrow⟩ : ∃ row, partialRow i paidAmount 0 now = some row :=
      ⟨_, partialRow_eq_some_iff.mpr
        ⟨rfl, ⟨_, hfits⟩, hstored.trans (Numeric.ofUnits?_eq_some.mpr rfl), rfl⟩⟩
    rw [hrow]
    exact ⟨_, _, rfl⟩

/-- **An invoice is paid in parts only if there is one part.** -/
theorem completes_iff (hi : i ∈ db.invoices) (hactive : i.status.active = true)
    (henabled : i.partialPaymentsEnabled = true) (payments : List ((Timestamp × String) × Int))
    (hpos : 0 < i.amountRemainingUsdc.units)
    (hamounts : ∀ p ∈ payments, Amount p.1.2 p.2)
    (hsum : (payments.map Prod.snd).sum = i.amountRemainingUsdc.units) :
    Completes i.id db (payments.map Prod.fst) ↔
      payments.length = 1 ∧
        (i.amountPaidUsdc.units + i.amountRemainingUsdc.units).natAbs < 10 ^ 18 := by
  match payments with
  | [] =>
    simp at hsum
    omega
  | [((now, paidAmount), u)] =>
    have hu : u = i.amountRemainingUsdc.units := by simpa using hsum
    have hamount : Amount paidAmount i.amountRemainingUsdc.units :=
      hu ▸ hamounts _ List.mem_cons_self
    constructor
    · rintro ⟨row, db', h, -⟩
      exact ⟨rfl, (applyPartialPayment_all hi hactive henabled hamount).mp ⟨row, db', h⟩⟩
    · rintro ⟨-, hfits⟩
      obtain ⟨row, db', h⟩ := (applyPartialPayment_all hi hactive henabled hamount).mpr hfits
      obtain ⟨hmem, hid, hpaid, hleft⟩ := stored_of_applyPartialPayment h
      exact ⟨row, db', h, hmem, hid, by simp [hpaid, hleft], trivial⟩
  | ((now, paidAmount), u) :: p :: rest =>
    refine iff_of_false ?_ (by simp)
    rintro ⟨row, db', h, -, -, hstatus, -⟩
    rw [if_neg (by simp), (stored_of_applyPartialPayment h).2.2.1] at hstatus
    cases hstatus

end Payments

/-- `baseInvoice` of `partial-payments.spec.ts`. -/
def baseInvoice : Invoice where
  id := 1
  merchantId := 1
  amountUsdc := ⟨1000000000, by decide⟩
  grossUsdc := ⟨1000000000, by decide⟩
  feeUsdc := ⟨0, Numeric.inRange_zero⟩
  netUsdc := ⟨1000000000, by decide⟩
  description := none
  status := .pending
  muxedId := 1000001
  muxedAddress := "MTEST"
  memo := none
  expiresAt := 3600000000
  paidAt := none
  createdAt := 0
  amountPaidUsdc := ⟨0, Numeric.inRange_zero⟩
  amountRemainingUsdc := ⟨1000000000, by decide⟩
  partialPaymentsEnabled := true
  idempotencyKey := none
  currency := .usdc
  grossUsdcEquiv := ⟨1000000000, by decide⟩

/-- A database with the one invoice. -/
def baseDb : Db where
  invoices := ⟨[baseInvoice], List.pairwise_singleton _ _⟩

/-- All of it at once. -/
theorem completes_iff_at_once :
    Completes 1 baseDb [(0, "100.0000000")] ↔
      [(((0 : Timestamp), "100.0000000"), (1000000000 : Int))].length = 1 ∧
        ((0 : Int) + 1000000000).natAbs < 10 ^ 18 :=
  completes_iff (i := baseInvoice) List.mem_cons_self (by decide) rfl
    [((0, "100.0000000"), 1000000000)] (by decide) (fun p hp =>
      List.mem_singleton.mp hp ▸ ⟨by decide +kernel, by decide +kernel⟩) (by decide)

/-- The 40 and 60 USDC of an invoice for 100: well-formed, but the first of them is
refused by the database. -/
theorem forty_and_sixty_rejected :
    baseInvoice ∈ baseDb.invoices ∧ baseInvoice.status.active = true ∧
      baseInvoice.partialPaymentsEnabled = true ∧
      Amount "40.0000000" 400000000 ∧ Amount "60.0000000" 600000000 ∧
      (400000000 : Int) + 600000000 = baseInvoice.amountRemainingUsdc.units ∧
      (applyPartialPayment 0 baseDb 1 "40.0000000").1 = .error .database ∧
      ¬ Completes 1 baseDb [(0, "40.0000000"), (0, "60.0000000")] := by
  have hfirst : (applyPartialPayment 0 baseDb 1 "40.0000000").1 = .error .database := by
    decide +kernel
  refine ⟨List.mem_cons_self, by decide, rfl, ⟨by decide +kernel, by decide +kernel⟩,
    ⟨by decide +kernel, by decide +kernel⟩, by decide, hfirst, ?_⟩
  rintro ⟨row, db', h, -⟩
  rw [h] at hfirst
  cases hfirst

end Stargate.Invoices
