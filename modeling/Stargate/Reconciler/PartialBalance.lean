import Stargate.Reconciler.InvoiceStates

/-!
# What is paid and what remains of an invoice

`applyPartialPayment` hands one text to two readers: `toUnits` cuts the digits
after the seventh and takes whole and fraction apart, the database reads the whole
text and rounds. What is paid and what remains add up to the gross as long as the
two agree (`ReadAlike`), and for an amount that is stored this is exact:
`conserved_applied_iff`.
-/

namespace Stargate.Reconciler

open Base Invoices

/-- Paid and remaining amount add up to the gross. -/
structure Conserved (i : Invoice) : Prop where
  sum : i.amountPaidUsdc.units + i.amountRemainingUsdc.units = i.grossUsdc.units
  nonneg : 0 ≤ i.amountPaidUsdc.units
  le_gross : i.amountPaidUsdc.units ≤ i.grossUsdc.units

instance (i : Invoice) : Decidable (Conserved i) :=
  decidable_of_iff (i.amountPaidUsdc.units + i.amountRemainingUsdc.units = i.grossUsdc.units ∧
    0 ≤ i.amountPaidUsdc.units ∧ i.amountPaidUsdc.units ≤ i.grossUsdc.units)
    ⟨fun h => ⟨h.1, h.2.1, h.2.2⟩, fun h => ⟨h.sum, h.nonneg, h.le_gross⟩⟩

/-- Where both the service and the database accept the text, they read the same
number of units. -/
def ReadAlike (paidAmount : String) : Prop :=
  ∀ u p, toUnits paidAmount = .ok u → Numeric.parse? paidAmount = some p →
    roundHalfAway (p * 10 ^ 7) = u

instance (paidAmount : String) : Decidable (ReadAlike paidAmount) :=
  match hu : toUnits paidAmount, hp : Numeric.parse? paidAmount with
  | .ok u, some p => decidable_of_iff (roundHalfAway (p * 10 ^ 7) = u)
    ⟨fun h u' p' hu' hp' => by
      cases hu.symm.trans hu'
      cases hp.symm.trans hp'
      exact h, fun h => h u p hu hp⟩
  | .error _, _ => isTrue fun _ _ hu' _ => nomatch hu.symm.trans hu'
  | .ok _, none => isTrue fun _ _ _ hp' => nomatch hp.symm.trans hp'

/-- Amounts as the other endpoints accept them are read alike. -/
theorem readAlike_of_isAmountText {cs : List Char} (h : isAmountText cs = true) :
    ReadAlike (String.ofList cs) := by
  intro u p hu hp
  obtain ⟨p', hp', hscale⟩ := Numeric.parse?_of_isAmountText h hu
  cases hp.symm.trans hp'
  rw [hscale, roundHalfAway_intCast]

/-- **A stored payment keeps the balance exactly where the two readers agree on its
amount.** -/
theorem conserved_applied_iff {i row : Invoice} {paidAmount : String} {remaining : Int}
    {now : Timestamp} (hi : Conserved i)
    (hremaining : partialRemaining i paidAmount = .ok remaining)
    (hrow : partialRow i paidAmount remaining now = some row) :
    Conserved row ↔ ReadAlike paidAmount := by
  obtain ⟨hsum, hnonneg, hle⟩ := hi
  obtain ⟨u, b, hu, hb, hdiff, -, -⟩ := partialRemaining_ok hremaining
  obtain ⟨hzero, paid, hpaid, rfl⟩ := partialRow_eq_some_iff.mp hrow
  obtain ⟨p, hp, hstored⟩ := Option.bind_eq_some_iff.mp hpaid
  have hupos := toUnits_pos hu
  -- the balance was positive, and it is paid in full
  have hbalance : u = i.amountRemainingUsdc.units := by
    rw [Numeric.toUnits_text (by omega)] at hb
    split at hb
    · cases hb
    · cases hb
      omega
  have hscale : (i.amountPaidUsdc.value + p) * 10 ^ 7
      = (i.amountPaidUsdc.units : ℚ) + p * 10 ^ 7 := by
    rw [Numeric.value]
    field_simp
  have hunits : roundHalfAway ((i.amountPaidUsdc.units : ℚ) + p * 10 ^ 7) = paid.units := by
    rw [← hscale]
    exact (Numeric.ofUnits?_eq_some.mp hstored).symm
  have hadd := roundHalfAway_intCast_add_iff (x := p * 10 ^ 7) hnonneg hupos
  rw [hunits] at hadd
  have halike : ReadAlike paidAmount ↔ roundHalfAway (p * 10 ^ 7) = u := by
    refine ⟨fun h => h u p hu hp, fun h u' p' hu' hp' => ?_⟩
    cases hu.symm.trans hu'
    cases hp.symm.trans hp'
    exact h
  rw [halike, ← hadd]
  constructor
  · intro h
    have := h.sum
    dsimp only at this
    omega
  · intro h
    exact ⟨by dsimp only; omega, by dsimp only; omega, by dsimp only; omega⟩

section Runs

variable {i i' : Invoice}

theorem conserved_of_created (h : Created i) (hgross : 0 ≤ i.grossUsdc.units) : Conserved i := by
  obtain ⟨env, now, id, db, merchantId, input, key, hcreates⟩ := h
  obtain ⟨-, -, hpaid, hremaining⟩ := unpaid_of_creates hcreates
  exact ⟨by rw [hpaid, hremaining, zero_add], hpaid.ge, hpaid ▸ hgross⟩

theorem RowStep.conserved (h : RowStep ReadAlike i i') (hi : Conserved i) : Conserved i' := by
  cases h with
  | same => exact hi
  | credited => exact ⟨hi.sum, hi.nonneg, hi.le_gross⟩
  | closed => exact ⟨hi.sum, hi.nonneg, hi.le_gross⟩
  | applied _ hA hremaining hrow => exact (conserved_applied_iff hi hremaining hrow).mpr hA

/-- **Nothing of an invoice is lost or paid twice** in a run whose partial payments
are read alike and whose new invoices have no negative gross. -/
theorem conserved_of_guarded_run {n m : Nat} {env : Env} {s t : Sys n m} {run : List (Label n m)}
    (hidle : s.Idle) (hstart : ∀ i ∈ s.world.db.invoices, Conserved i)
    (hguard : (system env n m).Guarded
      (Admits ReadAlike fun r => Created r ∧ 0 ≤ r.grossUsdc.units) s run)
    (hrun : (system env n m).run s run = some t) : ∀ i ∈ t.world.db.invoices, Conserved i :=
  (forall_rows_of_run (fun _ hr => conserved_of_created hr.1 hr.2)
    (fun _ _ hi hstep => hstep.conserved hi) hidle hstart hguard hrun).all

end Runs

/-! ## One invoice, one payment -/

/-- What `create` stores for 10 USDC with partial payments. -/
def tenPartial : Invoice where
  id := 1
  merchantId := 1
  amountUsdc := ⟨100000000, by decide⟩
  grossUsdc := ⟨103000000, by decide⟩
  feeUsdc := ⟨3000000, by decide⟩
  netUsdc := ⟨97500000, by decide⟩
  description := none
  status := .pending
  muxedId := 1000001
  muxedAddress := "MAAAAAAAAAAAAAAAAAAAAAAAAAAAAAAAAAAAAAAAAAAAAAAAAAAAAAAAAAAAAD2CIEAJY"
  memo := none
  expiresAt := 3600000000
  paidAt := none
  createdAt := 0
  amountPaidUsdc := ⟨0, Numeric.inRange_zero⟩
  amountRemainingUsdc := ⟨103000000, by decide⟩
  partialPaymentsEnabled := true
  idempotencyKey := none
  currency := .usdc
  grossUsdcEquiv := ⟨103000000, by decide⟩

theorem created_tenPartial : Created tenPartial := by
  have hstores : stores Invoices.testEnv 0 1 Invoices.testDb 1
      { Invoices.tenUsdc with partialPaymentsEnabled := some true } none (· = tenPartial)
        = true := by
    decide +kernel
  obtain ⟨r, hr, hrow⟩ := creates_of_stores (· = tenPartial) hstores
  exact ⟨_, _, _, _, _, _, _, hrow ▸ hr⟩

/-- Nothing is stored and nothing runs. -/
def emptySys : Sys 1 1 where
  world := ⟨{}, {}⟩

/-- The invoice is created and paid with `paidAmount`. -/
def payTen (paidAmount : String) : List (Label 1 1) :=
  [.create tenPartial, .applyPartial 0 1 paidAmount, .api 0 0, .api 0 0, .api 0 0]

/-- Paid in full, with a digit that one of the readers drops. -/
theorem conserved_of_guarded_run_exact : ∃ t, (system testEnv 1 1).run emptySys (payTen "10.30") =
    some t ∧ ∀ i ∈ t.world.db.invoices, Conserved i := by
  obtain ⟨t, ht, -⟩ := (system testEnv 1 1).exists_of_leadsTo (fun _ => True) emptySys
    (payTen "10.30") (by decide +kernel)
  have hguard : (system testEnv 1 1).Guarded (Admits ReadAlike fun r => r = tenPartial) emptySys
      (payTen "10.30") := by decide +kernel
  refine ⟨t, ht, conserved_of_guarded_run ⟨fun _ => rfl, fun _ => rfl⟩
    (fun _ h => absurd h List.not_mem_nil) ?_ ht⟩
  refine Lts.Guarded.mono _ (fun s a h => ?_) hguard
  cases a with
  | create r => exact (show r = tenPartial from h) ▸ ⟨created_tenPartial, by decide⟩
  | _ => exact h

/-- An eighth digit is dropped from what remains and rounded into what is paid:
the invoice ends with more paid than its gross. -/
theorem eighth_digit_overpays : ∃ t, Created tenPartial ∧
    (system testEnv 1 1).run emptySys (payTen "10.30000005") = some t ∧
      ∃ i ∈ t.world.db.invoices, i.id = tenPartial.id ∧ ¬ Conserved i ∧
        i.grossUsdc.units < i.amountPaidUsdc.units := by
  obtain ⟨t, ht, h⟩ := (system testEnv 1 1).exists_of_leadsTo
    (fun t => ∃ i ∈ t.world.db.invoices.rows, i.id = tenPartial.id ∧ ¬ Conserved i ∧
      i.grossUsdc.units < i.amountPaidUsdc.units) emptySys (payTen "10.30000005")
    (by decide +kernel)
  exact ⟨t, created_tenPartial, ht, h⟩

end Stargate.Reconciler
