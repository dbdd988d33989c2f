import Stargate.Invoices.Bookkeeping

/-!
# Fees and bounds of a USDC invoice

What a merchant's configuration makes of an amount: the two bounds, the tier's rate and its
fixed fee.

- `quote_usdc`: for a USDC amount, `quote` is the bounds, the fees and the check of `net`;
- `bounds_exact_iff`: it refuses what the configuration refuses, unless a value that is
  configured is zero;
- `splitting_never_saves`: two invoices cost at least as much as one for the sum.
-/

namespace Stargate.Invoices

open Base

/-! ## A rate, rounded down -/

section Floor

variable {a b r d : Int}

theorem mul_ediv_mono (hr : 0 ≤ r) (hd : 0 < d) (h : a ≤ b) : a * r / d ≤ b * r / d :=
  Int.ediv_le_ediv hd (Int.mul_le_mul_of_nonneg_right h hr)

/-- Rounding two parts down loses less than one more. -/
theorem add_mul_ediv_le (hd : 0 < d) : (a + b) * r / d ≤ a * r / d + b * r / d + 1 := by
  have ha := Int.lt_mul_ediv_self_add (x := a * r) hd
  have hb := Int.lt_mul_ediv_self_add (x := b * r) hd
  have hsum : (a + b) * r < (a * r / d + b * r / d + 2) * d := by
    calc (a + b) * r = a * r + b * r := Int.add_mul a b r
      _ < (d * (a * r / d) + d) + (d * (b * r / d) + d) := Int.add_lt_add ha hb
      _ = (a * r / d + b * r / d + 2) * d := by ring
  have := Int.ediv_lt_of_lt_mul hd hsum
  omega

end Floor

/-! ## What a configuration admits -/

/-- The fixed fee of a tier, in units. -/
def fixedFee (m : Merchant) : Int :=
  match m.tier with
  | .pro => 1000000
  | .enterprise => m.feeFixedUsdc.units
  | .standard => 2500000

/-- A configuration without negative values and without spend limits. -/
structure Configured (m : Merchant) : Prop where
  bps : 0 ≤ m.feeBps
  fixed : 0 ≤ m.feeFixedUsdc.units
  minimum : ∀ bound, m.minInvoiceUsdc = some bound → 0 ≤ bound.units
  maximum : ∀ bound, m.maxInvoiceUsdc = some bound → 0 ≤ bound.units
  daily : m.dailySpendLimitUsdc = none
  monthly : m.monthlySpendLimitUsdc = none

/-- The amount is within the bounds and covers the fixed fee. -/
structure Admits (m : Merchant) (u : Int) : Prop where
  minimum : ∀ bound, m.minInvoiceUsdc = some bound → bound.units ≤ u
  maximum : ∀ bound, m.maxInvoiceUsdc = some bound → u ≤ bound.units
  fixed : fixedFee m ≤ u

/-- A minimum of zero, or a contract without a fixed fee. -/
def ZeroConfigured (m : Merchant) : Prop :=
  (∃ bound, m.minInvoiceUsdc = some bound ∧ bound.units = 0) ∨
    (m.tier = .enterprise ∧ m.feeFixedUsdc.units = 0)

/-- A request for `u` units of USDC to a merchant that takes USDC. -/
structure UsdcRequest (db : Db) (merchantId : Uuid) (input : CreateInput) (m : Merchant)
    (dto : CreateDto) (u : Int) : Prop where
  parsed : parseCreate input = .ok dto
  currency : dto.currency = .usdc
  units : toUnits dto.amount = .ok u
  merchant : db.merchants.find? (fun m => m.id == merchantId) = some m
  accepts : ∀ assets, m.acceptedAssets = some assets → Currency.usdc.code ∈ assets

/-- A `BadRequestException`. -/
def IsBadRequest {α : Type} (x : Except ApiError α) : Prop :=
  ∃ message, x = .error (.badRequest message)

section Quote

variable {env : CreateEnv} {now : Timestamp} {db : Db} {merchantId : Uuid} {input : CreateInput}
  {m : Merchant} {dto : CreateDto} {u : Int}

theorem fixedFeeUnits_eq (h : 0 ≤ m.feeFixedUsdc.units) : fixedFeeUnits m =
    if fixedFee m = 0 then .error (.badRequest "Amount must be greater than zero")
    else .ok (fixedFee m) := by
  have htenth : toUnits "0.10" = .ok 1000000 := by decide +kernel
  have hquarter : toUnits "0.25" = .ok 2500000 := by decide +kernel
  unfold fixedFeeUnits fixedFee
  cases m.tier with
  | pro => exact htenth
  | enterprise => exact Numeric.toUnits_text h
  | standard => exact hquarter

/-- Only a contract has no fixed fee. -/
theorem fixedFee_eq_zero_iff :
    fixedFee m = 0 ↔ m.tier = .enterprise ∧ m.feeFixedUsdc.units = 0 := by
  unfold fixedFee
  split
  · next htier => simp [htier]
  · next htier => simp [htier]
  · next htier => simp [htier]

theorem feeRate_nonneg (h : 0 ≤ m.feeBps) : 0 ≤ feeRate m := by
  unfold feeRate
  split
  · decide
  · exact h
  · decide

/-- One of the two checks of `checkBounds`. -/
def checkBound (refuses : Int → Bool) (message : String → String) :
    Option Numeric → Except ApiError Unit
  | some bound => (toUnits bound.text).bind fun x =>
    if refuses x then .error (.badRequest (message bound.text)) else .ok ()
  | none => .ok ()

def tooSmall (bound : String) : String :=
  "Invoice amount must be at least " ++ bound ++ " USDC equivalent"

def tooLarge (bound : String) : String :=
  "Invoice amount cannot exceed " ++ bound ++ " USDC equivalent"

theorem checkBounds_eq : checkBounds m u =
    (checkBound (fun x => u < x) tooSmall m.minInvoiceUsdc).bind fun _ =>
      checkBound (fun x => x < u) tooLarge m.maxInvoiceUsdc := by
  have hmaximum : ∀ {x : Except ApiError Int} {message : String},
      (x >>= fun bound => if bound < u then throw (.badRequest message) else pure ()) =
        x.bind fun bound =>
          if (bound < u : Bool) then .error (.badRequest message) else .ok () := by
    intro x message
    cases x with
    | error e => rfl
    | ok bound =>
      simp only [decide_eq_true_eq]
      rfl
  unfold checkBounds checkBound tooSmall tooLarge
  cases m.minInvoiceUsdc with
  | none =>
    cases m.maxInvoiceUsdc with
    | none => rfl
    | some maximum => exact hmaximum
  | some minimum =>
    dsimp only [Except.bind, bind]
    cases toUnits minimum.text with
    | error e => rfl
    | ok x =>
      dsimp only
      by_cases hrefuses : u < x
      · rw [if_pos hrefuses, if_pos (decide_eq_true hrefuses)]
        rfl
      · rw [if_neg hrefuses, if_neg (by simpa using hrefuses)]
        cases m.maxInvoiceUsdc with
        | none => rfl
        | some maximum => exact hmaximum

/-- It passes unless the bound is zero or refuses the amount. -/
theorem checkBound_cases (refuses : Int → Bool) (message : String → String)
    {bound : Option Numeric} (h : ∀ b, bound = some b → 0 ≤ b.units) :
    (checkBound refuses message bound = .ok () ∧
      ∀ b, bound = some b → b.units ≠ 0 ∧ refuses b.units = false) ∨
    (IsBadRequest (checkBound refuses message bound) ∧
      ∃ b, bound = some b ∧ (b.units = 0 ∨ refuses b.units = true)) := by
  cases bound with
  | none => exact .inl ⟨rfl, fun b hb => by cases hb⟩
  | some b =>
    dsimp only [checkBound]
    rw [Numeric.toUnits_text (h b rfl)]
    by_cases hzero : b.units = 0
    · rw [if_pos hzero]
      exact .inr ⟨⟨_, rfl⟩, b, rfl, .inl hzero⟩
    · rw [if_neg hzero]
      cases hrefuses : refuses b.units with
      | true =>
        refine .inr ⟨⟨message b.text, ?_⟩, b, rfl, .inr hrefuses⟩
        dsimp only [Except.bind]
        rw [hrefuses]
        rfl
      | false =>
        refine .inl ⟨?_, fun b' hb' => ?_⟩
        · dsimp only [Except.bind]
          rw [hrefuses]
          rfl
        · cases hb'
          exact ⟨hzero, hrefuses⟩

/-- The bounds pass unless one of them is zero or refuses the amount. -/
theorem checkBounds_cases (hm : Configured m) :
    (checkBounds m u = .ok () ∧
      (∀ b, m.minInvoiceUsdc = some b → b.units ≠ 0 ∧ b.units ≤ u) ∧
      ∀ b, m.maxInvoiceUsdc = some b → b.units ≠ 0 ∧ u ≤ b.units) ∨
    (IsBadRequest (checkBounds m u) ∧
      ((∃ b, m.minInvoiceUsdc = some b ∧ (b.units = 0 ∨ u < b.units)) ∨
        ∃ b, m.maxInvoiceUsdc = some b ∧ (b.units = 0 ∨ b.units < u))) := by
  rw [checkBounds_eq]
  rcases checkBound_cases (fun x => u < x) tooSmall hm.minimum with
    ⟨hok, hminimum⟩ | ⟨⟨message, hmessage⟩, b, hb, hbad⟩
  · rw [hok]
    dsimp only [Except.bind]
    have hminimum : ∀ b, m.minInvoiceUsdc = some b → b.units ≠ 0 ∧ b.units ≤ u := fun b hb =>
      ⟨(hminimum b hb).1, not_lt.mp (of_decide_eq_false (hminimum b hb).2)⟩
    rcases checkBound_cases (fun x => x < u) tooLarge hm.maximum with
      ⟨hok, hmaximum⟩ | ⟨hrefused, b, hb, hbad⟩
    · exact .inl ⟨hok, hminimum, fun b hb =>
        ⟨(hmaximum b hb).1, not_lt.mp (of_decide_eq_false (hmaximum b hb).2)⟩⟩
    · exact .inr ⟨hrefused, .inr ⟨b, hb, hbad.imp_right of_decide_eq_true⟩⟩
  -- the minimum is checked first
  · rw [hmessage]
    exact .inr ⟨⟨message, rfl⟩, .inl ⟨b, hb, hbad.imp_right of_decide_eq_true⟩⟩

/-- For a USDC amount, `quote` is the bounds, the fees and the check of `net`. -/
theorem quote_usdc (hm : Configured m) (hreq : UsdcRequest db merchantId input m dto u) :
    quote env now db merchantId input = (checkBounds m u).bind fun _ =>
      (fixedFeeUnits m).bind fun fixed =>
        if u - fixed < 0 then .error (.badRequest
          "Invoice amount is less than the fixed fee; net payout would be negative")
        else
          let fee := (u * feeRate m).tdiv 10000 + fixed
          .ok { dto, fee, merchant := m, usdcEquivStr := dto.amount, amount := u,
                gross := u + fee, net := u - fixed } := by
  obtain ⟨amount, currency, description, minutes, partialPayments⟩ := dto
  obtain ⟨hparsed, rfl, hunits, hmerchant, haccepts⟩ := hreq
  have hassets : ¬ (m.acceptedAssets.any fun assets => !assets.contains Currency.usdc.code) := by
    rw [Option.any_eq_true]
    rintro ⟨assets, hassets, hmissing⟩
    rw [Bool.not_eq_true', List.contains_eq_mem, decide_eq_false_iff_not] at hmissing
    exact hmissing (haccepts assets hassets)
  have hlimits : enforceSpendLimits env now db m u = .ok () := by
    unfold enforceSpendLimits
    rw [hm.daily, hm.monthly]
    rfl
  have hstr : toUsdc db amount .usdc = amount := if_pos rfl
  unfold quote
  rw [hparsed]
  dsimp only [bind, Except.bind]
  rw [hmerchant]
  dsimp only
  rw [if_neg hassets, hstr, hunits]
  dsimp only
  rw [hlimits]
  dsimp only
  cases checkBounds m u with
  | error e => rfl
  | ok x =>
    dsimp only
    unfold calculateFee
    cases fixedFeeUnits m with
    | error e => rfl
    | ok fixed => rfl

/-- **What becomes of a USDC amount**: it is quoted with its fee, or refused. -/
theorem quote_cases (env : CreateEnv) (now : Timestamp) (hm : Configured m)
    (hreq : UsdcRequest db merchantId input m dto u) :
    (∃ q, quote env now db merchantId input = .ok q ∧
      q.fee = u * feeRate m / 10000 + fixedFee m ∧ Admits m u ∧ ¬ZeroConfigured m) ∨
    (IsBadRequest (quote env now db merchantId input) ∧ (¬Admits m u ∨ ZeroConfigured m)) := by
  have hu : 0 < u := toUnits_pos hreq.units
  rw [quote_usdc hm hreq]
  rcases checkBounds_cases (u := u) hm with
    ⟨hok, hminimum, hmaximum⟩ | ⟨⟨message, hmessage⟩, hbad⟩
  · rw [hok, fixedFeeUnits_eq hm.fixed]
    dsimp only [Except.bind]
    by_cases hfixed : fixedFee m = 0
    · rw [if_pos hfixed]
      exact .inr ⟨⟨_, rfl⟩, .inr (.inr (fixedFee_eq_zero_iff.mp hfixed))⟩
    · rw [if_neg hfixed]
      dsimp only
      by_cases hnet : u - fixedFee m < 0
      · rw [if_pos hnet]
        refine .inr ⟨⟨_, rfl⟩, .inl fun hadmits => ?_⟩
        have := hadmits.fixed
        omega
      · rw [if_neg hnet]
        refine .inl ⟨_, rfl, ?_, ⟨fun b hb => (hminimum b hb).2, fun b hb => (hmaximum b hb).2, ?_⟩,
          ?_⟩
        · rw [Int.tdiv_eq_ediv_of_nonneg (Int.mul_nonneg hu.le (feeRate_nonneg hm.bps))]
        · omega
        · rintro (⟨b, hb, hzero⟩ | hcontract)
          · exact (hminimum b hb).1 hzero
          · exact hfixed (fixedFee_eq_zero_iff.mpr hcontract)
  · rw [hmessage]
    refine .inr ⟨⟨message, rfl⟩, ?_⟩
    rcases hbad with ⟨b, hb, hzero | hlt⟩ | ⟨b, hb, hzero | hlt⟩
    · exact .inr (.inl ⟨b, hb, hzero⟩)
    · exact .inl fun hadmits => absurd (hadmits.minimum b hb) (not_le.mpr hlt)
    · -- a maximum of zero admits nothing
      refine .inl fun hadmits => ?_
      have := hadmits.maximum b hb
      omega
    · exact .inl fun hadmits => absurd (hadmits.maximum b hb) (not_le.mpr hlt)

end Quote

/-! ## Bounds and fees of every configuration -/

section Bounds

variable {env : CreateEnv} {now : Timestamp} {id : Uuid} {db : Db} {merchantId : Uuid}
  {input : CreateInput} {key : Option String} {m : Merchant} {dto : CreateDto} {u : Int}
  {q q' : Quote}

/-- The fee follows from the request and the tables. -/
theorem QuoteOk.fee_unique (h : QuoteOk db merchantId input q)
    (h' : QuoteOk db merchantId input q') : q.fee = q'.fee := by
  have hdto : q.dto = q'.dto := Except.ok.inj (h.dto.symm.trans h'.dto)
  have hmerchant : q.merchant = q'.merchant := Option.some.inj (h.merchant.symm.trans h'.merchant)
  have hstr : q.usdcEquivStr = q'.usdcEquivStr := by
    rw [h.usdcEquivStr, h'.usdcEquivStr, hdto]
  obtain ⟨x, fixed, hx, hfixed, hfee, -⟩ := h.fees
  obtain ⟨x', fixed', hx', hfixed', hfee', -⟩ := h'.fees
  rw [hstr] at hx
  rw [hmerchant] at hfixed
  cases hx.symm.trans hx'
  cases hfixed.symm.trans hfixed'
  rw [hfee, hfee', hmerchant]

/-- What a configuration should make of an amount: the fee of the tier, in the quote and in
every row that the call stores, or a `BadRequestException`. -/
def BoundsExact (env : CreateEnv) (now : Timestamp) (id : Uuid) (db : Db) (merchantId : Uuid)
    (input : CreateInput) (key : Option String) (m : Merchant) (u : Int) : Prop :=
  (Admits m u → ∃ q, quote env now db merchantId input = .ok q ∧
    q.fee = u * feeRate m / 10000 + fixedFee m ∧
    ∀ r, Creates env now id db merchantId input key r → r.feeUsdc.units = q.fee) ∧
  (¬Admits m u → IsBadRequest (create env now id db merchantId input key).1)

/-- A call that no earlier one answers fails where its quote does. -/
theorem create_of_quote_error {e : ApiError}
    (hkey : (key.filter (· ≠ "")).elim (.ok none) (replay env db merchantId input) = .ok none)
    (h : quote env now db merchantId input = .error e) :
    create env now id db merchantId input key = (.error e, db) := by
  unfold create
  rw [hkey]
  dsimp only
  rw [h]

/-- **Bounds and fees are exact unless a configured value is zero**: a minimum of zero, and a
contract without a fixed fee, refuse every amount. -/
theorem bounds_exact_iff (hm : Configured m) (hreq : UsdcRequest db merchantId input m dto u)
    (hkey : (key.filter (· ≠ "")).elim (.ok none) (replay env db merchantId input) = .ok none) :
    BoundsExact env now id db merchantId input key m u ↔ ¬Admits m u ∨ ¬ZeroConfigured m := by
  rcases quote_cases env now hm hreq with
    ⟨q, hq, hfee, hadmits, hzero⟩ | ⟨⟨message, hrefused⟩, hwhy⟩
  · refine iff_of_true ⟨fun _ => ⟨q, hq, hfee, fun r hr => ?_⟩, fun h => absurd hadmits h⟩
      (.inr hzero)
    obtain ⟨q', hq', hrow⟩ := creates_spec hr
    exact hrow.fee.trans (hq'.fee_unique (quoteOk_of_quote hq))
  · constructor
    · rintro ⟨hpasses, -⟩
      by_cases hadmits : Admits m u
      · obtain ⟨q, hq, -⟩ := hpasses hadmits
        rw [hrefused] at hq
        cases hq
      · exact .inl hadmits
    · intro hcond
      have hnot : ¬Admits m u := fun hadmits =>
        hwhy.elim (absurd hadmits) (hcond.resolve_left (not_not.mpr hadmits))
      refine ⟨fun hadmits => absurd hadmits hnot, fun _ => ⟨message, ?_⟩⟩
      rw [create_of_quote_error hkey hrefused]

/-- `testMerchant` with a minimum of zero. -/
def noMinimum : Merchant := { testMerchant with minInvoiceUsdc := some ⟨0, Numeric.inRange_zero⟩ }

def noMinimumDb : Db where
  merchants := ⟨[noMinimum], List.pairwise_singleton _ _⟩

theorem configured_noMinimum : Configured noMinimum where
  bps := by decide
  fixed := by decide
  minimum bound h := by
    cases h
    decide
  maximum bound h := by cases h
  daily := rfl
  monthly := rfl

theorem tenUsdc_request {db : Db} (h : db.merchants.find? (fun m => m.id == 1) = some m)
    (hassets : m.acceptedAssets = none) :
    UsdcRequest db 1 tenUsdc m ⟨"10", .usdc, none, 60, false⟩ 100000000 where
  parsed := by decide +kernel
  currency := rfl
  units := by decide +kernel
  merchant := h
  accepts assets h := by
    rw [hassets] at h
    cases h

theorem bounds_exact_testMerchant :
    BoundsExact testEnv 0 1 testDb 1 tenUsdc none testMerchant 100000000 := by
  have hm : Configured testMerchant := by
    refine ⟨by decide, by decide, ?_, ?_, rfl, rfl⟩
    · intro bound h
      cases h
    · intro bound h
      cases h
  refine (bounds_exact_iff hm (tenUsdc_request rfl rfl) rfl).mpr (.inr ?_)
  rintro (⟨bound, h, -⟩ | ⟨h, -⟩)
  · cases h
  · cases h

/-- **A minimum of zero refuses everything**: an invoice of 10 USDC, which is above it and
covers the fixed fee, is a `BadRequestException`. -/
theorem zero_minimum_refuses : Configured noMinimum ∧ Admits noMinimum 100000000 ∧
    UsdcRequest noMinimumDb 1 tenUsdc noMinimum ⟨"10", .usdc, none, 60, false⟩ 100000000 ∧
    (create testEnv 0 1 noMinimumDb 1 tenUsdc none).1
      = .error (.badRequest "Amount must be greater than zero") ∧
    ¬BoundsExact testEnv 0 1 noMinimumDb 1 tenUsdc none noMinimum 100000000 := by
  have hadmits : Admits noMinimum 100000000 := by
    refine ⟨?_, ?_, by decide⟩
    · intro bound h
      cases h
      decide
    · intro bound h
      cases h
  have hrefused : quote testEnv 0 noMinimumDb 1 tenUsdc
      = .error (.badRequest "Amount must be greater than zero") := by decide +kernel
  refine ⟨configured_noMinimum, hadmits, tenUsdc_request rfl rfl, ?_, fun h => ?_⟩
  · rw [create_of_quote_error rfl hrefused]
  · obtain ⟨q, hq, -⟩ := h.1 hadmits
    rw [hrefused] at hq
    cases hq

end Bounds

/-! ## Two invoices or one -/

section Splitting

variable {m : Merchant} {ra rb rab : Invoice}

/-- A stored USDC invoice of a merchant with the fees of `m`. -/
structure UsdcInvoice (m : Merchant) (r : Invoice) : Prop where
  stored : ∃ env now id db merchantId input key m', Creates env now id db merchantId input key r ∧
    db.merchants.find? (fun m => m.id == merchantId) = some m' ∧ SameFees m m'
  usdc : r.currency = .usdc

/-- The fee of an amount, with the fixed fee `fixed`. -/
def feeOf (m : Merchant) (fixed u : Int) : Int := (u * feeRate m).tdiv 10000 + fixed

theorem calculateFee_eq_ok {u fee : Int} : calculateFee u m = .ok fee ↔
    ∃ fixed, fixedFeeUnits m = .ok fixed ∧ fee = feeOf m fixed u := by
  unfold calculateFee
  rw [bind_eq_ok]
  constructor
  · rintro ⟨fixed, hfixed, h⟩
    exact ⟨fixed, hfixed, (Except.ok.inj h).symm⟩
  · rintro ⟨fixed, hfixed, rfl⟩
    exact ⟨fixed, hfixed, rfl⟩

theorem feeOf_of_nonneg (hbps : 0 ≤ m.feeBps) (fixed : Int) {u : Int} (hu : 0 ≤ u) :
    feeOf m fixed u = u * feeRate m / 10000 + fixed := by
  rw [feeOf, Int.tdiv_eq_ediv_of_nonneg (Int.mul_nonneg hu (feeRate_nonneg hbps))]

/-- A stored USDC invoice has the fee of its amount on top, and the fixed fee deducted. -/
theorem UsdcInvoice.amounts {r : Invoice} {fixed : Int} (h : UsdcInvoice m r)
    (hfixed : fixedFeeUnits m = .ok fixed) : 0 < r.amountUsdc.units ∧
      r.grossUsdc.units = r.amountUsdc.units + feeOf m fixed r.amountUsdc.units ∧
      r.netUsdc.units = r.amountUsdc.units - fixed := by
  obtain ⟨⟨env, now, id, db, merchantId, input, key, m', hr, hm', hfees⟩, husdc⟩ := h
  obtain ⟨q, hq, hrow⟩ := creates_spec hr
  cases hm'.symm.trans hq.merchant
  have hcur : q.dto.currency = .usdc := hrow.currency.symm.trans husdc
  obtain ⟨u, fixed', hu, hfixed', hfee, hnet⟩ := hq.fees
  obtain ⟨fee, hnative, hgross⟩ := hq.gross
  -- the amount is its own value in USDC, and so is the fee
  rw [feeInCurrency, if_pos hcur] at hnative
  cases hnative
  rw [hq.usdcEquivStr, toUsdc, if_pos hcur] at hu
  cases hq.amount.symm.trans hu
  rw [← hfees.fixedFeeUnits] at hfixed'
  cases hfixed.symm.trans hfixed'
  rw [hrow.amount, hrow.gross, hrow.net]
  refine ⟨toUnits_pos hq.amount, ?_, hnet⟩
  rw [hgross, hfee, feeOf, hfees.feeRate]

/-- **Splitting an invoice never saves fees.** The fee is monotone and subadditive, since the
fixed fee is at least the unit that rounding down can lose. Two stored invoices gross at least
as much, and net at most as much, as one for the sum of their amounts. -/
theorem splitting_never_saves {u₀ fee₀ : Int} (hbps : 0 ≤ m.feeBps)
    (h : calculateFee u₀ m = .ok fee₀) :
    ∃ fee : Int → Int, (∀ u, calculateFee u m = .ok (fee u)) ∧
      (∀ a b, 0 < a → a ≤ b → fee a ≤ fee b) ∧
      (∀ a b, 0 < a → 0 < b → fee (a + b) ≤ fee a + fee b) ∧
      ∀ ra rb rab, UsdcInvoice m ra → UsdcInvoice m rb → UsdcInvoice m rab →
        rab.amountUsdc.units = ra.amountUsdc.units + rb.amountUsdc.units →
        rab.grossUsdc.units ≤ ra.grossUsdc.units + rb.grossUsdc.units ∧
        ra.netUsdc.units + rb.netUsdc.units ≤ rab.netUsdc.units := by
  obtain ⟨fixed, hfixed, -⟩ := calculateFee_eq_ok.mp h
  have hpos := fixedFeeUnits_pos hfixed
  have hrate := feeRate_nonneg hbps
  have hmono : ∀ a b, 0 < a → a ≤ b → feeOf m fixed a ≤ feeOf m fixed b := by
    intro a b ha hab
    rw [feeOf_of_nonneg hbps fixed ha.le, feeOf_of_nonneg hbps fixed (ha.le.trans hab)]
    exact Int.add_le_add_right (mul_ediv_mono hrate (by decide) hab) fixed
  have hsub : ∀ a b, 0 < a → 0 < b → feeOf m fixed (a + b) ≤ feeOf m fixed a + feeOf m fixed b := by
    intro a b ha hb
    rw [feeOf_of_nonneg hbps fixed ha.le, feeOf_of_nonneg hbps fixed hb.le,
      feeOf_of_nonneg hbps fixed (Int.add_nonneg ha.le hb.le)]
    have := add_mul_ediv_le (a := a) (b := b) (r := feeRate m) (show (0 : Int) < 10000 by decide)
    omega
  refine ⟨feeOf m fixed, fun u => calculateFee_eq_ok.mpr ⟨fixed, hfixed, rfl⟩, hmono, hsub, ?_⟩
  intro ra rb rab hra hrb hrab hsum
  obtain ⟨hapos, hagross, hanet⟩ := hra.amounts hfixed
  obtain ⟨hbpos, hbgross, hbnet⟩ := hrb.amounts hfixed
  obtain ⟨-, hgross, hnet⟩ := hrab.amounts hfixed
  have hfee := hsub _ _ hapos hbpos
  rw [hsum] at hgross hnet
  constructor
  · omega
  · omega

theorem splitting_testMerchant : ∃ fee : Int → Int,
    (∀ u, calculateFee u testMerchant = .ok (fee u)) ∧
    ∀ a b, 0 < a → 0 < b → fee (a + b) ≤ fee a + fee b := by
  have hfee : calculateFee 100000000 testMerchant = .ok 3000000 := by decide +kernel
  obtain ⟨fee, heq, -, hsub, -⟩ := splitting_never_saves (by decide) hfee
  exact ⟨fee, heq, hsub⟩

end Splitting

end Stargate.Invoices
