import Stargate.Invoices.Create
import Stargate.Reconciler.Processor

/-!
# What the money columns of a new invoice add up to

`create` writes four amounts: what the payer sends (`gross`), the platform fee,
what the merchant gets (`net`), and the USDC value of the gross amount. The
reconciler copies the last three to the ledger, and settlements pay out `net` as
USDC.

- `creates_spec`: the columns of a stored row, from the amounts that `quote` has
  computed;
- `gross_usdc_equiv_eq`: in a USDC invoice gross is fee, net and the fixed fee,
  which the payer pays on top and the merchant gets deducted. So it is never
  fee and net alone;
- `usdcColumns_ne`: an invoice in another currency never has the USDC columns of
  the USDC invoice of its value.
-/

namespace Stargate.Invoices

open Base

/-- The call stores a new row. -/
def Creates (env : CreateEnv) (now : Timestamp) (id : Uuid) (db : Db) (merchantId : Uuid)
    (input : CreateInput) (key : Option String) (r : Invoice) : Prop :=
  ∃ db', create env now id db merchantId input key = (.ok (.invoice r), db') ∧
    r ∈ db'.invoices ∧ r ∉ db.invoices

/-- Does the call store a row that meets `P`? -/
def stores (env : CreateEnv) (now : Timestamp) (id : Uuid) (db : Db) (merchantId : Uuid)
    (input : CreateInput) (key : Option String) (P : Invoice → Prop) [DecidablePred P] : Bool :=
  match create env now id db merchantId input key with
  | (.ok (.invoice r), db') => decide (r ∈ db'.invoices.rows ∧ r ∉ db.invoices.rows ∧ P r)
  | _ => false

/-- A call on fixed arguments is checked by evaluation. -/
theorem creates_of_stores {env : CreateEnv} {now : Timestamp} {id : Uuid} {db : Db}
    {merchantId : Uuid} {input : CreateInput} {key : Option String} (P : Invoice → Prop)
    [DecidablePred P] (h : stores env now id db merchantId input key P = true) :
    ∃ r, Creates env now id db merchantId input key r ∧ P r := by
  unfold stores at h
  split at h
  · next r db' hcreate =>
    obtain ⟨hmem, hnew, hP⟩ := of_decide_eq_true h
    exact ⟨r, ⟨db', hcreate, hmem, hnew⟩, hP⟩
  · cases h

/-- A merchant as the migrations leave it. -/
def testMerchant : Merchant where
  id := 1
  name := "merchant-1"
  tier := .standard
  feeBps := 50
  feeFixedUsdc := ⟨2500000, by decide⟩
  muxedBaseId := some 1000000
  invoiceSeq := 0
  minInvoiceUsdc := none
  maxInvoiceUsdc := none
  dailySpendLimitUsdc := none
  monthlySpendLimitUsdc := none
  acceptedAssets := none
  settlementScheduledAt := none
  unpaidInvoiceTtlMinutes := 1440
  testMode := false
  createdAt := 0

def testDb : Db where
  merchants := ⟨[testMerchant], List.pairwise_singleton _ _⟩

/-- A service at the start of a month. -/
def testEnv : CreateEnv where
  hashBody _ := "hash"
  treasury := Vector.replicate 32 0
  startOfDay _ := 0
  startOfMonth _ := 0

/-! ## From the call to its amounts -/

/-- How the amounts of a call hang together. -/
structure QuoteOk (db : Db) (merchantId : Uuid) (input : CreateInput) (q : Quote) : Prop where
  dto : parseCreate input = .ok q.dto
  merchant : db.merchants.find? (fun m => m.id == merchantId) = some q.merchant
  usdcEquivStr : q.usdcEquivStr = toUsdc db q.dto.amount q.dto.currency
  amount : toUnits q.dto.amount = .ok q.amount
  fees : ∃ usdcEquiv fixed, toUnits q.usdcEquivStr = .ok usdcEquiv ∧
    fixedFeeUnits q.merchant = .ok fixed ∧
    q.fee = (usdcEquiv * feeRate q.merchant).tdiv 10000 + fixed ∧ q.net = q.amount - fixed
  gross : ∃ fee, feeInCurrency db q.fee q.dto.currency = .ok fee ∧ q.gross = q.amount + fee

/-- The columns of the row hold the amounts of the call. -/
structure RowOf (q : Quote) (r : Invoice) : Prop where
  currency : r.currency = q.dto.currency
  pending : r.status = .pending
  amount : r.amountUsdc.units = q.amount
  gross : r.grossUsdc.units = q.gross
  fee : r.feeUsdc.units = q.fee
  net : r.netUsdc.units = q.net
  usdc : q.dto.currency = .usdc → r.grossUsdcEquiv.units = q.gross
  converted : q.dto.currency ≠ .usdc → Numeric.ofText? q.usdcEquivStr = some r.grossUsdcEquiv

section Spec

variable {env : CreateEnv} {now : Timestamp} {id : Uuid} {db db' : Db} {merchantId : Uuid}
  {input : CreateInput} {key : Option String} {q : Quote} {r : Invoice}

theorem quoteOk_of_quote (h : quote env now db merchantId input = .ok q) :
    QuoteOk db merchantId input q := by
  unfold quote at h
  obtain ⟨dto, hdto, h⟩ := bind_eq_ok.mp h
  split at h
  · next merchant hmerchant =>
    split at h
    · cases h
    · obtain ⟨usdcEquiv, husdc, h⟩ := bind_eq_ok.mp h
      obtain ⟨-, -, h⟩ := bind_eq_ok.mp h
      obtain ⟨-, -, h⟩ := bind_eq_ok.mp h
      obtain ⟨amount, hamount, h⟩ := bind_eq_ok.mp h
      obtain ⟨fee, hfee, h⟩ := bind_eq_ok.mp h
      obtain ⟨native, hnative, h⟩ := bind_eq_ok.mp h
      obtain ⟨fixed, hfixed, h⟩ := bind_eq_ok.mp h
      obtain ⟨fixed', hfixed', hfee⟩ := bind_eq_ok.mp hfee
      cases hfixed.symm.trans hfixed'
      cases hfee
      dsimp only at h
      split at h
      · cases h
      · cases h
        exact ⟨hdto, hmerchant, rfl, hamount, ⟨usdcEquiv, fixed, husdc, hfixed, rfl, rfl⟩,
          ⟨native, hnative, rfl⟩⟩
  · cases h

theorem rowOf_of_invoiceRow {muxedId : Int} {address : String}
    (h : invoiceRow now id key muxedId address q = some r) : RowOf q r := by
  simp only [invoiceRow, Option.bind_eq_bind, Option.bind_eq_some_iff] at h
  obtain ⟨amount, hamount, gross, hgross, fee, hfee, net, hnet, paid, hpaid, equiv, hequiv, h⟩ := h
  split at h
  · cases h
  · cases h
    refine ⟨rfl, rfl, Numeric.units_of_ofText?_fromUnits hamount,
      Numeric.units_of_ofText?_fromUnits hgross, Numeric.units_of_ofText?_fromUnits hfee,
      Numeric.units_of_ofText?_fromUnits hnet, fun hc => ?_, fun hc => ?_⟩
    · rw [if_pos hc] at hequiv
      exact Numeric.units_of_ofText?_fromUnits hequiv
    · rwa [if_neg hc] at hequiv

/-- The row that a call inserts. -/
theorem invoiceRow_of_insertQuote (h : insertQuote env now id db key q = (.ok r, db')) :
    ∃ muxedId address, invoiceRow now id key muxedId address q = some r := by
  simp only [insertQuote] at h
  split at h
  · cases h
  · split at h
    · cases h
    · split at h
      · cases h
      · split at h
        · cases h
        · next invoice hrow =>
          split at h
          · cases h
          · cases h
            exact ⟨_, _, hrow⟩

/-- A call that stores a new row stores the row of its amounts. -/
theorem invoiceRow_of_creates (h : Creates env now id db merchantId input key r) :
    ∃ q muxedId address, QuoteOk db merchantId input q ∧
      invoiceRow now id key muxedId address q = some r := by
  obtain ⟨db', hcreate, hmem, hnew⟩ := h
  unfold create at hcreate
  split at hcreate
  · cases hcreate
  · -- a replayed response is not a new row
    cases hcreate
    exact absurd hmem hnew
  · split at hcreate
    · cases hcreate
    · next q hquote =>
      split at hcreate
      · cases hcreate
      · next invoice db₁ hinsert =>
        cases hcreate
        obtain ⟨muxedId, address, hrow⟩ := invoiceRow_of_insertQuote hinsert
        exact ⟨q, muxedId, address, quoteOk_of_quote hquote, hrow⟩

/-- **What a call stores.** -/
theorem creates_spec (h : Creates env now id db merchantId input key r) :
    ∃ q, QuoteOk db merchantId input q ∧ RowOf q r := by
  obtain ⟨q, muxedId, address, hq, hrow⟩ := invoiceRow_of_creates h
  exact ⟨q, hq, rowOf_of_invoiceRow hrow⟩

/-- Nothing of a new invoice is paid. -/
structure Unpaid (r : Invoice) : Prop where
  pending : r.status = .pending
  paidAt : r.paidAt = none
  paid : r.amountPaidUsdc.units = 0
  remaining : r.amountRemainingUsdc = r.grossUsdc

/-- **A new invoice is unpaid**, and all of it remains to be paid. -/
theorem unpaid_of_creates (h : Creates env now id db merchantId input key r) : Unpaid r := by
  obtain ⟨q, muxedId, address, -, hrow⟩ := invoiceRow_of_creates h
  simp only [invoiceRow, Option.bind_eq_bind, Option.bind_eq_some_iff] at hrow
  obtain ⟨amount, -, gross, -, fee, -, net, -, paid, hpaid, equiv, -, hrow⟩ := hrow
  split at hrow
  · cases hrow
  · cases hrow
    exact ⟨rfl, rfl, Numeric.ofUnits?_eq_some.mp hpaid, rfl⟩

/-- The merchants have taken numbers; nothing else has changed. -/
structure Numbered (db db' : Db) : Prop where
  rest : db' = { db with merchants := db'.merchants }
  rows : ∃ f : Merchant → Merchant, db'.merchants.rows = db.merchants.rows.map f ∧
    ∀ m, ∃ base seq, f m = { m with muxedBaseId := base, invoiceSeq := seq }

theorem Numbered.refl (db : Db) : Numbered db db :=
  ⟨rfl, id, (List.map_id _).symm, fun m => ⟨m.muxedBaseId, m.invoiceSeq, rfl⟩⟩

theorem Numbered.trans {db'' : Db} (h : Numbered db db') (h' : Numbered db' db'') :
    Numbered db db'' := by
  obtain ⟨f, hrows, hf⟩ := h.rows
  obtain ⟨f', hrows', hf'⟩ := h'.rows
  refine ⟨by rw [h'.rest, h.rest], f' ∘ f, by rw [hrows', hrows, List.map_map], fun m => ?_⟩
  obtain ⟨base, seq, heq⟩ := hf m
  obtain ⟨base', seq', heq'⟩ := hf' (f m)
  exact ⟨base', seq', by rw [Function.comp_apply, heq', heq]⟩

theorem numbered_ensureMuxedBase {merchant : Merchant} {base : Int}
    (h : ensureMuxedBase db merchant = .ok (base, db')) : Numbered db db' := by
  simp only [ensureMuxedBase] at h
  split at h
  · cases h
    exact .refl db
  · split at h
    · next merchants hupd =>
      split at h
      · cases h
        unfold Table.update? at hupd
        dsimp only at hupd
        split at hupd
        · cases hupd
          refine ⟨rfl, _, rfl, fun m => ?_⟩
          split
          · exact ⟨_, _, rfl⟩
          · exact ⟨_, _, rfl⟩
        · cases hupd
      · cases h
    · cases h

theorem numbered_nextInvoiceSequence {merchant : Merchant} {next : Int}
    (h : nextInvoiceSequence db merchant = .ok (next, db')) : Numbered db db' := by
  simp only [nextInvoiceSequence] at h
  split at h
  · cases h
    refine ⟨rfl, _, rfl, fun m => ?_⟩
    split
    · exact ⟨_, _, rfl⟩
    · exact ⟨_, _, rfl⟩
  · cases h

/-- Only merchants have changed, and none in its rate. -/
structure MerchantsOnly (db db' : Db) : Prop where
  rest : db' = { db with merchants := db'.merchants }
  feeBps : ∀ m' ∈ db'.merchants, ∃ m ∈ db.merchants, m'.feeBps = m.feeBps

theorem MerchantsOnly.refl (db : Db) : MerchantsOnly db db := ⟨rfl, fun m hm => ⟨m, hm, rfl⟩⟩

theorem MerchantsOnly.trans {db db' db'' : Db} (h : MerchantsOnly db db')
    (h' : MerchantsOnly db' db'') : MerchantsOnly db db'' where
  rest := by rw [h'.rest, h.rest]
  feeBps := fun m'' hm'' => by
    obtain ⟨m', hm', heq'⟩ := h'.feeBps m'' hm''
    obtain ⟨m, hm, heq⟩ := h.feeBps m' hm'
    exact ⟨m, hm, heq'.trans heq⟩

/-- The numbers that a merchant has taken are not its rate. -/
theorem Numbered.merchantsOnly (h : Numbered db db') : MerchantsOnly db db' where
  rest := h.rest
  feeBps m' hm' := by
    obtain ⟨f, hrows, hf⟩ := h.rows
    rw [← Table.mem_rows, hrows] at hm'
    obtain ⟨m, hm, rfl⟩ := List.mem_map.mp hm'
    obtain ⟨base, seq, heq⟩ := hf m
    exact ⟨m, hm, by rw [heq]⟩

/-- The `INSERT` and what precedes it: a row is stored if the call succeeds. -/
theorem insertQuote_cases {res : Except ApiError Invoice}
    (h : insertQuote env now id db key q = (res, db')) :
    (∃ e, res = .error e) ∧ MerchantsOnly db db' ∨
      ∃ r db₁ invoices, res = .ok r ∧ MerchantsOnly db db₁ ∧
        db₁.invoices.insert? r = some invoices ∧ db' = { db₁ with invoices } := by
  simp only [insertQuote] at h
  split at h
  · cases h
    exact .inl ⟨⟨_, rfl⟩, .refl db⟩
  · next base db₁ hbase =>
    have h₁ := (numbered_ensureMuxedBase hbase).merchantsOnly
    split at h
    · cases h
      exact .inl ⟨⟨_, rfl⟩, h₁⟩
    · next next db₂ hnext =>
      have h₂ := h₁.trans (numbered_nextInvoiceSequence hnext).merchantsOnly
      split at h
      · cases h
        exact .inl ⟨⟨_, rfl⟩, h₂⟩
      · split at h
        · cases h
          exact .inl ⟨⟨_, rfl⟩, h₂⟩
        · next invoice hrow =>
          split at h
          · cases h
            exact .inl ⟨⟨_, rfl⟩, h₂⟩
          · next invoices hins =>
            cases h
            exact .inr ⟨invoice, db₂, invoices, rfl, h₂, hins, rfl⟩

/-- What a call may have changed, whether it succeeds or not: it takes a sequence
number, and stores a row at most. -/
structure CreateEffect (env : CreateEnv) (now : Timestamp) (id : Uuid) (db : Db)
    (merchantId : Uuid) (input : CreateInput) (key : Option String) (db' : Db) : Prop where
  ledger : db'.ledgerEntries = db.ledgerEntries
  feeBps : ∀ m' ∈ db'.merchants, ∃ m ∈ db.merchants, m'.feeBps = m.feeBps
  invoices : db'.invoices = db.invoices ∨ ∃ r, Creates env now id db merchantId input key r ∧
    (∀ i ∈ db.invoices, i.id ≠ r.id) ∧ db'.invoices.rows = db.invoices.rows ++ [r]

theorem MerchantsOnly.effect {db db' : Db} (h : MerchantsOnly db db') :
    CreateEffect env now id db merchantId input key db' :=
  ⟨by rw [h.rest], h.feeBps, .inl (by rw [h.rest])⟩

/-- **What a call can do to the database.** -/
theorem create_effect (env : CreateEnv) (now : Timestamp) (id : Uuid) (db : Db)
    (merchantId : Uuid) (input : CreateInput) (key : Option String) :
    CreateEffect env now id db merchantId input key
      (create env now id db merchantId input key).2 := by
  obtain ⟨⟨res, db'⟩, hcreate⟩ : ∃ x, create env now id db merchantId input key = x := ⟨_, rfl⟩
  rw [hcreate]
  have hcall := hcreate
  unfold create at hcreate
  split at hcreate
  · cases hcreate
    exact (MerchantsOnly.refl db).effect
  · cases hcreate
    exact (MerchantsOnly.refl db).effect
  · split at hcreate
    · cases hcreate
      exact (MerchantsOnly.refl db).effect
    · split at hcreate
      · next e db₁ hinsert =>
        cases hcreate
        rcases insertQuote_cases hinsert with ⟨-, hsame⟩ | ⟨r, _, _, hr, -⟩
        · exact hsame.effect
        · cases hr
      · next invoice db₁ hinsert =>
        rcases insertQuote_cases hinsert with
          ⟨⟨e, he⟩, -⟩ | ⟨r, db₂, invoices, hr, hsame, hins, rfl⟩
        · cases he
        · cases hr
          -- the stored response is in a table of its own
          have hsave : db'.ledgerEntries = db₂.ledgerEntries ∧ db'.merchants = db₂.merchants ∧
              db'.invoices = invoices := by
            rw [← (Prod.mk.inj hcreate).2]
            cases key.filter (· ≠ "") with
            | none => exact ⟨rfl, rfl, rfl⟩
            | some key =>
              obtain ⟨_, heq⟩ := Idempotency.save_eq { db₂ with invoices } merchantId key
                (env.hashBody input) (.invoice invoice)
              rw [Option.elim_some, heq]
              exact ⟨rfl, rfl, rfl⟩
          obtain ⟨hledger, hmerchants, hinvoices⟩ := hsave
          obtain ⟨hfresh, hrows⟩ := Table.insert?_eq_some.mp hins
          rw [show db₂.invoices = db.invoices by rw [hsame.rest]] at hfresh hrows
          refine ⟨by rw [hledger, hsame.rest], by rw [hmerchants]; exact hsame.feeBps,
            .inr ⟨invoice, ⟨db', ?_, ?_, fun hmem => hfresh invoice hmem (.inl rfl)⟩,
              fun i hi heq => hfresh i hi (.inl heq), by rw [hinvoices, hrows]⟩⟩
          · rw [hcall, ← (Prod.mk.inj hcreate).1]
          · rw [← Table.mem_rows, hinvoices, hrows]
            simp

theorem fixedFeeUnits_pos {merchant : Merchant} {fixed : Int}
    (h : fixedFeeUnits merchant = .ok fixed) : 0 < fixed := by
  unfold fixedFeeUnits at h
  split at h <;> exact toUnits_pos h

end Spec

/-! ## The ledger of a USDC invoice -/

section Usdc

variable {env : CreateEnv} {now : Timestamp} {id : Uuid} {db : Db} {merchantId : Uuid}
  {input : CreateInput} {key : Option String} {r : Invoice}

/-- **Gross is fee, net and the fixed fee**: the payer pays the fixed fee on top,
and the merchant gets it deducted. -/
theorem gross_usdc_equiv_eq (h : Creates env now id db merchantId input key r)
    (hc : r.currency = .usdc) :
    ∃ fixed, 0 < fixed ∧
      r.grossUsdcEquiv.units = r.feeUsdc.units + r.netUsdc.units + fixed := by
  obtain ⟨q, hq, hr⟩ := creates_spec h
  obtain ⟨usdcEquiv, fixed, -, hfixed, -, hnet⟩ := hq.fees
  obtain ⟨fee, hfee, hgross⟩ := hq.gross
  have hcur : q.dto.currency = .usdc := hr.currency.symm.trans hc
  -- the fee is in USDC already
  rw [feeInCurrency, if_pos hcur] at hfee
  cases hfee
  refine ⟨fixed, fixedFeeUnits_pos hfixed, ?_⟩
  rw [hr.usdc hcur, hr.fee, hr.net]
  omega

/-- **The ledger never balances**: no USDC invoice, and no ledger row that credits
it, has fee and net add up to gross. -/
theorem gross_ne_fee_add_net (h : Creates env now id db merchantId input key r)
    (hc : r.currency = .usdc) :
    r.grossUsdcEquiv.units ≠ r.feeUsdc.units + r.netUsdc.units ∧
    ∀ (c : Reconciler.Credit) (n : Nat), c.inv = .of r →
      (c.entry n).grossUsdc.units ≠ (c.entry n).feeUsdc.units + (c.entry n).netUsdc.units := by
  obtain ⟨fixed, hpos, heq⟩ := gross_usdc_equiv_eq h hc
  have hne : r.grossUsdcEquiv.units ≠ r.feeUsdc.units + r.netUsdc.units := by omega
  refine ⟨hne, fun c n hinv => ?_⟩
  simp only [Reconciler.Credit.entry, hinv]
  exact hne

/-- `{ amount_usdc: '10', currency: 'USDC' }`. -/
def tenUsdc : CreateInput where
  amountUsdc := some (.text "10")
  currency := some "USDC"

/-- A gross of 10.30, a fee of 0.30 and a net of 9.75 USDC. -/
theorem ten_usdc_unbalanced : ∃ r, Creates testEnv 0 1 testDb 1 tenUsdc none r ∧
    r.currency = .usdc ∧ r.grossUsdcEquiv.units = 103000000 ∧ r.feeUsdc.units = 3000000 ∧
    r.netUsdc.units = 97500000 ∧
    r.grossUsdcEquiv.units ≠ r.feeUsdc.units + r.netUsdc.units :=
  creates_of_stores _ (by decide +kernel)

theorem gross_ne_fee_add_net_ten : ∃ r, Creates testEnv 0 1 testDb 1 tenUsdc none r ∧
    r.grossUsdcEquiv.units ≠ r.feeUsdc.units + r.netUsdc.units := by
  obtain ⟨r, hr, hc⟩ := creates_of_stores (fun r => r.currency = .usdc)
    (show stores testEnv 0 1 testDb 1 tenUsdc none _ = true by decide +kernel)
  exact ⟨r, hr, (gross_ne_fee_add_net hr hc).1⟩

end Usdc

/-! ## Invoices in another currency -/

section Converted

/-- The columns of an invoice that are in USDC. -/
structure SameUsdcColumns (r r' : Invoice) : Prop where
  fee : r.feeUsdc = r'.feeUsdc
  net : r.netUsdc = r'.netUsdc
  gross : r.grossUsdcEquiv = r'.grossUsdcEquiv

/-- The merchant pays the same fees. -/
structure SameFees (m m' : Merchant) : Prop where
  tier : m.tier = m'.tier
  bps : m.feeBps = m'.feeBps
  fixed : m.feeFixedUsdc = m'.feeFixedUsdc

theorem SameFees.fixedFeeUnits {m m' : Merchant} (h : SameFees m m') :
    Invoices.fixedFeeUnits m = Invoices.fixedFeeUnits m' := by
  rw [Invoices.fixedFeeUnits, Invoices.fixedFeeUnits, h.tier, h.fixed]

theorem SameFees.feeRate {m m' : Merchant} (h : SameFees m m') :
    Invoices.feeRate m = Invoices.feeRate m' := by
  rw [Invoices.feeRate, Invoices.feeRate, h.tier, h.bps]

/-- A request for an amount given as text is a request for that amount. -/
theorem parseCreate_text {input : CreateInput} {dto : CreateDto} {s : String}
    (h : parseCreate input = .ok dto) (hamount : input.amount = some (.text s)) :
    dto.amount = s ∧ isAmountText s.toList = true ∧
      parseCurrency (input.currency.getD "USDC") = .ok dto.currency := by
  unfold parseCreate at h
  rw [hamount] at h
  obtain ⟨amount, hparse, h⟩ := bind_eq_ok.mp h
  obtain ⟨amountUsdc, -, h⟩ := bind_eq_ok.mp h
  obtain ⟨currency, hcurrency, h⟩ := bind_eq_ok.mp h
  obtain ⟨text, htext, hsome⟩ := bind_eq_ok.mp hparse
  cases hsome
  simp only [parseAmount] at htext
  split at htext
  · next hok =>
    cases htext
    dsimp only at h
    split at h
    · cases h
    · split at h
      · cases h
      · cases h
        exact ⟨rfl, hok, hcurrency⟩
  · cases htext

/-- A fee is positive where the rate is not negative. -/
theorem fee_pos {merchant : Merchant} {usdcEquiv fixed : Int} (hbps : 0 ≤ merchant.feeBps)
    (husdc : 0 < usdcEquiv) (hfixed : 0 < fixed) :
    0 < (usdcEquiv * feeRate merchant).tdiv 10000 + fixed := by
  have hrate : 0 ≤ feeRate merchant := by
    unfold feeRate
    split
    · decide
    · exact hbps
    · decide
  have := Int.tdiv_nonneg (Int.mul_nonneg husdc.le hrate) (by decide : (0 : Int) ≤ 10000)
  omega

variable {env : CreateEnv} {now now' : Timestamp} {id id' : Uuid} {db db' : Db}
  {merchantId : Uuid} {input input' : CreateInput} {key key' : Option String} {r r' : Invoice}
  {dto : CreateDto} {m m' : Merchant}

/-- **An invoice that `create` stores has a gross above its amount**, if no rate is negative. -/
theorem amount_lt_gross_of_creates (h : Creates env now id db merchantId input key r)
    (hbps : ∀ m ∈ db.merchants, 0 ≤ m.feeBps) : r.amountUsdc.units < r.grossUsdc.units := by
  obtain ⟨q, hq, hr⟩ := creates_spec h
  obtain ⟨fee, hfee, hgross⟩ := hq.gross
  have hfeepos : 0 < fee := by
    unfold feeInCurrency at hfee
    split at hfee
    · cases hfee
      obtain ⟨usdcEquiv, fixed, husdc, hfixed, heq, -⟩ := hq.fees
      rw [heq]
      exact fee_pos (hbps _ (Table.find?_some hq.merchant).1) (toUnits_pos husdc)
        (fixedFeeUnits_pos hfixed)
    · exact toUnits_pos hfee
  rw [hr.amount, hr.gross, hgross]
  omega

/-- **There is something to pay**: the gross is positive if no rate is negative. -/
theorem gross_pos_of_creates (h : Creates env now id db merchantId input key r)
    (hbps : ∀ m ∈ db.merchants, 0 ≤ m.feeBps) : 0 < r.grossUsdc.units := by
  obtain ⟨q, hq, hr⟩ := creates_spec h
  have hamount : 0 < r.amountUsdc.units := hr.amount ▸ toUnits_pos hq.amount
  exact hamount.trans (amount_lt_gross_of_creates h hbps)

/-- **Two invoices of one value**, one of them in another currency: the fees are the
same, the net columns differ by as much as the native amount from its value, and
the gross value lacks the fee. -/
theorem usdcColumns_of_value (h : Creates env now id db merchantId input key r)
    (h' : Creates env now' id' db' merchantId input' key' r')
    (hm : db.merchants.find? (fun m => m.id == merchantId) = some m)
    (hm' : db'.merchants.find? (fun m => m.id == merchantId) = some m') (hfees : SameFees m m')
    (hdto : parseCreate input = .ok dto) (hc : dto.currency ≠ .usdc)
    (hinput' : input'.amount = some (.text (toUsdc db dto.amount dto.currency)))
    (hcur' : input'.currency = some "USDC") :
    r.feeUsdc = r'.feeUsdc ∧
    r'.netUsdc.units - r.netUsdc.units = r'.amountUsdc.units - r.amountUsdc.units ∧
    r'.grossUsdcEquiv.units = r.grossUsdcEquiv.units + r'.feeUsdc.units ∧
    (0 ≤ m.feeBps → 0 < r'.feeUsdc.units) := by
  obtain ⟨q, hq, hr⟩ := creates_spec h
  obtain ⟨q', hq', hr'⟩ := creates_spec h'
  cases hdto.symm.trans hq.dto
  cases hm.symm.trans hq.merchant
  cases hm'.symm.trans hq'.merchant
  -- the second request is for the value of the first
  obtain ⟨hamount', htext, hparse⟩ := parseCreate_text hq'.dto hinput'
  have hcur : q'.dto.currency = .usdc := by
    rw [hcur'] at hparse
    exact (Except.ok.inj hparse).symm
  have hstr : q'.usdcEquivStr = q.usdcEquivStr := by
    rw [hq'.usdcEquivStr, hcur, hamount', hq.usdcEquivStr]
    exact if_pos rfl
  obtain ⟨u, fixed, hu, hfixed, hfee, hnet⟩ := hq.fees
  obtain ⟨u', fixed', hu', hfixed', hfee', hnet'⟩ := hq'.fees
  rw [hstr] at hu'
  cases hu.symm.trans hu'
  rw [hfees.fixedFeeUnits] at hfixed
  cases hfixed.symm.trans hfixed'
  -- its amount is that value
  have hamountq : q'.amount = u := by
    have := hq'.amount
    rw [hamount', ← hq.usdcEquivStr] at this
    exact Except.ok.inj (this.symm.trans hu)
  obtain ⟨fee, hfeec, hgross'⟩ := hq'.gross
  rw [feeInCurrency, if_pos hcur] at hfeec
  cases hfeec
  -- the first row has the value itself as gross value
  have hequiv : r.grossUsdcEquiv.units = u := by
    refine Numeric.units_of_ofText?_isAmountText htext ?_ ?_
    · rw [String.ofList_toList, ← hq.usdcEquivStr]
      exact hu
    · rw [String.ofList_toList, ← hq.usdcEquivStr]
      exact hr.converted hc
  rw [← hfees.feeRate] at hfee'
  refine ⟨Numeric.ext_units ?_, ?_, ?_, fun hbps => ?_⟩
  · rw [hr.fee, hr'.fee, hfee, hfee']
  · rw [hr.net, hr'.net, hr.amount, hr'.amount, hnet, hnet']
    omega
  · rw [hr'.usdc hcur, hequiv, hr'.fee, hgross', hamountq]
  · rw [hr'.fee, hfee']
    exact fee_pos hbps (toUnits_pos hu) (fixedFeeUnits_pos hfixed)

/-- **An invoice in another currency never has the USDC columns** of the USDC
invoice of its value. -/
theorem usdcColumns_ne (h : Creates env now id db merchantId input key r)
    (h' : Creates env now' id' db' merchantId input' key' r')
    (hm : db.merchants.find? (fun m => m.id == merchantId) = some m)
    (hm' : db'.merchants.find? (fun m => m.id == merchantId) = some m') (hfees : SameFees m m')
    (hbps : 0 ≤ m.feeBps) (hdto : parseCreate input = .ok dto) (hc : dto.currency ≠ .usdc)
    (hinput' : input'.amount = some (.text (toUsdc db dto.amount dto.currency)))
    (hcur' : input'.currency = some "USDC") : ¬ SameUsdcColumns r r' := by
  obtain ⟨-, -, hgross, hpos⟩ :=
    usdcColumns_of_value h h' hm hm' hfees hdto hc hinput' hcur'
  intro hsame
  have := hpos hbps
  rw [hsame.gross] at hgross
  omega

/-- `{ amount: '100', currency: 'XLM' }`, worth 11 USDC. -/
def hundredXlm : CreateInput where
  amount := some (.text "100")
  currency := some "XLM"

/-- `{ amount: '11.0000000', currency: 'USDC' }`. -/
def elevenUsdc : CreateInput where
  amount := some (.text "11.0000000")
  currency := some "USDC"

/-- The merchant nets 99.75 USDC for 100 XLM, and 10.75 USDC for their value. -/
theorem xlm_invoice_nets_native_amount :
    toUsdc testDb "100" .xlm = "11.0000000" ∧
    ∃ r r', Creates testEnv 0 1 testDb 1 hundredXlm none r ∧
      Creates testEnv 0 2 testDb 1 elevenUsdc none r' ∧
      r.feeUsdc = r'.feeUsdc ∧ r.netUsdc.units = 997500000 ∧ r'.netUsdc.units = 107500000 ∧
      r.grossUsdcEquiv.units = 110000000 ∧ r'.grossUsdcEquiv.units = 113050000 ∧
      ¬ SameUsdcColumns r r' := by
  obtain ⟨r, hr, hfee, hnet, hgross⟩ := creates_of_stores
    (fun r => r.feeUsdc.units = 3050000 ∧ r.netUsdc.units = 997500000 ∧
      r.grossUsdcEquiv.units = 110000000)
    (show stores testEnv 0 1 testDb 1 hundredXlm none _ = true by decide +kernel)
  obtain ⟨r', hr', hfee', hnet', hgross'⟩ := creates_of_stores
    (fun r => r.feeUsdc.units = 3050000 ∧ r.netUsdc.units = 107500000 ∧
      r.grossUsdcEquiv.units = 113050000)
    (show stores testEnv 0 2 testDb 1 elevenUsdc none _ = true by decide +kernel)
  refine ⟨by decide +kernel, r, r', hr, hr', Numeric.ext_units (hfee.trans hfee'.symm), hnet,
    hnet', hgross, hgross', fun hsame => ?_⟩
  rw [hsame.net, hnet'] at hnet
  cases hnet

theorem usdcColumns_ne_hundred_xlm :
    ∃ r r', Creates testEnv 0 1 testDb 1 hundredXlm none r ∧
      Creates testEnv 0 2 testDb 1 elevenUsdc none r' ∧ ¬ SameUsdcColumns r r' := by
  obtain ⟨r, hr, -⟩ := creates_of_stores (fun _ => True)
    (show stores testEnv 0 1 testDb 1 hundredXlm none _ = true by decide +kernel)
  obtain ⟨r', hr', -⟩ := creates_of_stores (fun _ => True)
    (show stores testEnv 0 2 testDb 1 elevenUsdc none _ = true by decide +kernel)
  have hdto : parseCreate hundredXlm = .ok ⟨"100", .xlm, none, 60, false⟩ := by decide +kernel
  have hvalue : elevenUsdc.amount = some (.text (toUsdc testDb "100" .xlm)) := by decide +kernel
  exact ⟨r, r', hr, hr', usdcColumns_ne hr hr' rfl rfl ⟨rfl, rfl, rfl⟩ (by decide) hdto
    (by decide) hvalue rfl⟩

end Converted

end Stargate.Invoices
