import Stargate.Invoices.Bookkeeping
import Stargate.Reconciler.CreditCompleteness
import Stargate.Stellar.PaymentXdr

/-!
# What the payer is told to send (`payments.service.ts`)

`PaymentsService.prepareTx` reads an invoice and has a payment built for it; the
reconciler later checks the payment that executes it. The builder takes its
asset from the configuration, the checker from the invoice, and the two agree on
USDC only: `credited_iff_payable` says for which invoices a payer who signs what
the API built is credited.
-/

namespace Stargate

open Base Stellar

namespace Invoices

/-- The row of `getPublic(id)`. -/
structure PublicInvoice where
  id : Uuid
  grossUsdc : String
  grossUsdcEquiv : String
  currency : Currency
  description : Option String
  status : InvoiceStatus
  muxedAddress : String
  expiresAt : Timestamp
  merchantName : String
  testMode : Bool
  deriving DecidableEq

/-- The columns that `getPublic` selects. -/
def PublicInvoice.of (i : Invoice) (m : Merchant) : PublicInvoice where
  id := i.id
  grossUsdc := i.grossUsdc.text
  grossUsdcEquiv := i.grossUsdcEquiv.text
  currency := i.currency
  description := i.description
  status := i.status
  muxedAddress := i.muxedAddress
  expiresAt := i.expiresAt
  merchantName := m.name
  testMode := m.testMode

/-- `getPublic(id)`. -/
def getPublic (db : Db) (id : Uuid) : Except ApiError PublicInvoice :=
  let row := (db.invoices.find? fun i => i.id == id).bind fun i =>
    (db.merchants.find? fun m => m.id == i.merchantId).map (PublicInvoice.of i)
  match row with
  | none => .error (.notFound "Invoice not found")
  | some invoice =>
    -- #133: Block payment on expired or cancelled invoices
    match invoice.status with
    | .expired => .error (.badRequest "Invoice has expired")
    | .cancelled => .error (.badRequest "Invoice has been cancelled")
    | .paid => .error (.badRequest "Invoice has already been paid")
    | _ => .ok invoice

/-- What is public is of the stored invoice. -/
theorem getPublic_ok {db : Db} {i : Invoice} {row : PublicInvoice} (hi : i ∈ db.invoices)
    (h : getPublic db i.id = .ok row) : ∃ m, row = .of i m := by
  unfold getPublic at h
  dsimp only at h
  split at h
  · cases h
  · next invoice hrow =>
    have hof : ∃ m, invoice = .of i m := by
      obtain ⟨j, hj, hrow⟩ := Option.bind_eq_some_iff.mp hrow
      obtain ⟨m, -, rfl⟩ := Option.map_eq_some_iff.mp hrow
      obtain ⟨hmem, hid⟩ := Table.find?_some hj
      rw [Table.eq_of_conflict hmem hi (.inl (beq_iff_eq.mp hid))]
      exact ⟨m, rfl⟩
    split at h <;> cases h
    exact hof

end Invoices

namespace Payments

open Reconciler

/-- What `prepareTx` returns. -/
structure Prepared where
  xdr : PaymentTx
  network : String
  deriving DecidableEq

/-- `prepareTx(id, payer)`. `processNetwork` is `process.env.STELLAR_NETWORK`. -/
def prepareTx (sdk : Sdk) (app : AppEnv) (processNetwork : Option String) (db : Db) (id : Uuid)
    (payer : Option String) : Except ApiError Prepared :=
  -- an empty payer is no payer
  match payer.filter (· ≠ "") with
  | none => .error (.badRequest "payer query parameter is required")
  | some payer => do
    let invoice ← Invoices.getPublic db id
    let xdr ← buildPaymentXdr sdk app invoice.muxedAddress invoice.grossUsdc payer
      (some invoice.testMode)
    return {
      xdr
      network := if invoice.testMode then "testnet" else processNetwork.getD "testnet" }

/-- What the payer is told to send for a stored invoice. -/
theorem prepareTx_ok {sdk : Sdk} {app : AppEnv} {processNetwork : Option String} {db : Db}
    {i : Invoice} {payer : Option String} {prepared : Prepared} (hi : i ∈ db.invoices)
    (h : prepareTx sdk app processNetwork db i.id payer = .ok prepared) :
    sdk.asset app.STELLAR_ASSET_CODE app.STELLAR_ASSET_ISSUER
        = some prepared.xdr.operation.asset ∧
      prepared.xdr.operation.amount = formatStellarAmount i.grossUsdc.text ∧
      sdk.payment i.muxedAddress prepared.xdr.operation.asset prepared.xdr.operation.amount
        = true := by
  unfold prepareTx at h
  split at h
  · cases h
  · obtain ⟨row, hrow, h⟩ := bind_eq_ok.mp h
    obtain ⟨tx, htx, h⟩ := bind_eq_ok.mp h
    cases h
    obtain ⟨m, rfl⟩ := Invoices.getPublic_ok hi hrow
    obtain ⟨hasset, -, hamount, hpay⟩ := buildPaymentXdr_ok htx
    exact ⟨hasset, hamount, hpay⟩

/-! ## The payment that the payer sends -/

/-- How Horizon reports a payment that executes an operation: an issued asset, and
the amount with seven fraction digits. -/
structure Executes (op : PaymentOp) (payment : HorizonPayment) : Prop where
  type : payment.assetType ≠ some "native"
  code : payment.assetCode = some op.asset.code
  issuer : payment.assetIssuer = some op.asset.issuer
  amount : ∀ n : Nat, decimal? op.amount.toList = some ((n : ℚ) / 10 ^ 7) →
    payment.amount = String.ofList (fixedText 7 n)

/-- `Decimal::from_str` reads Horizon's amounts exactly. -/
def ReadsAmounts (env : Env) : Prop := ∀ n : Nat, n < 2 ^ 63 →
  env.decimalFromStr (String.ofList (fixedText 7 n)) = some ((n : ℚ) / 10 ^ 7)

/-- The configured asset is the one that invoices in `c` are paid in. Nothing that
the API builds pays an XLM invoice. -/
def SendsIn (app : AppEnv) (config : Config) : Currency → Prop
  | .usdc => app.STELLAR_ASSET_CODE = "USDC"
  | .eurc => app.STELLAR_ASSET_CODE = "EURC" ∧
      ∀ issuer, config.eurcAssetIssuer = some issuer → app.STELLAR_ASSET_ISSUER = issuer
  | .xlm => False

/-- The invoice is one that the payment which the API builds for it pays. -/
structure Payable (app : AppEnv) (config : Config) (i : Invoice) : Prop where
  pending : i.status = .pending
  asset : SendsIn app config i.currency
  amount : IsExactDouble i.grossUsdc

/-- The invoice is marked paid, and its ledger entry is inserted. -/
def Settles (w w' : World) (i : Invoice) : Prop :=
  (∃ j ∈ w'.db.invoices, j.id = i.id ∧ j.status = .paid) ∧
    ∃ l ∈ w'.db.ledgerEntries, l ∉ w.db.ledgerEntries ∧ l.invoiceId = i.id

theorem settles_of_creditedBy {w w' : World} {i : Invoice} {eventId : Nat} {now : Timestamp}
    (hi : i ∈ w.db.invoices) (h : CreditedBy ⟨.of i, eventId, now⟩ w w') : Settles w w' i := by
  have hinv : ∀ j ∈ w.db.invoices, j.id = i.id →
      (Credit.markPaid ⟨.of i, eventId, now⟩ j) ∈ w'.db.invoices := by
    intro j hj hid
    rw [← Table.mem_rows, h.invoices]
    exact List.mem_map.mpr ⟨j, hj, if_pos hid⟩
  refine ⟨⟨_, hinv i hi rfl, rfl, rfl⟩,
    Credit.entry ⟨.of i, eventId, now⟩ w.db.ledgerEntries.nextId, ?_, fun hold => ?_, rfl⟩
  · rw [← Table.mem_rows, h.ledger]
    simp
  · exact absurd rfl (Nat.ne_of_lt (Table.lt_nextId hold))

/-- A call that settles an invoice has found it due. -/
theorem due_of_settles {env : Env} {now : Timestamp} {payment : HorizonPayment} {w : World}
    {i : Invoice} (hi : i ∈ w.db.invoices)
    (h : Settles w (processPayment env now w payment).1 i) :
    Due env (Screened env w payment) w.db payment (.of i) ∧ i.status = .pending ∧
      i.currency.code = paymentAssetCurrency payment := by
  obtain ⟨-, hbooks, -⟩ := solo_inv (solo_processPayment env now w payment)
  obtain ⟨-, l, hl, hnew, hinv⟩ := h
  rcases hbooks.returned true with hsame | ⟨c, hcredit, -, hdue⟩
  · exact absurd (hsame.ledger ▸ hl) hnew
  · obtain ⟨j, hj, hof, hp, hcur, -⟩ := hdue.exists_pending
    have hl : l ∈ (processPayment env now w payment).1.db.ledgerEntries.rows := hl
    rw [hcredit.ledger, List.mem_append, List.mem_singleton] at hl
    rcases hl with hl | rfl
    · exact absurd hl hnew
    · have hid : j.id = i.id := (congrArg InvoiceRow.id hof).symm.trans hinv
      obtain rfl := Table.eq_of_conflict hj hi (.inl hid)
      exact ⟨hof ▸ hdue, hp, hcur⟩

section Agreement

variable {sdk : Sdk} {app : AppEnv} {processNetwork : Option String} {env : Env} {db : Db}
  {payer : Option String} {prepared : Prepared} {payment : HorizonPayment} {i : Invoice}

/-- The code of an asset is the configured one, but for the case of `xlm`. -/
theorem code_eq_iff (hsdk : sdk.Documented) {a : Asset} {code issuer : String}
    (h : sdk.asset code issuer = some a) {other : String} (hlower : other.toLower ≠ "xlm")
    (hne : other ≠ "XLM") : a.code = other ↔ code = other := by
  rcases hsdk.asset_code _ _ _ h with heq | ⟨hxlm, heq⟩
  · rw [heq]
  · rw [heq]
    refine iff_of_false hne.symm fun h => hlower ?_
    rw [← h, hxlm]

/-- The built payment is in the currency of the invoice where the configured asset
is. -/
theorem paysIn_iff_sendsIn (hsdk : sdk.Documented)
    (hissuer : env.config.assetIssuer = app.STELLAR_ASSET_ISSUER)
    (hasset : sdk.asset app.STELLAR_ASSET_CODE app.STELLAR_ASSET_ISSUER
      = some prepared.xdr.operation.asset)
    (hexec : Executes prepared.xdr.operation payment) (c : Currency) :
    PaysIn env.config payment c ↔ SendsIn app env.config c := by
  have hiss := hsdk.asset_issuer _ _ _ hasset
  cases c with
  | xlm => exact iff_of_false hexec.type id
  | usdc =>
    simp only [PaysIn, SendsIn, hexec.code, hexec.issuer, hiss, hissuer, Option.some.injEq,
      and_true, code_eq_iff hsdk hasset (by decide +kernel : "USDC".toLower ≠ "xlm") (by decide)]
    exact and_iff_right hexec.type
  | eurc =>
    simp only [PaysIn, SendsIn, hexec.code, hexec.issuer, hiss, Option.some.injEq,
      code_eq_iff hsdk hasset (by decide +kernel : "EURC".toLower ≠ "xlm") (by decide)]
    exact and_iff_right hexec.type

/-- The built payment is for the exact amount where a double holds it. -/
theorem amount_iff_isExactDouble (hsdk : sdk.Documented) (hread : ReadsAmounts env)
    (hamount : prepared.xdr.operation.amount = formatStellarAmount i.grossUsdc.text)
    (hpay : sdk.payment i.muxedAddress prepared.xdr.operation.asset prepared.xdr.operation.amount
      = true)
    (hexec : Executes prepared.xdr.operation payment) :
    env.decimalFromStr payment.amount = some i.grossUsdc.value ↔ IsExactDouble i.grossUsdc := by
  obtain ⟨n, hpos, hlt, htext⟩ := hsdk.amount _ _ _ hpay
  have hround := units_of_formatStellarAmount hpos (hamount ▸ htext)
  rw [hexec.amount n htext, hread n hlt, IsExactDouble, hround, Option.some.injEq, Numeric.value,
    div_left_inj' (by norm_num)]
  exact_mod_cast Iff.rfl

/-- **The payer is credited for what the API told them to send exactly where** the
invoice is pending, the configured asset is the one of its currency, and its
amount survives the double. -/
theorem credited_iff_payable (hsdk : sdk.Documented) (hread : ReadsAmounts env)
    (hissuer : env.config.assetIssuer = app.STELLAR_ASSET_ISSUER)
    {w : World} (hstored : i ∈ db.invoices) (hi : i ∈ w.db.invoices)
    (hprepared : prepareTx sdk app processNetwork db i.id payer = .ok prepared)
    (hexec : Executes prepared.xdr.operation payment)
    (hdec : decodeMuxedId payment.toAddress = some i.muxedId)
    (hfresh : hasEvent w.db payment.pagingToken = false)
    (hscreened : ∃ ofac, screenAddress env w.redis payment.fromAddress = some ofac ∧
      ofac.result ≠ "blocked")
    (now : Timestamp) :
    Settles w (processPayment env now w payment).1 i ↔ Payable app env.config i := by
  obtain ⟨hasset, hamount, hpay⟩ := prepareTx_ok hstored hprepared
  have hcur := paysIn_iff_sendsIn hsdk hissuer hasset hexec i.currency
  have hexact := amount_iff_isExactDouble hsdk hread hamount hpay hexec
  constructor
  · intro hsettles
    obtain ⟨hdue, hp, hcode⟩ := due_of_settles hi hsettles
    obtain ⟨ofac, hcleared⟩ := hdue.cleared
    exact ⟨hp, hcur.mp ((paysIn_iff _ _ _).mp ⟨hcleared.accepted, hcode⟩),
      hexact.mp hdue.amount⟩
  · rintro ⟨hp, hsends, hdouble⟩
    obtain ⟨w', eventId, hrun, hcredit⟩ :
        ∃ w' eventId, processPayment env now w payment = (w', .ret true) ∧
          CreditedBy ⟨.of i, eventId, now⟩ w w' :=
      processPayment_credits hi hp hfresh hscreened (hcur.mpr hsends) hdec (hexact.mpr hdouble)
    rw [hrun]
    exact settles_of_creditedBy hi hcredit

end Agreement

/-! ## Runs on the fixtures -/

/-- The SDK on the addresses of the tests. -/
def testSdk : Sdk where
  fromPublicKey key := key == "GAAZI4TCR3TY5OJHCTJC2A4QSY6CJWJH5IAJTGKIN2ER7LBNVKOCCWN"
  loadAccount _ := true
  asset code issuer :=
    if code.toList.all Char.isAlphanum && decide (1 ≤ code.length ∧ code.length ≤ 12) then
      some ⟨if code.toLower = "xlm" then "XLM" else code, issuer⟩
    else none
  payment _ _ text := (decimal? text.toList).any fun v =>
    decide (0 < v ∧ (v * 10 ^ 7).den = 1 ∧ v * 10 ^ 7 < 2 ^ 63)

theorem testSdk_documented : testSdk.Documented where
  asset_issuer code issuer a h := by
    simp only [testSdk, Option.ite_none_right_eq_some, Option.some.injEq] at h
    obtain ⟨-, rfl⟩ := h
    rfl
  asset_code code issuer a h := by
    simp only [testSdk, Option.ite_none_right_eq_some, Option.some.injEq] at h
    obtain ⟨-, rfl⟩ := h
    by_cases hxlm : code.toLower = "xlm"
    · exact .inr ⟨hxlm, if_pos hxlm⟩
    · exact .inl (if_neg hxlm)
  amount destination a text h := by
    obtain ⟨v, hv, hok⟩ := (Option.any_eq_true _ _).mp h
    obtain ⟨hpos, hden, hlt⟩ := of_decide_eq_true hok
    have hnum : ((v * 10 ^ 7).num : ℚ) = v * 10 ^ 7 := Rat.coe_int_num_of_den_eq_one hden
    have hnonneg : 0 ≤ (v * 10 ^ 7).num := Rat.num_nonneg.mpr (by positivity)
    obtain ⟨n, hn⟩ := Int.eq_ofNat_of_zero_le hnonneg
    have hcast : (n : ℚ) = v * 10 ^ 7 := by rw [← hnum, hn, Int.cast_natCast]
    refine ⟨n, ?_, ?_, ?_⟩
    · have : (0 : ℚ) < n := by
        rw [hcast]
        positivity
      exact_mod_cast this
    · rw [← hcast] at hlt
      exact_mod_cast hlt
    · rw [hv, hcast]
      field_simp

theorem testEnv_readsAmounts : ReadsAmounts Reconciler.testEnv := fun n _ => by
  show mantissa? (String.ofList (fixedText 7 n)).toList = _
  rw [String.toList_ofList, mantissa?_fixedText 7 n (by decide)]

/-- The API and the reconciler under one issuer, with the default asset code. -/
def testApp : AppEnv where
  STELLAR_ASSET_ISSUER := testConfig.assetIssuer
  issuer_min := by decide +kernel

/-- The pending invoice of the tests, in a currency, and its merchant. -/
def invoiceIn (currency : Currency) : Invoice := { seedInvoice 1 99099 with currency }

def dbIn (currency : Currency) : Db :=
  { seedDb (invoiceIn currency) with
    merchants := Invoices.testDb.merchants }

/-- What the payer of the tests is told to send, whatever the currency. -/
def prepared : Prepared where
  xdr := {
    source := "GAAZI4TCR3TY5OJHCTJC2A4QSY6CJWJH5IAJTGKIN2ER7LBNVKOCCWN"
    fee := "100"
    networkPassphrase := .PUBLIC
    operation := {
      destination := "MTEST"
      asset := ⟨"USDC", testConfig.assetIssuer⟩
      amount := "10.5" }
    timeout := 300 }
  network := "testnet"

/-- The payment that executes it. -/
def executed : HorizonPayment := makePayment "token_happy_001" "M99099" "10.5000000"

theorem executes_executed : Executes prepared.xdr.operation executed where
  type := by decide
  code := rfl
  issuer := rfl
  amount n h := by
    have htext : decimal? prepared.xdr.operation.amount.toList
        = some (((105000000 : Nat) : ℚ) / 10 ^ 7) := by
      decide +kernel
    rw [htext, Option.some.injEq, div_left_inj' (by norm_num)] at h
    have hn : n = 105000000 := by exact_mod_cast h.symm
    subst hn
    decide +kernel

/-- A USDC invoice is paid by what the API builds. -/
theorem credited_iff_payable_usdc :
    Settles { db := dbIn .usdc }
      (processPayment Reconciler.testEnv 0 { db := dbIn .usdc } executed).1 (invoiceIn .usdc) := by
  have hprepared : prepareTx testSdk testApp none (dbIn .usdc) 1
      (some "GAAZI4TCR3TY5OJHCTJC2A4QSY6CJWJH5IAJTGKIN2ER7LBNVKOCCWN") = .ok prepared := by
    decide +kernel
  have hmem : invoiceIn .usdc ∈ (dbIn .usdc).invoices := List.mem_singleton.mpr rfl
  exact (credited_iff_payable testSdk_documented testEnv_readsAmounts rfl hmem hmem hprepared
    executes_executed (by decide +kernel) rfl ⟨_, rfl, by decide⟩ 0).mpr
    ⟨rfl, rfl, by decide +kernel⟩

/-- **A EURC invoice is not**: the payer is told to send USDC, and the reconciler
takes no USDC for it. -/
theorem eurc_payer_not_credited :
    prepareTx testSdk testApp none (dbIn .eurc) 1
        (some "GAAZI4TCR3TY5OJHCTJC2A4QSY6CJWJH5IAJTGKIN2ER7LBNVKOCCWN") = .ok prepared ∧
      Executes prepared.xdr.operation executed ∧
      testConfig.assetIssuer = testApp.STELLAR_ASSET_ISSUER ∧
      decodeMuxedId executed.toAddress = some (invoiceIn .eurc).muxedId ∧
      screenAddress Reconciler.testEnv {} executed.fromAddress = some ⟨"clear", 0⟩ ∧
      (processPayment Reconciler.testEnv 0 { db := dbIn .eurc } executed).2 = .ret true ∧
      ¬ Settles { db := dbIn .eurc }
        (processPayment Reconciler.testEnv 0 { db := dbIn .eurc } executed).1
        (invoiceIn .eurc) := by
  refine ⟨by decide +kernel, executes_executed, rfl, by decide +kernel, by decide +kernel,
    by decide +kernel, fun hsettles => ?_⟩
  obtain ⟨-, l, hl, -⟩ := hsettles
  have hempty :
      (processPayment Reconciler.testEnv 0 { db := dbIn .eurc } executed).1.db.ledgerEntries
      = .empty := by decide +kernel
  rw [hempty] at hl
  cases hl

end Payments

end Stargate
