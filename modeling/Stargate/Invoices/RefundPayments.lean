import Stargate.Invoices.Fees
import Stargate.Invoices.Refunds
import Stargate.Payments.PrepareTx

/-!
# What a refund sends, and what it records

`submitSorobanRefund` builds a payment of the invoice's gross in the configured asset;
`refund` records the invoice's amount, which is in the currency of the invoice.

- `refundTx`, `built`: the transaction of a refund;
- `records_iff`: when the two agree. They do on no invoice that `create` stores.
-/

namespace Stargate.Refunds

open Base Stellar Payments

/-! ## The transaction -/

/-- `submitSorobanRefund(invoice, recipientAddress)` up to the hash. Without an account there is
no transaction, and the hash is a stub. `treasury` is `PLATFORM_TREASURY_PUBLIC_KEY`. -/
def refundTx (sdk : Sdk) (app : AppEnv) (treasury grossUsdc recipient : String) :
    Except ApiError (Option PaymentTx) :=
  let network := if app.STELLAR_NETWORK = .mainnet then Passphrase.PUBLIC else .TESTNET
  if !sdk.fromPublicKey recipient then .error (.badRequest "Invalid recipient address")
  else if !sdk.loadAccount treasury then .ok none
  else match sdk.asset app.STELLAR_ASSET_CODE app.STELLAR_ASSET_ISSUER with
    | none => .error .library
    | some asset =>
      let amount := formatStellarAmount grossUsdc
      if !sdk.payment recipient asset amount then .error .library
      else .ok (some {
        source := treasury
        fee := "100"
        networkPassphrase := network
        operation := { destination := recipient, asset, amount }
        timeout := 300 })

/-- The transaction of `refund(merchantId, id)`. -/
def built (sdk : Sdk) (app : AppEnv) (treasury : String) (db : Db) (merchantId id : Uuid) :
    Except ApiError (Option PaymentTx) := do
  let invoice ← findInvoice db merchantId id
  let recipient ← findRecipient db merchantId
  refundTx sdk app treasury invoice.grossUsdc.text recipient

/-- The hash that `submitSorobanRefund` returns, if it does. -/
def sentHash (hash : PaymentTx → String) (stub : String) :
    Except ApiError (Option PaymentTx) → Option String
  | .ok (some tx) => some (hash tx)
  | .ok none => some stub
  | .error _ => none

/-- `refund(merchantId, id)` with the transaction that it builds. -/
def refundBuilt (sdk : Sdk) (app : AppEnv) (treasury : String) (hash : PaymentTx → String)
    (stub : String) (refundId : Uuid) (db : Db) (merchantId id : Uuid) :
    Except ApiError Refund × Db :=
  refund ⟨sdk.fromPublicKey⟩ (sentHash hash stub (built sdk app treasury db merchantId id))
    refundId db merchantId id

section Agreement

variable {sdk : Sdk} {app : AppEnv} {treasury : String} {hash : PaymentTx → String}
  {stub : String} {env : RefundEnv} {sent : Option String} {refundId : Uuid} {db db' : Db}
  {merchantId id : Uuid} {r : Refund} {tx : PaymentTx} {invoice : Invoice}
  {config : Reconciler.Config}

/-- **What a refund records**: the amount of the invoice that it read, which was paid. -/
theorem refund_ok (h : refund env sent refundId db merchantId id = (.ok r, db')) :
    ∃ invoice, findInvoice db merchantId id = .ok invoice ∧ invoice.status = .paid ∧
      r.amountUsdc = invoice.amountUsdc ∧ r ∈ db'.refunds := by
  unfold refund at h
  split at h
  · cases h
  · next invoice hinvoice =>
    split at h
    · cases h
    · next hpaid =>
      split at h
      · cases h
      · split at h
        · cases h
        · split at h
          · cases h
          -- a paid invoice without a refund, whose payment was sent
          · unfold insertRefund at h
            split at h
            · next refunds hinsert =>
              cases h
              refine ⟨invoice, hinvoice, not_not.mp hpaid, rfl, ?_⟩
              rw [← Table.mem_rows, (Table.insert?_eq_some.mp hinsert).2]
              simp
            · cases h

theorem refundTx_ok {grossUsdc recipient : String}
    (h : refundTx sdk app treasury grossUsdc recipient = .ok (some tx)) :
    sdk.asset app.STELLAR_ASSET_CODE app.STELLAR_ASSET_ISSUER = some tx.operation.asset ∧
      tx.operation.amount = formatStellarAmount grossUsdc := by
  unfold refundTx at h
  dsimp only at h
  split at h
  · cases h
  · split at h
    · cases h
    · split at h
      · cases h
      · next asset hasset =>
        split at h
        · cases h
        · cases h
          exact ⟨hasset, rfl⟩

/-- **What a refund sends**: the configured asset, and the gross of the invoice. -/
theorem built_ok (h : built sdk app treasury db merchantId id = .ok (some tx))
    (hinvoice : findInvoice db merchantId id = .ok invoice) :
    sdk.asset app.STELLAR_ASSET_CODE app.STELLAR_ASSET_ISSUER = some tx.operation.asset ∧
      tx.operation.amount = formatStellarAmount invoice.grossUsdc.text := by
  obtain ⟨invoice', hinvoice', h⟩ := bind_eq_ok.mp h
  obtain ⟨recipient, -, h⟩ := bind_eq_ok.mp h
  cases hinvoice.symm.trans hinvoice'
  exact refundTx_ok h

/-- An operation is in a currency: USDC under the configured issuer, EURC under its own, and no
asset with an issuer is XLM. -/
def OperatesIn (app : AppEnv) (config : Reconciler.Config) (op : PaymentOp) : Currency → Prop
  | .usdc => op.asset.code = "USDC" ∧ op.asset.issuer = app.STELLAR_ASSET_ISSUER
  | .eurc => op.asset.code = "EURC" ∧
      ∀ issuer, config.eurcAssetIssuer = some issuer → op.asset.issuer = issuer
  | .xlm => False

/-- The operation sends what the row records, in the currency of the invoice. -/
def Records (app : AppEnv) (config : Reconciler.Config) (invoice : Invoice) (op : PaymentOp)
    (r : Refund) : Prop :=
  decimal? op.amount.toList = some r.amountUsdc.value ∧ OperatesIn app config op invoice.currency

theorem operatesIn_iff_sendsIn (hsdk : sdk.Documented)
    (h : sdk.asset app.STELLAR_ASSET_CODE app.STELLAR_ASSET_ISSUER = some tx.operation.asset)
    (c : Currency) : OperatesIn app config tx.operation c ↔ SendsIn app config c := by
  have hissuer := hsdk.asset_issuer _ _ _ h
  cases c with
  | usdc =>
    show _ ∧ _ ↔ _
    rw [code_eq_iff hsdk h (by decide +kernel) (by decide)]
    exact and_iff_left hissuer
  | eurc =>
    show _ ∧ _ ↔ _ ∧ _
    rw [code_eq_iff hsdk h (by decide +kernel) (by decide), hissuer]
  | xlm => exact Iff.rfl

theorem value_injective {a b : Numeric} (h : a.value = b.value) : a = b := by
  have hstored := Numeric.ofRat?_value b
  rw [← h, Numeric.ofRat?_value] at hstored
  exact Option.some.inj hstored

/-- **When a refund records what it sends**: where the gross of the invoice is its amount, and
the configured asset is that of its currency. So no refund of an invoice that `create` stored
does. -/
theorem records_iff (hsdk : sdk.Documented)
    (hrefund : refundBuilt sdk app treasury hash stub refundId db merchantId id = (.ok r, db'))
    (hbuilt : built sdk app treasury db merchantId id = .ok (some tx))
    (hinvoice : findInvoice db merchantId id = .ok invoice)
    (hexact : decimal? (formatStellarAmount invoice.grossUsdc.text).toList
      = some invoice.grossUsdc.value) :
    (Records app config invoice tx.operation r ↔
      invoice.grossUsdc = invoice.amountUsdc ∧ SendsIn app config invoice.currency) ∧
    ∀ env now rowId db₀ merchantId₀ input key row,
      Invoices.Creates env now rowId db₀ merchantId₀ input key row →
      (∀ m ∈ db₀.merchants, 0 ≤ m.feeBps) → invoice.amountUsdc = row.amountUsdc →
      invoice.grossUsdc = row.grossUsdc → ¬Records app config invoice tx.operation r := by
  obtain ⟨invoice', hinvoice', -, hrow, -⟩ := refund_ok hrefund
  cases hinvoice.symm.trans hinvoice'
  obtain ⟨hasset, hamount⟩ := built_ok hbuilt hinvoice
  have hiff : Records app config invoice tx.operation r ↔
      invoice.grossUsdc = invoice.amountUsdc ∧ SendsIn app config invoice.currency := by
    unfold Records
    rw [operatesIn_iff_sendsIn hsdk hasset, hamount, hexact, hrow, Option.some.injEq]
    exact and_congr_left fun _ => ⟨value_injective, fun h => by rw [h]⟩
  refine ⟨hiff, ?_⟩
  -- what `create` stores has a fee above its amount
  intro env now rowId db₀ merchantId₀ input key row hcreates hbps hsame hsame' hrecords
  have hlt := Invoices.amount_lt_gross_of_creates hcreates hbps
  rw [← hsame, ← hsame', (hiff.mp hrecords).1] at hlt
  exact lt_irrefl _ hlt

end Agreement

/-! ## Two refunds -/

def recipient : String := "GAAZI4TCR3TY5OJHCTJC2A4QSY6CJWJH5IAJTGKIN2ER7LBNVKOCCWN"

/-- The invoices are paid, and the merchants have an address. -/
def allPaid (db : Db) : Db :=
  { db with
    merchants := db.merchants.modify (fun _ => true)
      (fun m => { m with stellarAddress := some recipient }) fun _ => rfl
    invoices := db.invoices.modify (fun _ => true)
      (fun i => { i with status := .paid }) fun _ => rfl }

theorem inRange_ten : (100000000 : Int).natAbs < 10 ^ 18 := by decide

/-- The paid invoice of the tests, of 10 USDC without a fee. -/
def feelessDb : Db :=
  allPaid { Invoices.testDb with
    invoices := ⟨[{ paidInvoice with
      amountUsdc := ⟨100000000, inRange_ten⟩
      grossUsdc := ⟨100000000, inRange_ten⟩ }], List.pairwise_singleton _ _⟩ }

/-- The invoice of 10 USDC that `create` stores, with a gross of 10.30 USDC. -/
def feeDb : Db :=
  allPaid (Invoices.create Invoices.testEnv 0 1 Invoices.testDb 1 Invoices.tenUsdc none).2

/-- The refund of 10 USDC that either records. -/
def tenRefund : Refund where
  id := 7
  invoiceId := 1
  merchantId := 1
  amountUsdc := ⟨100000000, inRange_ten⟩
  status := .submitted
  sorobanTxHash := some "hash"

/-- The payment of a refund. -/
def paymentOf (amount : String) : PaymentTx where
  source := "GTREASURY"
  fee := "100"
  networkPassphrase := .TESTNET
  operation := { destination := recipient, asset := ⟨"USDC", testApp.STELLAR_ASSET_ISSUER⟩, amount }
  timeout := 300

/-- Without a fee, the refund records what it sends. -/
theorem records_feeless : ∃ invoice, findInvoice feelessDb 1 1 = .ok invoice ∧
    Records testApp Reconciler.testConfig invoice (paymentOf "10").operation tenRefund := by
  obtain ⟨invoice, hinvoice, hgross, husdc, hexact⟩ : ∃ invoice,
      findInvoice feelessDb 1 1 = .ok invoice ∧ invoice.grossUsdc = invoice.amountUsdc ∧
      invoice.currency = .usdc ∧ decimal? (formatStellarAmount invoice.grossUsdc.text).toList
        = some invoice.grossUsdc.value :=
    ⟨_, rfl, rfl, rfl, by decide +kernel⟩
  have hrefund : (refundBuilt testSdk testApp "GTREASURY" (fun _ => "hash") "stub" 7 feelessDb 1
      1).1 = .ok tenRefund := by decide +kernel
  have hbuilt : built testSdk testApp "GTREASURY" feelessDb 1 1 = .ok (some (paymentOf "10")) := by
    decide +kernel
  have hiff :
      Records testApp Reconciler.testConfig invoice (paymentOf "10").operation tenRefund ↔ _ :=
    (records_iff testSdk_documented (Prod.ext hrefund rfl) hbuilt hinvoice hexact).1
  refine ⟨invoice, hinvoice, hiff.mpr ⟨hgross, ?_⟩⟩
  rw [husdc]
  rfl

/-- **The refund of a stored invoice sends 10.30 USDC and records 10.** -/
theorem refund_sends_more : ∃ invoice, findInvoice feeDb 1 1 = .ok invoice ∧
    invoice.amountUsdc.units = 100000000 ∧ invoice.grossUsdc.units = 103000000 ∧
    (refundBuilt testSdk testApp "GTREASURY" (fun _ => "hash") "stub" 7 feeDb 1 1).1
      = .ok tenRefund ∧
    built testSdk testApp "GTREASURY" feeDb 1 1 = .ok (some (paymentOf "10.3")) ∧
    ¬Records testApp Reconciler.testConfig invoice (paymentOf "10.3").operation tenRefund := by
  have hunits : (findInvoice feeDb 1 1).map (fun i => (i.amountUsdc.units, i.grossUsdc.units))
      = .ok (100000000, 103000000) := by decide +kernel
  cases hinvoice : findInvoice feeDb 1 1 with
  | error e =>
    rw [hinvoice] at hunits
    cases hunits
  | ok invoice =>
    rw [hinvoice] at hunits
    obtain ⟨hamount, hgross⟩ := Prod.mk.inj (Except.ok.inj hunits)
    refine ⟨invoice, rfl, hamount, hgross, by decide +kernel, by decide +kernel, ?_⟩
    rintro ⟨hrecorded, -⟩
    have hother : decimal? (paymentOf "10.3").operation.amount.toList
        ≠ some tenRefund.amountUsdc.value := by decide +kernel
    exact hother hrecorded

end Stargate.Refunds
