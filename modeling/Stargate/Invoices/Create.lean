import Stargate.Base.DoubleProducts
import Stargate.Idempotency.Keys
import Stargate.Stellar.MuxedAddress

/-!
# `InvoicesService.create`

A call reads and checks the request, the merchant and the exchange rate, computes
the money columns, then allocates a muxed id and inserts the row.

- `parseCreate`: the zod schema;
- `toUsdc`, `getRate`: the `FxRateService`, in doubles;
- `quote`: everything up to the first write. It fails or gives the amounts;
- `create`: the whole call, with the database it leaves behind also where it
  fails: an allocated id is not given back.
-/

namespace Stargate.Invoices

open Base

/-! ## The request -/

/-- A JSON value in an amount field. -/
inductive AmountInput where
  /-- The number `digits · 10⁻ˢᶜᵃˡᵉ`, by its shortest decimal. -/
  | number (digits scale : Nat)
  | text (s : String)
  /-- Anything else, negative numbers included. -/
  | other
  deriving DecidableEq

/-- The body of a request, an object. -/
structure CreateInput where
  amount : Option AmountInput := none
  amountUsdc : Option AmountInput := none
  currency : Option String := none
  description : Option String := none
  expiresInMinutes : Option ℚ := none
  partialPaymentsEnabled : Option Bool := none
  /-- A UUID. This member and the next two are read by `DisputesService`. -/
  invoiceId : Option Uuid := none
  reason : Option String := none
  externalReference : Option String := none
  /-- The text of the body, with members that no service reads. -/
  text : String := ""
  deriving DecidableEq

/-- `z.union([z.number().positive().max(100_000), z.string().regex(..)])` and
`String(v)`. -/
def parseAmount : AmountInput → Except ApiError String
  | .number digits scale =>
    let v : ℚ := digits / 10 ^ scale
    if 0 < v ∧ v ≤ 100000 then .ok (String.ofList (numberText digits scale)) else .error .zodError
  | .text s => if isAmountText s.toList then .ok s else .error .zodError
  | .other => .error .zodError

/-- `z.enum(SUPPORTED_CURRENCIES)`. -/
def parseCurrency (s : String) : Except ApiError Currency :=
  match [Currency.usdc, .eurc, .xlm].find? fun c => c.code == s with
  | some c => .ok c
  | none => .error .zodError

/-- The length of a string in UTF-16 code units. -/
def utf16Length (s : String) : Nat :=
  (s.toList.map fun c => if 0x10000 ≤ c.toNat then 2 else 1).sum

/-- A parsed request. -/
structure CreateDto where
  amount : String
  currency : Currency
  description : Option String
  expiresInMinutes : Nat
  partialPaymentsEnabled : Bool
  deriving DecidableEq

/-- `createInvoiceSchema.parse(input)`. -/
def parseCreate (input : CreateInput) : Except ApiError CreateDto := do
  let amount ← input.amount.mapM parseAmount
  -- Legacy field — kept for backward compat
  let amountUsdc ← input.amountUsdc.mapM parseAmount
  let currency ← parseCurrency (input.currency.getD "USDC")
  if (input.description.any fun s => 500 < utf16Length s) then throw .zodError
  let minutes := input.expiresInMinutes.getD 60
  if minutes.den ≠ 1 ∨ minutes < 5 ∨ 10080 < minutes then throw .zodError
  match amount.or amountUsdc with
  | some amount =>
    return {
      amount
      currency
      description := input.description
      expiresInMinutes := minutes.num.toNat
      partialPaymentsEnabled := input.partialPaymentsEnabled.getD false }
  | none => throw .zodError

/-! ## `FxRateService` -/

/-- `getRate(currency)`. The column has a decimal text, of which `parseFloat` makes a double. -/
def getRate (db : Db) (currency : Currency) : JsNumber :=
  if currency = .usdc then .finite 1
  else match db.fxRates.find? fun r => r.baseCurrency == currency with
    | some r => .ofRat r.rate
    -- fallback
    | none => if currency = .eurc then .ofRat (108 / 100) else .ofRat (11 / 100)

/-- `toUsdc(amount, currency)`. -/
def toUsdc (db : Db) (amount : String) (currency : Currency) : String :=
  if currency = .usdc then amount
  else String.ofList ((JsNumber.parseFloat amount.toList).mul (getRate db currency)).toFixed7

/-- The exact product is 1.10000495. -/
example : toUsdc {} "10.0000450" .xlm = "1.1000049" := by decide +kernel

/-! ## Limits and fees -/

/-- What the service takes from outside this module. -/
structure CreateEnv where
  /-- The SHA-256 of the body's JSON text. -/
  hashBody : CreateInput → String
  /-- The account key behind `PLATFORM_TREASURY_PUBLIC_KEY`. -/
  treasury : Vector UInt8 32
  /-- `date_trunc('day', now)` in the session's time zone. -/
  startOfDay : Timestamp → Timestamp
  /-- `date_trunc('month', now)`. -/
  startOfMonth : Timestamp → Timestamp

/-- `SELECT COALESCE(SUM(gross_usdc_equiv),0)` over the invoices of a merchant
since a time that are not cancelled, as text. -/
def spentText (db : Db) (merchantId : Uuid) (since : Timestamp) : String :=
  let rows := db.invoices.rows.filter fun i =>
    i.merchantId == merchantId && decide (since ≤ i.createdAt) && i.status != .cancelled
  if rows = [] then "0" else Numeric.unitsText (rows.map fun i => i.grossUsdcEquiv.units).sum

/-- One of the two limits of `enforceSpendLimits`. -/
def enforceLimit (db : Db) (merchantId : Uuid) (limit : Option Numeric) (since : Timestamp)
    (usdcAmount : Int) (message : String) : Except ApiError Unit :=
  match limit with
  | some limit => do
    let total ← toUnits (spentText db merchantId since)
    let limit ← toUnits limit.text
    if limit < total + usdcAmount then throw (.badRequest message)
  | none => .ok ()

/-- `enforceSpendLimits(merchantId, merchant, usdcAmount)`. -/
def enforceSpendLimits (env : CreateEnv) (now : Timestamp) (db : Db) (merchant : Merchant)
    (usdcAmount : Int) : Except ApiError Unit := do
  enforceLimit db merchant.id merchant.dailySpendLimitUsdc (env.startOfDay now) usdcAmount
    "Daily spend limit exceeded"
  enforceLimit db merchant.id merchant.monthlySpendLimitUsdc (env.startOfMonth now) usdcAmount
    "Monthly spend limit exceeded"

/-- The minimum and the maximum of the merchant. -/
def checkBounds (merchant : Merchant) (usdcEquiv : Int) : Except ApiError Unit := do
  if let some bound := merchant.minInvoiceUsdc then
    if usdcEquiv < (← toUnits bound.text) then
      throw (.badRequest
        ("Invoice amount must be at least " ++ bound.text ++ " USDC equivalent"))
  if let some bound := merchant.maxInvoiceUsdc then
    if (← toUnits bound.text) < usdcEquiv then
      throw (.badRequest ("Invoice amount cannot exceed " ++ bound.text ++ " USDC equivalent"))

/-- `fixedFeeUnits(merchant)`. -/
def fixedFeeUnits (merchant : Merchant) : Except ApiError Int :=
  match merchant.tier with
  | .pro => toUnits "0.10"
  | .enterprise => toUnits merchant.feeFixedUsdc.text
  | .standard => toUnits "0.25"

/-- The rate of `calculateFee`, in basis points. -/
def feeRate (merchant : Merchant) : Int :=
  match merchant.tier with
  | .pro => 30
  | .enterprise => merchant.feeBps
  | .standard => 50

/-- `calculateFee(usdcAmount, merchant)`. -/
def calculateFee (usdcAmount : Int) (merchant : Merchant) : Except ApiError Int := do
  let fixed ← fixedFeeUnits merchant
  return (usdcAmount * feeRate merchant).tdiv 10000 + fixed

/-! ## The amounts of an invoice -/

/-- The amounts that a call has computed, in units. -/
structure Quote where
  dto : CreateDto
  merchant : Merchant
  usdcEquivStr : String
  amount : Int
  fee : Int
  gross : Int
  net : Int
  deriving DecidableEq

/-- The fee in the currency of the invoice. -/
def feeInCurrency (db : Db) (fee : Int) (currency : Currency) : Except ApiError Int :=
  if currency = .usdc then .ok fee
  else
    let usdcFee := toUsdc db (fromUnits fee) .usdc
    toUnits (String.ofList
      ((JsNumber.parseFloat usdcFee.toList).div (getRate db currency)).toFixed7)

/-- `create` up to the check of `net`. -/
def quote (env : CreateEnv) (now : Timestamp) (db : Db) (merchantId : Uuid)
    (input : CreateInput) : Except ApiError Quote := do
  let dto ← parseCreate input
  let some merchant := db.merchants.find? fun m => m.id == merchantId
    | throw (.notFound "Merchant not found")
  if merchant.acceptedAssets.any fun assets => !assets.contains dto.currency.code then
    throw (.badRequest ("Merchant does not accept " ++ dto.currency.code))
  -- Convert amount to USDC for fee/limit calculations
  let usdcEquivStr := toUsdc db dto.amount dto.currency
  let usdcEquiv ← toUnits usdcEquivStr
  enforceSpendLimits env now db merchant usdcEquiv
  checkBounds merchant usdcEquiv
  let amount ← toUnits dto.amount
  let fee ← calculateFee usdcEquiv merchant
  -- Fee is always in USDC; gross in native currency = amount + fee converted back
  let gross := amount + (← feeInCurrency db fee dto.currency)
  let net := amount - (← fixedFeeUnits merchant)
  if net < 0 then
    throw (.badRequest
      "Invoice amount is less than the fixed fee; net payout would be negative")
  return { dto, merchant, usdcEquivStr, amount, fee, gross, net }

/-! ## The row -/

/-- The range of `BIGINT`. -/
def isBigint (n : Int) : Bool := decide (-2 ^ 63 ≤ n ∧ n < 2 ^ 63)

/-- `ensureMuxedBase(merchantId)`. -/
def ensureMuxedBase (db : Db) (merchant : Merchant) : Except ApiError (Int × Db) :=
  match merchant.muxedBaseId with
  | some base => .ok (base, db)
  | none =>
    let index := db.merchants.rows.countP fun m => m.createdAt ≤ merchant.createdAt
    let base : Int := index * 16777216
    let merchants := db.merchants.update? (fun m => m.id == merchant.id)
      fun m => { m with muxedBaseId := some base }
    match merchants with
    | some merchants =>
      if isBigint base then .ok (base, { db with merchants }) else .error .database
    | none => .error .database

def countInvoice (m : Merchant) : Merchant := { m with invoiceSeq := m.invoiceSeq + 1 }

theorem key_countInvoice (m : Merchant) : Keyed.key (countInvoice m) = Keyed.key m := rfl

/-- `nextInvoiceSequence(merchantId)`. -/
def nextInvoiceSequence (db : Db) (merchant : Merchant) : Except ApiError (Int × Db) :=
  let next := merchant.invoiceSeq + 1
  if isBigint next then
    .ok (next, { db with
      merchants := db.merchants.modify (fun m => m.id == merchant.id) countInvoice
        key_countInvoice })
  else .error .database

/-- The row that the `INSERT` stores, from the texts of its parameters. -/
def invoiceRow (now : Timestamp) (id : Uuid) (key : Option String) (muxedId : Int)
    (muxedAddress : String) (q : Quote) : Option Invoice := do
  -- gross_usdc_equiv stores the USDC value for reconciliation
  let grossUsdcEquivText :=
    if q.dto.currency = .usdc then fromUnits q.gross else q.usdcEquivStr
  let amountUsdc ← Numeric.ofText? (fromUnits q.amount)
  let grossUsdc ← Numeric.ofText? (fromUnits q.gross)
  let feeUsdc ← Numeric.ofText? (fromUnits q.fee)
  let netUsdc ← Numeric.ofText? (fromUnits q.net)
  let amountPaidUsdc ← Numeric.ofUnits? 0
  let grossUsdcEquiv ← Numeric.ofText? grossUsdcEquivText
  if !isBigint muxedId then failure
  return {
    id, muxedId, muxedAddress, amountUsdc, grossUsdc, feeUsdc, netUsdc, grossUsdcEquiv
    amountPaidUsdc
    merchantId := q.merchant.id
    amountRemainingUsdc := grossUsdc
    description := q.dto.description
    status := .pending
    memo := none
    expiresAt := now + q.dto.expiresInMinutes * 60000000
    paidAt := none
    createdAt := now
    partialPaymentsEnabled := q.dto.partialPaymentsEnabled
    idempotencyKey := key
    currency := q.dto.currency }

/-- `create` from the muxed id on, with the database at the end. -/
def insertQuote (env : CreateEnv) (now : Timestamp) (id : Uuid) (db : Db) (key : Option String)
    (q : Quote) : Except ApiError Invoice × Db :=
  match ensureMuxedBase db q.merchant with
  | .error e => (.error e, db)
  | .ok (base, db) =>
    match nextInvoiceSequence db q.merchant with
    | .error e => (.error e, db)
    | .ok (next, db) =>
      let muxedId := base + next
      if muxedId < 0 then (.error .library, db)
      else
        let address := Stellar.buildMuxedAddress Stellar.crc16 env.treasury muxedId.toNat
        match invoiceRow now id key muxedId address q with
        | none => (.error .database, db)
        | some invoice =>
          match db.invoices.insert? invoice with
          | none => (.error .database, db)
          | some invoices => (.ok invoice, { db with invoices })

/-- `SELECT * FROM invoices WHERE merchant_id=$1 AND idempotency_key=$2`. -/
def findByKey (db : Db) (merchantId : Uuid) (key : String) : Option Invoice :=
  db.invoices.find? fun i => i.merchantId == merchantId && i.idempotencyKey == some key

/-- `idempotency.check` and the lookup of a row under the key. -/
def replay (env : CreateEnv) (db : Db) (merchantId : Uuid) (input : CreateInput) (key : String) :
    Except ApiError (Option Response) :=
  match Idempotency.check db merchantId key (env.hashBody input) with
  | .error e => .error e
  | .ok (some cached) => .ok (some cached)
  | .ok none => .ok ((findByKey db merchantId key).map .invoice)

/-- `create(merchantId, input, idempotencyKey)`: the result, and the database it
leaves. `id` is the random id of the row. -/
def create (env : CreateEnv) (now : Timestamp) (id : Uuid) (db : Db) (merchantId : Uuid)
    (input : CreateInput) (key : Option String) : Except ApiError Response × Db :=
  -- an empty key is no key
  match (key.filter (· ≠ "")).elim (.ok none) (replay env db merchantId input) with
  | .error e => (.error e, db)
  | .ok (some response) => (.ok response, db)
  | .ok none =>
    match quote env now db merchantId input with
    | .error e => (.error e, db)
    | .ok q =>
      match insertQuote env now id db key q with
      | (.error e, db) => (.error e, db)
      | (.ok invoice, db) =>
        (.ok (.invoice invoice), (key.filter (· ≠ "")).elim db fun key =>
          Idempotency.save db merchantId key (env.hashBody input) (.invoice invoice))

end Stargate.Invoices
