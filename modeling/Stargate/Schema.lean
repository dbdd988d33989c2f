import Mathlib.Data.List.DropRight
import Stargate.Base.DecimalText
import Stargate.Base.Rounding
import Stargate.Base.Table

/-!
# The database (`db/migrations`)

The tables that the reconciler and the API share, as they stand after all
migrations have run, with the columns that the modelled statements read or
write. Unique constraints are carried by `Table`, ranges of money columns by
`Numeric`, enumerated text columns by inductive types.

Row ids of type `UUID` are natural numbers, timestamps are microseconds.
-/

namespace Stargate

open Base

abbrev Uuid := Nat

abbrev Timestamp := Nat

/-! ## Money columns -/

/-- A value of a `NUMERIC(18,7)` column, in units of `10⁻⁷`. -/
structure Numeric where
  units : Int
  inRange : units.natAbs < 10 ^ 18
  deriving DecidableEq

namespace Numeric

theorem inRange_zero : (0 : Int).natAbs < 10 ^ 18 := by decide

theorem ext_units {a b : Numeric} (h : a.units = b.units) : a = b := by
  cases a
  cases b
  congr

/-- The number a column value stands for. -/
def value (n : Numeric) : ℚ := n.units / 10 ^ 7

/-- Store a number of units; out of range is the "numeric field overflow". -/
def ofUnits? (u : Int) : Option Numeric :=
  if h : u.natAbs < 10 ^ 18 then some ⟨u, h⟩ else none

/-- Store a number: rounded to seven places, half away from zero. -/
def ofRat? (x : ℚ) : Option Numeric := ofUnits? (roundHalfAway (x * 10 ^ 7))

/-- The blanks that numeric input ignores around the literal. -/
def isBlank (c : Char) : Bool := c.toNat == 32 || (9 ≤ c.toNat && c.toNat ≤ 13)

/-- Read a text parameter: an exact decimal literal. Other text is the "invalid
input syntax" error. -/
def parse? (s : String) : Option ℚ :=
  decimal? ((s.toList.dropWhile isBlank).rdropWhile isBlank)

/-- Store a text parameter: an exact decimal literal, rounded. Other text is
the "invalid input syntax" error. -/
def ofText? (s : String) : Option Numeric :=
  (decimal? ((s.toList.dropWhile isBlank).rdropWhile isBlank)).bind ofRat?

/-- The text of a number of units: seven fraction digits. -/
def unitsText (units : Int) : String :=
  if units < 0 then String.ofList ('-' :: fixedText 7 units.natAbs)
  else String.ofList (fixedText 7 units.natAbs)

/-- The text of a column value. -/
def text (n : Numeric) : String := unitsText n.units

theorem ofText?_eq (s : String) : ofText? s = (parse? s).bind ofRat? := rfl

theorem ofUnits?_eq_some {u : Int} {n : Numeric} : ofUnits? u = some n ↔ n.units = u := by
  unfold ofUnits?
  split
  · next h =>
    rw [Option.some.injEq]
    exact ⟨fun heq => heq ▸ rfl, fun heq => ext_units heq.symm⟩
  · next h =>
    refine iff_of_false (fun heq => nomatch heq) fun heq => h ?_
    rw [← heq]
    exact n.inRange

theorem ofUnits?_units (n : Numeric) : ofUnits? n.units = some n := ofUnits?_eq_some.mpr rfl

/-- A column value survives being read and stored again. -/
theorem ofRat?_value (n : Numeric) : ofRat? n.value = some n := by
  have hscale : n.value * 10 ^ 7 = (n.units : ℚ) := by
    unfold value
    field_simp
  rw [ofRat?, hscale, roundHalfAway_intCast, ofUnits?_units]

end Numeric

/-! ## Enumerated columns -/

inductive Currency where
  | usdc | eurc | xlm
  deriving DecidableEq, Repr

/-- The text of `invoices.currency`. -/
def Currency.code : Currency → String
  | .usdc => "USDC"
  | .eurc => "EURC"
  | .xlm => "XLM"

inductive InvoiceStatus where
  | pending | partiallyPaid | paid | expired | cancelled
  deriving DecidableEq, Repr

/-- The text of `invoices.status`. -/
def InvoiceStatus.code : InvoiceStatus → String
  | .pending => "pending"
  | .partiallyPaid => "partial"
  | .paid => "paid"
  | .expired => "expired"
  | .cancelled => "cancelled"

/-- The `CHECK` constraints on `invoices.status`. Migration 010 adds one that
admits `'partial'` but does not drop the one of 002, and Postgres checks both. -/
def InvoiceStatus.check (s : InvoiceStatus) : Bool :=
  -- 002_invoices: IN ('pending','paid','expired','cancelled')
  [pending, paid, expired, cancelled].contains s
  -- 010_partial_payments: IN ('pending','partial','paid','expired','cancelled')
    && [pending, partiallyPaid, paid, expired, cancelled].contains s

/-- `status IN ('pending','partial')`. -/
def InvoiceStatus.active (s : InvoiceStatus) : Bool := s == .pending || s == .partiallyPaid

inductive Tier where
  | standard | pro | enterprise
  deriving DecidableEq, Repr

inductive LedgerType where
  | payment | refund | fee | settlement
  deriving DecidableEq, Repr

inductive SettlementStatus where
  | pending | submitted | confirmed | failed
  deriving DecidableEq, Repr

inductive RefundStatus where
  | pending | submitted | settled | failed
  deriving DecidableEq, Repr

inductive DisputeStatus where
  | submitted | underReview | won | lost | rejected
  deriving DecidableEq, Repr

inductive LinkEventType where
  | view | attempt | conversion
  deriving DecidableEq, Repr

/-! ## Rows -/

structure Merchant where
  id : Uuid
  name : String
  tier : Tier
  feeBps : Int
  feeFixedUsdc : Numeric
  muxedBaseId : Option Int
  invoiceSeq : Int
  minInvoiceUsdc : Option Numeric
  maxInvoiceUsdc : Option Numeric
  dailySpendLimitUsdc : Option Numeric
  monthlySpendLimitUsdc : Option Numeric
  acceptedAssets : Option (List String)
  settlementScheduledAt : Option Timestamp
  unpaidInvoiceTtlMinutes : Int
  testMode : Bool
  createdAt : Timestamp
  stellarAddress : Option String := none
  deriving DecidableEq

structure Invoice where
  id : Uuid
  merchantId : Uuid
  amountUsdc : Numeric
  grossUsdc : Numeric
  feeUsdc : Numeric
  netUsdc : Numeric
  description : Option String
  status : InvoiceStatus
  muxedId : Int
  muxedAddress : String
  memo : Option String
  expiresAt : Timestamp
  paidAt : Option Timestamp
  createdAt : Timestamp
  amountPaidUsdc : Numeric
  amountRemainingUsdc : Numeric
  partialPaymentsEnabled : Bool
  idempotencyKey : Option String
  currency : Currency
  grossUsdcEquiv : Numeric
  deriving DecidableEq

structure PaymentEvent where
  id : Nat
  pagingToken : String
  invoiceId : Option Uuid
  payerAddress : String
  amountUsdc : Numeric
  assetCode : String
  assetIssuer : String
  memo : Option String
  stellarTxHash : String
  ledgerSequence : Int
  ofacResult : String
  matchedAt : Option Timestamp
  deriving DecidableEq

structure LedgerEntry where
  id : Nat
  invoiceId : Uuid
  merchantId : Uuid
  eventId : Nat
  grossUsdc : Numeric
  feeUsdc : Numeric
  netUsdc : Numeric
  type : LedgerType
  settlementId : Option Uuid
  deriving DecidableEq

structure Settlement where
  id : Uuid
  merchantId : Uuid
  amountUsdc : Numeric
  status : SettlementStatus
  deriving DecidableEq

structure Refund where
  id : Uuid
  invoiceId : Uuid
  merchantId : Uuid
  amountUsdc : Numeric
  status : RefundStatus
  sorobanTxHash : Option String
  deriving DecidableEq

/-- No migration creates the table; these are the columns that the service uses. -/
structure Dispute where
  id : Uuid
  merchantId : Uuid
  invoiceId : Uuid
  amountUsdc : Numeric
  status : DisputeStatus
  reason : Option String
  externalReference : Option String
  deriving DecidableEq

structure Webhook where
  id : Uuid
  merchantId : Uuid
  events : List String
  active : Bool
  deriving DecidableEq

/-- The JSON documents queued for delivery. -/
inductive Payload where
  /-- `{invoice_id, event_id}`, queued by the reconciler. -/
  | invoicePaid (invoiceId : Uuid) (eventId : Nat)
  /-- `{invoice_id, expired_at, reason}`, queued by the cron jobs. -/
  | expired (invoiceId : Uuid) (expiredAt : Timestamp) (reason : String)
  /-- `{invoice_id, cancelled_at, reason}`, queued by the cron jobs. -/
  | cancelled (invoiceId : Uuid) (cancelledAt : Timestamp) (reason : String)
  deriving DecidableEq

structure WebhookDelivery where
  webhookId : Uuid
  eventType : String
  payload : Payload
  deriving DecidableEq

structure PaymentLinkEvent where
  invoiceId : Uuid
  merchantId : Uuid
  eventType : LinkEventType
  deriving DecidableEq

/-- What an endpoint that takes an idempotency key responds. -/
inductive Response where
  | invoice (invoice : Invoice)
  | dispute (dispute : Dispute)
  deriving DecidableEq

structure IdempotencyKey where
  merchantId : Uuid
  key : String
  requestHash : String
  responseBody : Response
  deriving DecidableEq

structure FxRate where
  baseCurrency : Currency
  rate : ℚ
  deriving DecidableEq

/-! ## Unique constraints -/

/-- `PRIMARY KEY (id)`, `UNIQUE (muxed_base_id)`. -/
instance : Keyed Merchant where
  Key := Uuid × Option Int
  key m := (m.id, m.muxedBaseId)
  Clash a b := a.1 = b.1 ∨ (a.2 = b.2 ∧ a.2 ≠ none)
  clash_symm := by
    rintro a b (h | ⟨h, hne⟩)
    · exact .inl h.symm
    · exact .inr ⟨h.symm, h ▸ hne⟩
  decClash _ _ := inferInstanceAs (Decidable (_ ∨ _ ∧ _))

/-- `PRIMARY KEY (id)`, `UNIQUE (muxed_id)`, and the unique index on
`(merchant_id, idempotency_key)` where the key is present. -/
instance : Keyed Invoice where
  Key := Uuid × Int × Uuid × Option String
  key i := (i.id, i.muxedId, i.merchantId, i.idempotencyKey)
  Clash a b := a.1 = b.1 ∨ a.2.1 = b.2.1 ∨ (a.2.2 = b.2.2 ∧ a.2.2.2 ≠ none)
  clash_symm := by
    rintro a b (h | h | ⟨h, hne⟩)
    · exact .inl h.symm
    · exact .inr (.inl h.symm)
    · exact .inr (.inr ⟨h.symm, h ▸ hne⟩)
  decClash _ _ := inferInstanceAs (Decidable (_ ∨ _ ∨ _ ∧ _))

/-- `PRIMARY KEY (id)`, `UNIQUE (paging_token)`. -/
instance : Keyed PaymentEvent where
  Key := Nat × String
  key e := (e.id, e.pagingToken)
  Clash a b := a.1 = b.1 ∨ a.2 = b.2
  clash_symm := Or.imp Eq.symm Eq.symm
  decClash _ _ := inferInstanceAs (Decidable (_ ∨ _))

instance : Serial PaymentEvent := ⟨PaymentEvent.id⟩

instance : Keyed LedgerEntry where
  Key := Nat
  key := LedgerEntry.id
  Clash a b := a = b
  clash_symm := Eq.symm
  decClash _ _ := inferInstanceAs (Decidable (_ = _))

instance : Serial LedgerEntry := ⟨LedgerEntry.id⟩

instance : Keyed Settlement where
  Key := Uuid
  key := Settlement.id
  Clash a b := a = b
  clash_symm := Eq.symm
  decClash _ _ := inferInstanceAs (Decidable (_ = _))

instance keyedRefund : Keyed Refund where
  Key := Uuid
  key := Refund.id
  Clash a b := a = b
  clash_symm := Eq.symm
  decClash _ _ := inferInstanceAs (Decidable (_ = _))

instance keyedDispute : Keyed Dispute where
  Key := Uuid
  key := Dispute.id
  Clash a b := a = b
  clash_symm := Eq.symm
  decClash _ _ := inferInstanceAs (Decidable (_ = _))

instance : Keyed Webhook where
  Key := Uuid
  key := Webhook.id
  Clash a b := a = b
  clash_symm := Eq.symm
  decClash _ _ := inferInstanceAs (Decidable (_ = _))

instance : Keyed IdempotencyKey where
  Key := Uuid × String
  key k := (k.merchantId, k.key)
  Clash a b := a = b
  clash_symm := Eq.symm
  decClash _ _ := inferInstanceAs (Decidable (_ = _))

instance : Keyed FxRate where
  Key := Currency
  key := FxRate.baseCurrency
  Clash a b := a = b
  clash_symm := Eq.symm
  decClash _ _ := inferInstanceAs (Decidable (_ = _))

/-! ## The database -/

/-- The committed rows. Deliveries and link events are only ever appended, and
nothing refers to their serial ids. -/
structure Db where
  merchants : Table Merchant := .empty
  invoices : Table Invoice := .empty
  paymentEvents : Table PaymentEvent := .empty
  ledgerEntries : Table LedgerEntry := .empty
  settlements : Table Settlement := .empty
  refunds : Table Refund := .empty
  disputes : Table Dispute := .empty
  webhooks : Table Webhook := .empty
  webhookDeliveries : List WebhookDelivery := []
  paymentLinkEvents : List PaymentLinkEvent := []
  fxRates : Table FxRate := .empty
  idempotencyKeys : Table IdempotencyKey := .empty
  /-- `reconciler_state.value` of the row `'cursor'`. -/
  cursor : String := "now"

/-- `SELECT id FROM webhooks WHERE merchant_id=$1 AND active=true AND $2=ANY(events)`. -/
def subscribers (db : Db) (merchantId : Uuid) (eventType : String) : List Uuid :=
  (db.webhooks.rows.filter fun h =>
    h.merchantId == merchantId && h.active && h.events.contains eventType).map Webhook.id

end Stargate
