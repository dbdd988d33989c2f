import Stargate.Invoices.Create
import Stargate.Invoices.Refunds

/-!
# `DisputesService.create`

A dispute is opened against a paid invoice. The body is checked against a schema of
its own; the idempotency key goes into the table that all endpoints share.
-/

namespace Stargate.Disputes

open Base Invoices

/-- A parsed request. -/
structure DisputeDto where
  invoiceId : Uuid
  amountUsdc : String
  reason : Option String
  externalReference : Option String
  deriving DecidableEq

/-- `createDisputeSchema.parse(input)`. -/
def parseDispute (input : CreateInput) : Except ApiError DisputeDto := do
  let some invoiceId := input.invoiceId | throw .zodError
  let some amount := input.amountUsdc | throw .zodError
  let amountUsdc ← parseAmount amount
  if (input.reason.any fun s => 500 < utf16Length s) then throw .zodError
  if (input.externalReference.any fun s => 200 < utf16Length s) then throw .zodError
  return {
    invoiceId
    amountUsdc
    reason := input.reason
    externalReference := input.externalReference }

/-- This service's `toUnits(amount)`, with a message of its own. -/
def disputeUnits (amount : String) : Except ApiError Int :=
  match toUnits amount with
  | .error (.badRequest _) => .error (.badRequest "amount_usdc must be > 0")
  | res => res

/-- `status NOT IN ('won','lost','rejected')`. -/
def isOpen (s : DisputeStatus) : Bool := !([.won, .lost, .rejected].contains s)

/-- Does the invoice have an open dispute? -/
def hasOpen (db : Db) (merchantId invoiceId : Uuid) : Bool :=
  db.disputes.rows.any fun d =>
    d.invoiceId == invoiceId && d.merchantId == merchantId && isOpen d.status

/-- `create` up to the `INSERT`: the row. -/
def disputeRow (id : Uuid) (db : Db) (merchantId : Uuid) (input : CreateInput) :
    Except ApiError Dispute := do
  let dto ← parseDispute input
  let amountUnits ← disputeUnits dto.amountUsdc
  let invoice ← Refunds.findInvoice db merchantId dto.invoiceId
  if invoice.status ≠ .paid ∧ invoice.status ≠ .partiallyPaid then
    throw (.badRequest "Disputes can only be created for paid invoices")
  -- Ensure no existing open dispute for this invoice
  if hasOpen db merchantId dto.invoiceId then
    throw (.conflict "An open dispute already exists for this invoice")
  match Numeric.ofText? (fromUnits amountUnits) with
  | some amountUsdc =>
    return {
      id, merchantId, amountUsdc
      invoiceId := dto.invoiceId
      status := .submitted
      reason := dto.reason
      externalReference := dto.externalReference }
  | none => throw .database

/-- `create(merchantId, input, idempotencyKey)`, with nothing interleaved. `id` is the
random id of the row. -/
def create (hashBody : CreateInput → String) (id : Uuid) (db : Db) (merchantId : Uuid)
    (input : CreateInput) (key : Option String) : Except ApiError Response × Db :=
  -- an empty key is no key
  match (key.filter (· ≠ "")).elim (.ok none) fun key =>
      Idempotency.check db merchantId key (hashBody input) with
  | .error e => (.error e, db)
  | .ok (some cached) => (.ok cached, db)
  | .ok none =>
    match disputeRow id db merchantId input with
    | .error e => (.error e, db)
    | .ok dispute =>
      match db.disputes.insert? dispute with
      | none => (.error .database, db)
      | some disputes =>
        (.ok (.dispute dispute), (key.filter (· ≠ "")).elim { db with disputes } fun key =>
          Idempotency.save { db with disputes } merchantId key (hashBody input) (.dispute dispute))

end Stargate.Disputes
