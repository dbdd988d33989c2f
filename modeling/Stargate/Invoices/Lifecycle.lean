import Stargate.Invoices.Units

/-!
# What the API does to stored invoices (`invoices.service.ts`)

`cancel` and the two cron jobs are one guarded `UPDATE` each; the cron jobs then
queue webhook deliveries (`dispatchEvent`), statement by statement.
`applyPartialPayment` is a transaction that locks its row with
`SELECT ... FOR UPDATE`.

- `setStatus`: the guarded `UPDATE` that the first three share;
- `ApiCall`, `ApiCall.exec`: the calls that take several statements;
- `ApiEffect`: what any of these statements can do to the database. No invoice
  ever becomes pending, and none changes while another transaction holds its row.
-/

namespace Stargate.Invoices

open Base

/-! ## Guarded updates -/

/-- `UPDATE invoices SET status=s WHERE status IN ('pending','partial') AND p`. -/
def setStatus (db : Db) (p : Invoice → Bool) (s : InvoiceStatus) : Db :=
  { db with
    invoices := db.invoices.modify (fun i => i.status.active && p i)
      (fun i => { i with status := s }) fun _ => rfl }

/-- The rows that the `UPDATE` returns. -/
def affected (db : Db) (p : Invoice → Bool) : List Invoice :=
  db.invoices.rows.filter fun i => i.status.active && p i

theorem mem_affected {db : Db} {p : Invoice → Bool} {i : Invoice} :
    i ∈ affected db p ↔ i ∈ db.invoices ∧ i.status.active = true ∧ p i = true := by
  rw [affected, List.mem_filter, Bool.and_eq_true, Table.mem_rows]

theorem mem_setStatus {db : Db} {p : Invoice → Bool} {status : InvoiceStatus} {i' : Invoice} :
    i' ∈ (setStatus db p status).invoices ↔ ∃ i ∈ db.invoices,
      (if (i.status.active && p i) = true then { i with status := status } else i) = i' := by
  rw [← Table.mem_rows]
  exact List.mem_map

/-- The rows of `cancel(merchantId, id)`. -/
def isCancelled (merchantId id : Uuid) (i : Invoice) : Bool :=
  i.id == id && i.merchantId == merchantId

/-- The rows of `expireInvoices()`. -/
def isExpired (now : Timestamp) (i : Invoice) : Bool := i.expiresAt < now

/-- The rows of `autoCancelUnpaidInvoices()`. -/
def isUnpaid (db : Db) (now : Timestamp) (i : Invoice) : Bool :=
  db.merchants.rows.any fun m => i.merchantId == m.id &&
    decide ((i.createdAt : Int) + m.unpaidInvoiceTtlMinutes * 60000000 < now)

/-! ## Calls of several statements -/

/-- The arguments of a call of `dispatchEvent`. -/
structure Dispatch where
  merchantId : Uuid
  eventType : String
  payload : Payload
  deriving DecidableEq

/-- The dispatches of `expireInvoices`, after its `UPDATE`. -/
def expireDispatches (now : Timestamp) (rows : List Invoice) : List Dispatch :=
  rows.map fun i =>
    ⟨i.merchantId, "merchant.payment_intent.expired", .expired i.id now "expires_at"⟩

/-- The dispatches of `autoCancelUnpaidInvoices`, after its `UPDATE`. -/
def autoCancelDispatches (now : Timestamp) (rows : List Invoice) : List Dispatch :=
  rows.flatMap fun i =>
    [⟨i.merchantId, "merchant.payment_intent.expired", .expired i.id now "unpaid_invoice_ttl"⟩,
      ⟨i.merchantId, "invoice.cancelled", .cancelled i.id now "unpaid_invoice_ttl"⟩]

/-- A call of the API between two of its statements. -/
inductive ApiCall where
  | idle
  /-- About to select the webhooks of the first dispatch. -/
  | selectHooks (todo : List Dispatch)
  /-- Inserting the deliveries of one dispatch, a webhook at a time. -/
  | insertDelivery (d : Dispatch) (hooks : List Uuid) (todo : List Dispatch)
  /-- `applyPartialPayment`, before its `SELECT ... FOR UPDATE`. -/
  | partialSelect (invoiceId : Uuid) (paidAmount : String)
  /-- The row is locked and passed the checks. -/
  | partialUpdate (invoice : Invoice) (paidAmount : String) (remaining : Int) (now : Timestamp)
  /-- The `UPDATE` wrote this row. -/
  | partialCommit (row : Invoice)
  deriving DecidableEq

/-- The lock that a call holds on an invoice row. -/
def ApiCall.locks : ApiCall → Uuid → Bool
  | .partialUpdate invoice _ _ _, id => invoice.id == id
  | .partialCommit row, id => row.id == id
  | _, _ => false

/-- The checks of `applyPartialPayment` on the locked row: the balance that
remains after the payment, or the exception. -/
def partialRemaining (invoice : Invoice) (paidAmount : String) : Except ApiError Int :=
  if invoice.partialPaymentsEnabled = false then
    .error (.badRequest "Partial payments not enabled for this invoice")
  else do
    let paid ← toUnits paidAmount
    let before ← toUnits invoice.amountRemainingUsdc.text
    let remaining := before - paid
    if remaining < 0 then .error (.badRequest "Payment exceeds remaining balance")
    else .ok remaining

/-- The row that the `UPDATE` of `applyPartialPayment` writes; `none` where the
database rejects it. `'partial'` fails the `CHECK` of 002. The amount is added as
it is given; the column rounds the sum. -/
def partialRow (invoice : Invoice) (paidAmount : String) (remaining : Int) (now : Timestamp) :
    Option Invoice := do
  let newStatus : InvoiceStatus := if remaining = 0 then .paid else .partiallyPaid
  if newStatus.check = false then none
  else
    let paid ← (Numeric.parse? paidAmount).bind fun p =>
      Numeric.ofRat? (invoice.amountPaidUsdc.value + p)
    let left ← Numeric.ofText? (fromUnits remaining)
    some { invoice with
      amountPaidUsdc := paid
      amountRemainingUsdc := left
      status := newStatus
      paidAt := if newStatus = .paid then some now else none }

/-- Commit the row of `applyPartialPayment`. -/
def commitPartial (db : Db) (row : Invoice) : Db :=
  { db with
    invoices := db.invoices.modify (fun i => i.id == row.id)
      (fun i => { i with
        amountPaidUsdc := row.amountPaidUsdc
        amountRemainingUsdc := row.amountRemainingUsdc
        status := row.status
        paidAt := row.paidAt }) fun _ => rfl }

/-- Run one statement of a call. `none` means that it waits for a row lock, or
that there is nothing to run. An exception ends the call with a `ROLLBACK`. -/
def ApiCall.exec (now : Timestamp) (locked : Uuid → Bool) (db : Db) :
    ApiCall → Option (Db × ApiCall)
  | .idle => none
  | .selectHooks [] => some (db, .idle)
  | .selectHooks (d :: todo) =>
    some (db, .insertDelivery d (subscribers db d.merchantId d.eventType) todo)
  | .insertDelivery _ [] todo => some (db, .selectHooks todo)
  | .insertDelivery d (h :: hooks) todo =>
    let webhookDeliveries := db.webhookDeliveries ++ [⟨h, d.eventType, d.payload⟩]
    some ({ db with webhookDeliveries }, .insertDelivery d hooks todo)
  | .partialSelect invoiceId paidAmount =>
    match db.invoices.find? fun i => i.id == invoiceId && i.status.active with
    | none => some (db, .idle)
    | some invoice =>
      if locked invoiceId then none
      else match partialRemaining invoice paidAmount with
        | .ok remaining => some (db, .partialUpdate invoice paidAmount remaining now)
        | .error _ => some (db, .idle)
  | .partialUpdate invoice paidAmount remaining start =>
    match partialRow invoice paidAmount remaining start with
    | some row => some (db, .partialCommit row)
    | none => some (db, .idle)
  | .partialCommit row => some (commitPartial db row, .idle)

/-! ## What these statements can do -/

/-- How an API statement may change a stored invoice: not at all, or, while no
other transaction holds the row, to paid, or to cancelled or expired where it is
among the `taken` ones. -/
def Evolves (locked : Uuid → Bool) (taken : Invoice → Bool) (i i' : Invoice) : Prop :=
  i' = i ∨ (i'.id = i.id ∧ locked i.id = false ∧ i'.status ≠ .pending ∧
    (i'.status = .paid ∨ (i.status.active ∧ taken i)))

/-- What an API statement may change: invoices, and deliveries that do not
announce a payment. -/
structure ApiEffect (locked : Uuid → Bool) (taken : Invoice → Bool) (db db' : Db) : Prop where
  ledger : db'.ledgerEntries = db.ledgerEntries
  events : db'.paymentEvents = db.paymentEvents
  kept : ∀ i ∈ db.invoices, ∃ i' ∈ db'.invoices, Evolves locked taken i i'
  origin : ∀ i' ∈ db'.invoices, ∃ i ∈ db.invoices, Evolves locked taken i i'
  deliveries : ∀ d ∈ db'.webhookDeliveries, d ∈ db.webhookDeliveries ∨
    ∀ id eventId, d.payload ≠ .invoicePaid id eventId

/-- A dispatch that a cron job queues: it does not announce a payment. -/
def Dispatch.Honest (d : Dispatch) : Prop := ∀ id eventId, d.payload ≠ .invoicePaid id eventId

/-- What holds of a call between its statements: its dispatches announce no
payment, and the row it is about to write is paid. -/
def ApiCall.Honest : ApiCall → Prop
  | .selectHooks todo => ∀ d ∈ todo, d.Honest
  | .insertDelivery d _ todo => d.Honest ∧ ∀ d ∈ todo, d.Honest
  | .partialCommit row => row.status = .paid
  | _ => True

section Effects

variable {locked : Uuid → Bool} {taken : Invoice → Bool} {db db' : Db}

theorem ApiEffect.refl (locked : Uuid → Bool) (taken : Invoice → Bool) (db : Db) :
    ApiEffect locked taken db db :=
  ⟨rfl, rfl, fun i hi => ⟨i, hi, .inl rfl⟩, fun i hi => ⟨i, hi, .inl rfl⟩, fun _ => .inl⟩

/-- An `UPDATE` of invoices, from what it does to the rows it touches. -/
theorem apiEffect_modify {p : Invoice → Bool} {f : Invoice → Invoice}
    {hf : ∀ i, Keyed.key (f i) = Keyed.key i}
    (h : ∀ i ∈ db.invoices, p i = true → locked i.id = false ∧ (f i).status ≠ .pending ∧
      ((f i).status = .paid ∨ (i.status.active ∧ taken i))) :
    ApiEffect locked taken db { db with invoices := db.invoices.modify p f hf } := by
  have hone : ∀ i ∈ db.invoices, Evolves locked taken i (if p i then f i else i) := fun i hi => by
    split
    · next hp => exact .inr ⟨congrArg Prod.fst (hf i), h i hi hp⟩
    · exact .inl rfl
  refine ⟨rfl, rfl, fun i hi => ⟨_, (Table.mem_modify hf).mpr ⟨i, hi, rfl⟩, hone i hi⟩,
    fun i' hi' => ?_, fun _ => .inl⟩
  obtain ⟨i, hi, rfl⟩ := (Table.mem_modify hf).mp hi'
  exact ⟨i, hi, hone i hi⟩

theorem apiEffect_setStatus {s : InvoiceStatus} (hs : s ≠ .pending)
    (hfree : ∀ i ∈ affected db taken, locked i.id = false) :
    ApiEffect locked taken db (setStatus db taken s) :=
  apiEffect_modify fun i hi hp =>
    ⟨hfree i (List.mem_filter.mpr ⟨hi, hp⟩), hs, .inr (Bool.and_eq_true_iff.mp hp)⟩

/-- **When the checks of `applyPartialPayment` pass**, and what remains. -/
theorem partialRemaining_ok {invoice : Invoice} {paidAmount : String} {remaining : Int}
    (h : partialRemaining invoice paidAmount = .ok remaining) :
    ∃ paid before, toUnits paidAmount = .ok paid ∧
      toUnits invoice.amountRemainingUsdc.text = .ok before ∧
      remaining = before - paid ∧ 0 ≤ remaining ∧ invoice.partialPaymentsEnabled = true := by
  unfold partialRemaining at h
  split at h
  · cases h
  · next henabled =>
    obtain ⟨paid, hpaid, h⟩ := bind_eq_ok.mp h
    obtain ⟨before, hbefore, h⟩ := bind_eq_ok.mp h
    dsimp only at h
    split at h
    · cases h
    · next hnonneg =>
      cases h
      exact ⟨paid, before, hpaid, hbefore, rfl, by omega, Bool.not_eq_false _ ▸ henabled⟩

/-- **When the `UPDATE` of `applyPartialPayment` stores a row**: for nothing but the
last payment, since `'partial'` cannot be stored. -/
theorem partialRow_eq_some_iff {invoice row : Invoice} {paidAmount : String} {remaining : Int}
    {now : Timestamp} :
    partialRow invoice paidAmount remaining now = some row ↔
      remaining = 0 ∧ ∃ paid, ((Numeric.parse? paidAmount).bind fun p =>
          Numeric.ofRat? (invoice.amountPaidUsdc.value + p)) = some paid ∧
        row = { invoice with
          amountPaidUsdc := paid
          amountRemainingUsdc := ⟨0, by decide⟩
          status := .paid
          paidAt := some now } := by
  have hzero : Numeric.ofText? (fromUnits 0) = some ⟨0, by decide⟩ :=
    (Numeric.ofText?_fromUnits_natCast 0).trans (Numeric.ofUnits?_units ⟨0, by decide⟩)
  by_cases hr : remaining = 0
  · subst hr
    have hcheck : InvoiceStatus.paid.check ≠ false := by decide
    simp only [partialRow, if_true, if_neg hcheck, hzero, Option.bind_eq_bind, Option.bind_some,
      true_and]
    rw [Option.bind_eq_some_iff]
    simp only [Option.some.injEq, eq_comm]
  · have hcheck : InvoiceStatus.partiallyPaid.check = false := by decide
    simp [partialRow, hr, hcheck]

theorem partialRow_some {invoice row : Invoice} {paidAmount : String} {remaining : Int}
    {now : Timestamp} (h : partialRow invoice paidAmount remaining now = some row) :
    row.id = invoice.id ∧ row.status = .paid := by
  obtain ⟨-, paid, -, rfl⟩ := partialRow_eq_some_iff.mp h
  exact ⟨rfl, rfl⟩

/-- **Every API statement has such an effect.** A lock of the call itself does
not stand in its way: `hown` says that nobody else holds it. -/
theorem ApiCall.exec_effect {now : Timestamp} {call call' : ApiCall}
    (hown : ∀ id, call.locks id = true → locked id = false) (hh : call.Honest)
    (h : call.exec now locked db = some (db', call')) :
    ApiEffect locked taken db db' ∧ call'.Honest := by
  cases call with
  | idle => cases h
  | selectHooks todo =>
    cases todo <;> cases h
    · exact ⟨.refl _ _ _, trivial⟩
    · exact ⟨.refl _ _ _, List.forall_mem_cons.mp hh⟩
  | insertDelivery d hooks todo =>
    cases hooks <;> cases h
    · exact ⟨.refl _ _ _, hh.2⟩
    · refine ⟨⟨rfl, rfl, fun i hi => ⟨i, hi, .inl rfl⟩, fun i hi => ⟨i, hi, .inl rfl⟩,
        fun x hx => ?_⟩, hh⟩
      rcases List.mem_append.mp hx with hx | hx
      · exact .inl hx
      · rw [List.mem_singleton.mp hx]
        exact .inr hh.1
  | partialSelect invoiceId paidAmount =>
    simp only [exec] at h
    split at h
    · cases h
      exact ⟨.refl _ _ _, trivial⟩
    · split at h
      · cases h
      · split at h <;> cases h <;> exact ⟨.refl _ _ _, trivial⟩
  | partialUpdate invoice paidAmount remaining start =>
    simp only [exec] at h
    split at h
    · next row hrow =>
      cases h
      exact ⟨.refl _ _ _, (partialRow_some hrow).2⟩
    · cases h
      exact ⟨.refl _ _ _, trivial⟩
  | partialCommit row =>
    cases h
    have hpaid : row.status = .paid := hh
    refine ⟨apiEffect_modify fun i _ hp => ⟨?_, by simp [hpaid], .inl hpaid⟩, trivial⟩
    rw [beq_iff_eq] at hp
    exact hown i.id (by simp [ApiCall.locks, hp])

theorem honest_expireDispatches (now : Timestamp) (rows : List Invoice) :
    ∀ d ∈ expireDispatches now rows, d.Honest := by
  intro d hd
  obtain ⟨i, -, rfl⟩ := List.mem_map.mp hd
  intro _ _ h
  cases h

theorem honest_autoCancelDispatches (now : Timestamp) (rows : List Invoice) :
    ∀ d ∈ autoCancelDispatches now rows, d.Honest := by
  intro d hd
  obtain ⟨i, -, hd⟩ := List.mem_flatMap.mp hd
  rcases List.mem_cons.mp hd with rfl | hd
  · intro _ _ h
    cases h
  · rw [List.mem_singleton.mp hd]
    intro _ _ h
    cases h

end Effects

end Stargate.Invoices
