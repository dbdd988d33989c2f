import Stargate.Base.Statements
import Stargate.Invoices.Pagination
import Stargate.Invoices.Refunds
import Stargate.Invoices.WholeCalls
import Stargate.TeamMembers.Invites
import Stargate.Webhooks.Secrets

/-!
# The services of a merchant (`InvoicesService`, `WebhooksService`, `SchedulesService`,
`TeamMembersService`)

Each call names a merchant and, but for the lists, the id of a row, which may be a row of any
merchant. Some statements ask for the merchant, some for an id alone, after another statement
has found the row, and deliveries and payment events have no merchant of their own.

- `World`: the tables;
- `Service`: statements that may throw;
- `Call.run`: the calls, one by one as in the source;
- `serving`: calls of one merchant in a row.
-/

namespace Stargate.Tenants

open Base Base.Statements Webhooks

/-! ## Rows -/

inductive Interval where
  | daily | weekly | monthly
  deriving DecidableEq

inductive ScheduleStatus where
  | active | paused | cancelled
  deriving DecidableEq

/-- A row of `recurring_schedules`. -/
structure Schedule where
  id : Uuid
  merchantId : Uuid
  recipient : String
  amountUsdc : Numeric
  interval : Interval
  status : ScheduleStatus
  nextRunAt : Timestamp
  createdAt : Timestamp
  updatedAt : Timestamp
  deriving DecidableEq

instance keyedSchedule : Keyed Schedule where
  Key := Uuid
  key s := s.id
  Clash a b := a = b
  clash_symm := Eq.symm
  decClash _ _ := inferInstanceAs (Decidable (_ = _))

/-- A row of `audit_logs`; the metadata that these calls give is a delivery. -/
structure AuditLog where
  merchantId : Uuid
  action : String
  resourceId : Uuid
  actorIp : Option String
  actorEmail : Option String
  deliveryId : Option Nat
  deriving DecidableEq

/-- The tables that the services read and write. `created_at` of webhooks and payment events
stands apart from their rows. -/
structure World where
  db : Db
  store : Store
  webhookCreatedAt : Uuid → Timestamp
  eventCreatedAt : Nat → Timestamp
  schedules : Table Schedule
  members : Table TeamMembers.Member
  auditLogs : List AuditLog

inductive Failure where
  | api (e : ApiError)
  | forbidden (message : String)
  deriving DecidableEq

abbrev Service (α : Type) := Statements World Failure α

/-- What a call takes from outside. -/
structure Env where
  now : Timestamp
  /-- The input of `timestamptz`. -/
  timestamptz : List Char → Option Int
  refunds : Refunds.RefundEnv
  /-- The answer of the network to a refund. -/
  sent : Option String
  /-- `gen_random_uuid()`. -/
  refundId : Uuid
  secrets : SecretEnv
  /-- `whsec_${randomBytes(32).toString('hex')}`. -/
  newSecret : String
  nextRunAt : Interval → Timestamp
  /-- The place of a row among those of one time, which `ORDER BY` leaves open. -/
  place : Nat → Nat
  place_injective : Function.Injective place
  /-- Does `audit_logs` take rows with these columns? -/
  auditable : Bool

section Calls

variable (env : Env) (merchantId : Uuid)

/-- `a` stands before `b` in `ORDER BY created_at DESC`. -/
def Newer {ρ : Type} (createdAt id : ρ → Nat) (a b : ρ) : Prop :=
  createdAt b < createdAt a ∨ (createdAt a = createdAt b ∧ env.place (id a) ≤ env.place (id b))

instance decidableNewer {ρ : Type} (createdAt id : ρ → Nat) :
    DecidableRel (Newer env createdAt id) :=
  fun _ _ => inferInstanceAs (Decidable (_ ∨ _ ∧ _))

/-- `ORDER BY created_at DESC`. -/
def newestFirst {ρ : Type} (createdAt id : ρ → Nat) (rows : List ρ) : List ρ :=
  rows.insertionSort (Newer env createdAt id)

/-- The first row, or else a `NotFoundException`. -/
def orNotFound {α : Type} (message : String) : Option α → Except Failure α
  | some row => .ok row
  | none => .error (.api (.notFound message))

/-! ## `InvoicesService` -/

/-- `get(merchantId, id)`: the invoice and its payment events. -/
def getInvoice (id : Uuid) : Service (Invoice × List (PaymentEvent × Timestamp)) := do
  let invoice ← query fun w => (Refunds.findInvoice w.db merchantId id).mapError .api
  let events ← query fun w => .ok <| newestFirst env Prod.snd (fun e => e.1.id) <|
    (w.db.paymentEvents.rows.filter fun e => e.invoiceId == some id).map fun e =>
      (e, w.eventCreatedAt e.id)
  return (invoice, events)

/-- `list(merchantId, query)`. -/
def listInvoices (input : Invoices.ListQuery) : Service Invoices.Page :=
  query fun w => (Invoices.list env.timestamptz w.db merchantId input).mapError .api

/-- `cancel(merchantId, id)`. -/
def cancelInvoice (id : Uuid) : Service Invoice := fun w =>
  let (result, db) := Invoices.cancel w.db merchantId id
  (result.mapError .api, { w with db })

/-- The `INSERT` of `refund`. -/
def insertRefund (r : Refund) : Service Refund := fun w =>
  let (result, db) := Refunds.insertRefund w.db r
  (result.mapError .api, { w with db })

/-- `refund(merchantId, id)`. -/
def refundInvoice (id : Uuid) : Service Refund := do
  let (invoice, _) ← getInvoice env merchantId id
  if invoice.status ≠ .paid then
    throw (.api (.badRequest "Only paid invoices can be refunded"))
  let existing ← query fun w => .ok (w.db.refunds.rows.any (Refunds.isActive id))
  if existing then throw (.api (.badRequest "Refund already initiated for this invoice"))
  let recipient ← query fun w => (Refunds.findRecipient w.db merchantId).mapError .api
  let txHash ← query fun _ =>
    (Refunds.submitSorobanRefund env.refunds recipient env.sent).mapError .api
  insertRefund (Refunds.refundRow env.refundId merchantId id invoice txHash)

/-! ## `WebhooksService` -/

/-- `id=$1 AND merchant_id=$2`. -/
def ownHook (id : Uuid) (h : Hook) : Bool := h.id == id && h.merchantId == merchantId

structure Actor where
  ip : Option String
  email : Option String
  deriving DecidableEq

/-- `AuditService.log` with resource type `'webhook'`. -/
def audit (action : String) (resourceId : Uuid) (actor : Actor) (deliveryId : Option Nat) :
    Service Unit := fun w =>
  if env.auditable then
    (.ok (), { w with
      auditLogs := w.auditLogs ++
        [⟨merchantId, action, resourceId, actor.ip, actor.email, deliveryId⟩] })
  else (.error (.api .database), w)

/-- `id, url, events, active, created_at, secret_rotated_at`. -/
structure HookView where
  id : Uuid
  url : String
  events : List String
  active : Bool
  createdAt : Timestamp
  secretRotatedAt : Option Timestamp
  deriving DecidableEq

/-- `list(merchantId)`. -/
def listWebhooks : Service (List HookView) :=
  query fun w => .ok <| newestFirst env HookView.createdAt HookView.id <|
    (w.store.webhooks.rows.filter fun h => h.merchantId == merchantId).map fun h =>
      ⟨h.id, h.url, h.events, h.active, w.webhookCreatedAt h.id, h.secretRotatedAt⟩

/-- An `UPDATE webhooks ... WHERE id=$1 AND merchant_id=$2 RETURNING`. -/
def updateHook (id : Uuid) (f : Hook → Hook) (hf : ∀ h, Keyed.key (f h) = Keyed.key h) :
    Service (Option Hook) := fun w =>
  (.ok ((w.store.webhooks.find? (ownHook merchantId id)).map f),
    { w with store := { w.store with
      webhooks := w.store.webhooks.modify (ownHook merchantId id) f hf } })

/-- `SET active=false`. -/
def Hook.deactivated (h : Hook) : Hook := { h with active := false }

theorem key_deactivated (h : Hook) : Keyed.key (Hook.deactivated h) = Keyed.key h := rfl

/-- `deactivate(merchantId, id, actorIp, actorEmail)`: `id` and `active`. -/
def deactivate (id : Uuid) (actor : Actor) : Service (Uuid × Bool) := do
  match ← updateHook merchantId id Hook.deactivated key_deactivated with
  | none => throw (.api (.notFound "Webhook not found"))
  | some hook =>
    audit env merchantId "webhook_deactivated" id actor none
    return (hook.id, hook.active)

theorem key_rotate (key : String) (now : Timestamp) (h : Hook) :
    Keyed.key (h.rotate key now) = Keyed.key h := rfl

/-- `rotateSecret(merchantId, id)`: `id`, `url`, `events`, `active`, `secret_rotated_at` and the
secret. -/
def rotateSecret (id : Uuid) :
    Service (Uuid × String × List String × Bool × Option Timestamp × String) := do
  let _ ← query fun w => orNotFound "Active webhook not found" <|
    w.store.webhooks.find? fun h => ownHook merchantId id h && h.active
  match ← updateHook merchantId id
      (Hook.rotate · (env.secrets.sha256 env.newSecret) env.now) (key_rotate _ _) with
  | none => throw (.api (.notFound "Webhook not found"))
  | some hook =>
    return (hook.id, hook.url, hook.events, hook.active, hook.secretRotatedAt, env.newSecret)

/-- The row of the webhook, or `Webhook not found`. -/
def findHook (id : Uuid) : Service Hook :=
  query fun w => orNotFound "Webhook not found" (w.store.webhooks.find? (ownHook merchantId id))

/-- The columns of `deliveries`: all but the payload. -/
structure DeliveryView where
  id : Nat
  webhookId : Uuid
  eventType : String
  status : DeliveryStatus
  attempts : Nat
  responseStatus : Option Nat
  deliveredAt : Option Timestamp
  nextRetryAt : Option Timestamp
  createdAt : Timestamp
  deriving DecidableEq

def Delivery.view (d : Delivery) : DeliveryView :=
  ⟨d.id, d.webhookId, d.eventType, d.status, d.attempts, d.responseStatus, d.deliveredAt,
    d.nextRetryAt, d.createdAt⟩

/-- `deliveries(merchantId, webhookId)`. -/
def deliveries (webhookId : Uuid) : Service (List DeliveryView) := do
  let _ ← findHook merchantId webhookId
  query fun w => .ok <|
    (newestFirst env Delivery.createdAt Delivery.id <|
      w.store.deliveries.rows.filter fun d => d.webhookId == webhookId).map Delivery.view

/-- `deliveryById(merchantId, webhookId, deliveryId)`. -/
def deliveryById (webhookId : Uuid) (deliveryId : Nat) : Service Delivery :=
  query fun w => orNotFound "Delivery not found" <| w.store.deliveries.find? fun d =>
    ownsHook w.store merchantId d.webhookId && d.webhookId == webhookId && d.id == deliveryId

/-- An `UPDATE webhook_deliveries ... RETURNING`. -/
def updateDelivery (p : Store → Delivery → Bool) (f : Delivery → Delivery)
    (hf : ∀ d, Keyed.key (f d) = Keyed.key d) : Service (Option Delivery) := fun w =>
  (.ok ((w.store.deliveries.find? (p w.store)).map f),
    { w with store := { w.store with
      deliveries := w.store.deliveries.modify (p w.store) f hf } })

/-- `retry(merchantId, deliveryId, actorIp, actorEmail)`. -/
def retry (deliveryId : Nat) (actor : Actor) : Service Delivery := do
  match ← updateDelivery (fun store => canRetry store merchantId deliveryId)
      (Delivery.retried env.now) (key_retried env.now) with
  | none => throw (.api (.notFound "Delivery not found or cannot be retried"))
  | some delivery =>
    audit env merchantId "webhook_retried" delivery.webhookId actor (some deliveryId)
    return delivery

/-- `id=$1 AND webhook_id=$2`. -/
def replays (webhookId : Uuid) (deliveryId : Nat) (d : Delivery) : Bool :=
  d.id == deliveryId && d.webhookId == webhookId

/-- `replay(merchantId, webhookId, deliveryId, actorIp, actorEmail)`. -/
def replay (webhookId : Uuid) (deliveryId : Nat) (actor : Actor) : Service Delivery := do
  let _ ← findHook merchantId webhookId
  match ← updateDelivery (fun _ => replays webhookId deliveryId)
      (Delivery.replayed env.now) (key_replayed env.now) with
  | none => throw (.api (.notFound "Delivery not found"))
  | some delivery =>
    audit env merchantId "webhook_replayed" webhookId actor (some deliveryId)
    return delivery

/-- `health(merchantId, webhookId)`: the statement names `created_at` without its table, and both
tables of the join have it, so that it is refused whatever they hold. -/
def health (_webhookId : Uuid) : Service Empty := throw (.api .database)

/-! ## `SchedulesService` -/

/-- `id=$1 AND merchant_id=$2`. -/
def ownSchedule (id : Uuid) (s : Schedule) : Bool := s.id == id && s.merchantId == merchantId

def listSchedules : Service (List Schedule) :=
  query fun w => .ok <| newestFirst env Schedule.createdAt Schedule.id <|
    w.schedules.rows.filter fun s => s.merchantId == merchantId

def getSchedule (id : Uuid) : Service Schedule :=
  query fun w => orNotFound "Schedule not found" (w.schedules.find? (ownSchedule merchantId id))

/-- What `updateSchema` makes of a body. -/
structure UpdateSchedule where
  recipient : Option String
  amountUsdc : Option String
  interval : Option Interval
  status : Option ScheduleStatus
  deriving DecidableEq

/-- The row that the `UPDATE` writes; `amount` is what the column makes of `amount_usdc`. -/
def Schedule.updated (dto : UpdateSchedule) (amount : Option Numeric) (interval : Interval)
    (s : Schedule) : Schedule :=
  { s with
    recipient := dto.recipient.getD s.recipient
    amountUsdc := amount.getD s.amountUsdc
    interval
    status := dto.status.getD s.status
    nextRunAt := if dto.interval.isSome then env.nextRunAt interval else s.nextRunAt
    updatedAt := env.now }

/-- An `UPDATE recurring_schedules ... WHERE id=$1 AND merchant_id=$2 RETURNING *`. -/
def updateRow (id : Uuid) (f : Schedule → Schedule) (hf : ∀ s, Keyed.key (f s) = Keyed.key s) :
    Service (Option Schedule) := fun w =>
  (.ok ((w.schedules.find? (ownSchedule merchantId id)).map f),
    { w with schedules := w.schedules.modify (ownSchedule merchantId id) f hf })

theorem key_updated (dto : UpdateSchedule) (amount : Option Numeric) (interval : Interval)
    (s : Schedule) : Keyed.key (Schedule.updated env dto amount interval s) = Keyed.key s := rfl

/-- `update(merchantId, id, input)`; `input` is `none` where `updateSchema` throws. -/
def updateSchedule (id : Uuid) (input : Option UpdateSchedule) : Service (Option Schedule) := do
  let current ← getSchedule merchantId id
  match input with
  | none => throw (.api .zodError)
  | some dto =>
    let interval := dto.interval.getD current.interval
    match dto.amountUsdc with
    | none =>
      updateRow merchantId id (Schedule.updated env dto none interval)
        (key_updated env dto none interval)
    | some text =>
      match Numeric.ofText? text with
      -- numeric field overflow
      | none => throw (.api .database)
      | some amount =>
        updateRow merchantId id (Schedule.updated env dto (some amount) interval)
          (key_updated env dto (some amount) interval)

/-- `SET status='cancelled', updated_at=NOW()`. -/
def Schedule.cancelled (s : Schedule) : Schedule :=
  { s with status := .cancelled, updatedAt := env.now }

theorem key_cancelled (s : Schedule) : Keyed.key (Schedule.cancelled env s) = Keyed.key s := rfl

def removeSchedule (id : Uuid) : Service Schedule := do
  match ← updateRow merchantId id (Schedule.cancelled env) (key_cancelled env) with
  | none => throw (.api (.notFound "Schedule not found"))
  | some schedule => return schedule

/-! ## `TeamMembersService` -/

/-- `id=$1 AND merchant_id=$2`. -/
def ownMember (id : Nat) (m : TeamMembers.Member) : Bool :=
  m.id == id && m.merchantId == merchantId

/-- `id, email, name, role, status, last_login_at, created_at`. -/
structure MemberView where
  id : Nat
  email : String
  name : String
  role : TeamMembers.Role
  status : TeamMembers.Status
  lastLoginAt : Option Nat
  createdAt : Nat
  deriving DecidableEq

def memberView (m : TeamMembers.Member) : MemberView :=
  ⟨m.id, m.email, m.name, m.role, m.status, m.lastLoginAt, m.createdAt⟩

def listMembers : Service (List MemberView) :=
  query fun w => .ok <|
    (newestFirst env TeamMembers.Member.createdAt TeamMembers.Member.id <|
      w.members.rows.filter fun m => m.merchantId == merchantId).map memberView

/-- `UPDATE team_members SET role=$2, updated_at=NOW() WHERE id=$1`. The column takes no
owner. -/
def setRole (memberId : Nat) (role : TeamMembers.Role) : Service Unit := fun w =>
  if role = .owner then (.error (.api .database), w)
  else
    (.ok (), { w with
      members := w.members.modify (fun m => m.id == memberId)
        (TeamMembers.Member.setRole role env.now) fun _ => rfl })

/-- `updateRole(merchantId, memberId, requesterRole, dto)`. -/
def updateRole (memberId : Nat) (requesterRole role : TeamMembers.Role) :
    Service (Nat × TeamMembers.Role) := do
  if requesterRole.restricted then throw (.forbidden "Only owners and admins can change roles")
  let _ ← query fun w => orNotFound "Team member not found" <|
    w.members.find? (ownMember merchantId memberId)
  setRole env memberId role
  return (memberId, role)

/-- Was there a row for the statement? -/
def suspendRow (memberId : Nat) : Service Bool := fun w =>
  (.ok (w.members.find? (ownMember merchantId memberId)).isSome, { w with
    members := w.members.modify (ownMember merchantId memberId)
      (TeamMembers.Member.suspend env.now) fun _ => rfl })

/-- `suspend(merchantId, memberId, requesterRole)`. -/
def suspend (memberId : Nat) (requesterRole : TeamMembers.Role) : Service Nat := do
  if requesterRole.restricted then throw (.forbidden "Only owners and admins can suspend members")
  if ← suspendRow env merchantId memberId then return memberId
  else throw (.api (.notFound "Team member not found"))

def deleteRow (memberId : Nat) : Service Bool := fun w =>
  (.ok (w.members.find? (ownMember merchantId memberId)).isSome, { w with
    members := w.members.delete (ownMember merchantId memberId) })

/-- `remove(merchantId, memberId, requesterRole)`. -/
def removeMember (memberId : Nat) (requesterRole : TeamMembers.Role) : Service Nat := do
  if requesterRole ≠ .owner then throw (.forbidden "Only owners can remove team members")
  if ← deleteRow merchantId memberId then return memberId
  else throw (.api (.notFound "Team member not found"))

end Calls

/-! ## Calls -/

inductive Call where
  | getInvoice (id : Uuid)
  | listInvoices (input : Invoices.ListQuery)
  | cancelInvoice (id : Uuid)
  | refundInvoice (id : Uuid)
  | listWebhooks
  | deactivate (id : Uuid) (actor : Actor)
  | rotateSecret (id : Uuid)
  | deliveries (webhookId : Uuid)
  | deliveryById (webhookId : Uuid) (deliveryId : Nat)
  | retry (deliveryId : Nat) (actor : Actor)
  | replay (webhookId : Uuid) (deliveryId : Nat) (actor : Actor)
  | health (webhookId : Uuid)
  | listSchedules
  | getSchedule (id : Uuid)
  | updateSchedule (id : Uuid) (input : Option UpdateSchedule)
  | removeSchedule (id : Uuid)
  | listMembers
  | updateRole (memberId : Nat) (requesterRole role : TeamMembers.Role)
  | suspend (memberId : Nat) (requesterRole : TeamMembers.Role)
  | removeMember (memberId : Nat) (requesterRole : TeamMembers.Role)

/-- What a call returns. -/
inductive Answer where
  | invoice (invoice : Invoice)
  | invoiceWithEvents (invoice : Invoice) (events : List (PaymentEvent × Timestamp))
  | page (page : Invoices.Page)
  | refund (refund : Refund)
  | webhooks (rows : List HookView)
  | deactivated (id : Uuid) (active : Bool)
  | rotated (id : Uuid) (url : String) (events : List String) (active : Bool)
      (secretRotatedAt : Option Timestamp) (secret : String)
  | deliveries (rows : List DeliveryView)
  | delivery (row : Delivery)
  | schedules (rows : List Schedule)
  | schedule (row : Option Schedule)
  | members (rows : List MemberView)
  | roleUpdated (id : Nat) (role : TeamMembers.Role)
  /-- `{ id, status: 'suspended' }`. -/
  | suspended (id : Nat)
  /-- `{ id, removed: true }`. -/
  | removed (id : Nat)
  deriving DecidableEq

def Call.run (env : Env) (merchantId : Uuid) : Call → Service Answer
  | .getInvoice id => do
    let (invoice, events) ← Tenants.getInvoice env merchantId id
    return .invoiceWithEvents invoice events
  | .listInvoices input => return .page (← Tenants.listInvoices env merchantId input)
  | .cancelInvoice id => return .invoice (← Tenants.cancelInvoice merchantId id)
  | .refundInvoice id => return .refund (← Tenants.refundInvoice env merchantId id)
  | .listWebhooks => return .webhooks (← Tenants.listWebhooks env merchantId)
  | .deactivate id actor => do
    let (id, active) ← Tenants.deactivate env merchantId id actor
    return .deactivated id active
  | .rotateSecret id => do
    let (id, url, events, active, rotatedAt, secret) ← Tenants.rotateSecret env merchantId id
    return .rotated id url events active rotatedAt secret
  | .deliveries webhookId => return .deliveries (← Tenants.deliveries env merchantId webhookId)
  | .deliveryById webhookId deliveryId =>
    return .delivery (← Tenants.deliveryById merchantId webhookId deliveryId)
  | .retry deliveryId actor => return .delivery (← Tenants.retry env merchantId deliveryId actor)
  | .replay webhookId deliveryId actor =>
    return .delivery (← Tenants.replay env merchantId webhookId deliveryId actor)
  | .health webhookId => return (← Tenants.health webhookId).elim
  | .listSchedules => return .schedules (← Tenants.listSchedules env merchantId)
  | .getSchedule id => return .schedule (some (← Tenants.getSchedule merchantId id))
  | .updateSchedule id input => return .schedule (← Tenants.updateSchedule env merchantId id input)
  | .removeSchedule id => return .schedule (some (← Tenants.removeSchedule env merchantId id))
  | .listMembers => return .members (← Tenants.listMembers env merchantId)
  | .updateRole memberId requesterRole role => do
    let (id, role) ← Tenants.updateRole env merchantId memberId requesterRole role
    return .roleUpdated id role
  | .suspend memberId requesterRole =>
    return .suspended (← Tenants.suspend env merchantId memberId requesterRole)
  | .removeMember memberId requesterRole =>
    return .removed (← Tenants.removeMember merchantId memberId requesterRole)

/-- The id that `gen_random_uuid()` gives is one that no refund has. -/
def Fresh (env : Env) (w : World) : Prop := ∀ r ∈ w.db.refunds.rows, r.id ≠ env.refundId

instance decidableFresh (env : Env) (w : World) : Decidable (Fresh env w) :=
  inferInstanceAs (Decidable (∀ r ∈ w.db.refunds.rows, _))

/-- Calls of one merchant, one after the other. -/
def serving (merchantId : Uuid) : Lts World (Env × Call) where
  step w a := if Fresh a.1 w then some (a.2.run a.1 merchantId w).2 else none

/-- The result of a call, or its error. -/
def answer (merchantId : Uuid) (w : World) (a : Env × Call) : List (Except Failure Answer) :=
  [(a.2.run a.1 merchantId w).1]

end Stargate.Tenants
