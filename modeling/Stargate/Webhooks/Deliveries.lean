import Stargate.Schema

/-!
# `WebhookDeliveryWorker` and the delivery endpoints of `WebhooksService`

A tick of the worker selects up to fifty deliveries that are due, with the columns of their
webhooks, and then posts them one after the other. What it writes back is computed from
what it has selected.

- `Delivery`, `Hook`: the rows;
- `deliver`: the request of a delivery;
- `record`, `recordError`: the two `UPDATE`s of `deliver`;
- `retry`, `replay`: the endpoints.
-/

namespace Stargate.Webhooks

open Base

/-! ## Rows -/

inductive DeliveryStatus where
  | pending | delivered | failed | dead
  deriving DecidableEq, Repr

/-- A row of `webhooks`. -/
structure Hook extends Webhook where
  url : String
  hashedSecret : String
  previousHashedSecret : Option String
  secretRotatedAt : Option Timestamp
  deriving DecidableEq

/-- A row of `webhook_deliveries`; the payload is its JSON text. -/
structure Delivery where
  id : Nat
  webhookId : Uuid
  eventType : String
  payload : String
  status : DeliveryStatus
  attempts : Nat
  nextRetryAt : Option Timestamp
  responseStatus : Option Nat
  deliveredAt : Option Timestamp
  createdAt : Timestamp
  deriving DecidableEq

instance keyedHook : Keyed Hook where
  Key := Uuid
  key h := h.id
  Clash a b := a = b
  clash_symm := Eq.symm
  decClash _ _ := inferInstanceAs (Decidable (_ = _))

instance keyedDelivery : Keyed Delivery where
  Key := Nat
  key := Delivery.id
  Clash a b := a = b
  clash_symm := Eq.symm
  decClash _ _ := inferInstanceAs (Decidable (_ = _))

instance serialDelivery : Serial Delivery := ⟨Delivery.id⟩

/-- The two tables. -/
structure Store where
  webhooks : Table Hook := .empty
  deliveries : Table Delivery := .empty
  deriving DecidableEq

/-! ## Requests -/

/-- What the worker takes from outside: the hex digest of HMAC-SHA256, of a key and a text. -/
structure WorkerEnv where
  hmacSha256 : String → String → String

/-- `sign(secret, rawBody)`. -/
def sign (env : WorkerEnv) (secret rawBody : String) : String :=
  "sha256=" ++ env.hmacSha256 secret rawBody

/-- `24 * 60 * 60 * 1000` milliseconds, in the unit of `Timestamp`. -/
def gracePeriod : Nat := 86400000000

/-- The key that a rotation replaced, while it still counts. -/
def previousKey (now : Timestamp) (h : Hook) : Option String := do
  let previous ← h.previousHashedSecret
  let rotatedAt ← h.secretRotatedAt
  if previous ≠ "" ∧ now < rotatedAt + gracePeriod then some previous else none

/-- The `POST` of a delivery: its signature headers, its event and its body. -/
structure Request where
  url : String
  signature : String
  signaturePrev : Option String
  event : String
  body : String
  deriving DecidableEq

/-- The request that `deliver` sends for a selected row. -/
def request (env : WorkerEnv) (now : Timestamp) (d : Delivery) (h : Hook) : Request where
  url := h.url
  signature := sign env h.hashedSecret d.payload
  signaturePrev := (previousKey now h).map fun key => sign env key d.payload
  event := d.eventType
  body := d.payload

/-! ## The worker -/

/-- A selected row: a delivery and its webhook. -/
abbrev Selected := Delivery × Hook

/-- `w.active=true AND d.status='pending' AND (d.next_retry_at IS NULL OR
d.next_retry_at <= NOW())`, joined with `webhooks`. -/
def select? (store : Store) (now : Timestamp) (d : Delivery) : Option Selected :=
  if d.status = .pending ∧ d.nextRetryAt.all (· ≤ now) then
    (store.webhooks.find? fun h => h.id == d.webhookId && h.active).map fun h => (d, h)
  else none

def due (store : Store) (now : Timestamp) : List Selected :=
  store.deliveries.rows.filterMap (select? store now)

/-- `ORDER BY d.created_at LIMIT 50`. The order of rows of one time is given from outside;
`none` where the query cannot have it. -/
def selectPending (store : Store) (now : Timestamp) (order : List Selected) :
    Option (List Selected) :=
  if order.Perm (due store now) ∧ order.Pairwise fun a b => a.1.createdAt ≤ b.1.createdAt then
    some (order.take 50)
  else none

/-- `BACKOFF_MINUTES`. -/
def backoffMinutes : List Nat := [0, 1, 5, 30, 120]

/-- `nextRetry(attempts)`; `jitter` are the random milliseconds. -/
def nextRetry (now : Timestamp) (attempts jitter : Nat) : Timestamp :=
  now + backoffMinutes.getD (min attempts (backoffMinutes.length - 1)) 0 * 60000000
    + jitter * 1000

/-- `response.ok`. -/
def isOk (code : Nat) : Bool := 200 ≤ code && code ≤ 299

/-- The row after a response: the status and the attempts of what was selected. -/
def Delivery.answered (d : Delivery) (code : Nat) (now : Timestamp) (jitter : Nat)
    (r : Delivery) : Delivery :=
  let attempts := d.attempts + 1
  let succeeded := isOk code
  let dead := !succeeded && 5 ≤ attempts
  { r with
    status := if succeeded then .delivered else if dead then .dead else .pending
    attempts
    responseStatus := some code
    deliveredAt := if succeeded then some now else none
    nextRetryAt := if succeeded || dead then none else some (nextRetry now attempts jitter) }

/-- The row after an exception. -/
def Delivery.failedOn (d : Delivery) (now : Timestamp) (jitter : Nat) (r : Delivery) :
    Delivery :=
  let attempts := d.attempts + 1
  let dead : Bool := 5 ≤ attempts
  { r with
    status := if dead then .dead else .pending
    attempts
    nextRetryAt := if dead then none else some (nextRetry now attempts jitter) }

/-- `UPDATE webhook_deliveries ... WHERE id=$1`. -/
def Store.update (store : Store) (id : Nat) (f : Delivery → Delivery)
    (hf : ∀ r, Keyed.key (f r) = Keyed.key r) : Store :=
  { store with deliveries := store.deliveries.modify (fun r => r.id == id) f hf }

theorem key_answered (d : Delivery) (code : Nat) (now : Timestamp) (jitter : Nat)
    (r : Delivery) : Keyed.key (d.answered code now jitter r) = Keyed.key r := rfl

theorem key_failedOn (d : Delivery) (now : Timestamp) (jitter : Nat) (r : Delivery) :
    Keyed.key (d.failedOn now jitter r) = Keyed.key r := rfl

/-- Another delivery is left alone. -/
theorem mem_update_of_ne {store : Store} {id : Nat} {f : Delivery → Delivery}
    (hf : ∀ r, Keyed.key (f r) = Keyed.key r) {r : Delivery} (hr : r ∈ store.deliveries)
    (hne : r.id ≠ id) : r ∈ (store.update id f hf).deliveries :=
  (Table.mem_modify hf).mpr ⟨r, hr, if_neg fun heq => hne (beq_iff_eq.mp heq)⟩

/-- The `UPDATE` after a response. -/
def record (store : Store) (d : Delivery) (code : Nat) (now : Timestamp) (jitter : Nat) :
    Store :=
  store.update d.id (d.answered code now jitter) (key_answered d code now jitter)

/-- The `UPDATE` in the `catch`. -/
def recordError (store : Store) (d : Delivery) (now : Timestamp) (jitter : Nat) : Store :=
  store.update d.id (d.failedOn now jitter) (key_failedOn d now jitter)

/-! ## The endpoints -/

/-- An `INSERT` by `dispatchEvent` or by one of the other writers of events. -/
def newDelivery (webhookId : Uuid) (eventType payload : String) (now : Timestamp) (id : Nat) :
    Delivery where
  id
  webhookId
  eventType
  payload
  status := .pending
  attempts := 0
  nextRetryAt := none
  responseStatus := none
  deliveredAt := none
  createdAt := now

theorem serial_newDelivery (webhookId : Uuid) (eventType payload : String) (now : Timestamp)
    (r : Delivery) (n : Nat)
    (h : Keyed.Conflict r (newDelivery webhookId eventType payload now n)) : Serial.id r = n := h

def insertDelivery (store : Store) (webhookId : Uuid) (eventType payload : String)
    (now : Timestamp) : Store :=
  { store with
    deliveries := store.deliveries.append (newDelivery webhookId eventType payload now)
      (serial_newDelivery webhookId eventType payload now) }

theorem mem_insertDelivery {store : Store} {webhookId : Uuid} {eventType payload : String}
    {now : Timestamp} {r : Delivery} :
    r ∈ (insertDelivery store webhookId eventType payload now).deliveries ↔
      r ∈ store.deliveries ∨
        r = newDelivery webhookId eventType payload now store.deliveries.nextId :=
  Table.mem_append (serial_newDelivery webhookId eventType payload now)

/-- `SET status='pending', next_retry_at=NOW(), attempts=0`. -/
def Delivery.retried (now : Timestamp) (r : Delivery) : Delivery :=
  { r with status := .pending, nextRetryAt := some now, attempts := 0 }

theorem key_retried (now : Timestamp) (r : Delivery) :
    Keyed.key (r.retried now) = Keyed.key r := rfl

/-- `SET status='pending', attempts=0, response_status=NULL, delivered_at=NULL,
next_retry_at=NOW()`. -/
def Delivery.replayed (now : Timestamp) (r : Delivery) : Delivery :=
  { r with
    status := .pending
    attempts := 0
    responseStatus := none
    deliveredAt := none
    nextRetryAt := some now }

theorem key_replayed (now : Timestamp) (r : Delivery) :
    Keyed.key (r.replayed now) = Keyed.key r := rfl

/-- The webhook is one of the merchant. -/
def ownsHook (store : Store) (merchantId webhookId : Uuid) : Bool :=
  store.webhooks.rows.any fun h => h.id == webhookId && h.merchantId == merchantId

/-- `retry(merchantId, deliveryId)`: the rows of its `UPDATE`. -/
def canRetry (store : Store) (merchantId : Uuid) (deliveryId : Nat) (r : Delivery) : Bool :=
  ownsHook store merchantId r.webhookId && r.id == deliveryId
    && (r.status == .failed || r.status == .dead)

def retry (store : Store) (merchantId : Uuid) (deliveryId : Nat) (now : Timestamp) : Store :=
  { store with
    deliveries := store.deliveries.modify (canRetry store merchantId deliveryId)
      (Delivery.retried now) (key_retried now) }

/-- `replay(merchantId, webhookId, deliveryId)`: the rows of its `UPDATE`. -/
def canReplay (store : Store) (merchantId webhookId : Uuid) (deliveryId : Nat) (r : Delivery) :
    Bool :=
  ownsHook store merchantId webhookId && r.id == deliveryId && r.webhookId == webhookId

def replay (store : Store) (merchantId webhookId : Uuid) (deliveryId : Nat) (now : Timestamp) :
    Store :=
  { store with
    deliveries := store.deliveries.modify (canReplay store merchantId webhookId deliveryId)
      (Delivery.replayed now) (key_replayed now) }

/-! ## What they leave alone -/

section

variable {store : Store} {now : Timestamp} {order rows : List Selected} {d : Delivery} {h : Hook}

theorem select?_eq_some {x : Selected} (hsome : select? store now d = some x) :
    x.1 = d ∧ d.status = .pending := by
  unfold select? at hsome
  split at hsome
  · next hdue =>
    obtain ⟨h, -, rfl⟩ := Option.map_eq_some_iff.mp hsome
    exact ⟨rfl, hdue.1⟩
  · cases hsome

/-- A selected row is a pending delivery, as it is stored. -/
theorem mem_selectPending (hselect : selectPending store now order = some rows)
    (hmem : (d, h) ∈ rows) : d ∈ store.deliveries ∧ d.status = .pending := by
  unfold selectPending at hselect
  split at hselect
  · next hok =>
    cases hselect
    obtain ⟨d', hd', hsome⟩ :=
      List.mem_filterMap.mp (hok.1.mem_iff.mp (List.mem_of_mem_take hmem))
    obtain ⟨rfl, hpending⟩ := select?_eq_some hsome
    exact ⟨hd', hpending⟩
  · cases hselect

/-- No delivery is selected twice. -/
theorem nodup_selectPending (hselect : selectPending store now order = some rows) :
    (rows.map fun x => x.1.id).Nodup := by
  unfold selectPending at hselect
  split at hselect
  · next hok =>
    cases hselect
    have hdue : ((due store now).map fun x => x.1.id).Nodup := by
      refine List.pairwise_map.mpr (List.Pairwise.filterMap _ ?_ store.deliveries.unique)
      intro a b hab x hx y hy hid
      rw [(select?_eq_some hx).1, (select?_eq_some hy).1] at hid
      exact hab hid
    have horder : (order.map fun x => x.1.id).Nodup :=
      (hok.1.map _).nodup_iff.mpr hdue
    exact horder.sublist ((List.take_sublist _ _).map _)
  · cases hselect

end

end Stargate.Webhooks
