import Stargate.Audit.Schema
import Stargate.Base.Statements
import Stargate.Schema

/-!
# Audits of credential changes (`AuditService`, `WebhooksService`, `ApiKeysService`)

A statement of these services is committed on its own, and the audit entry is written after it.
On the schema that the migrations leave, `AuditService.log` names a column that `audit_logs` does
not have.

- `Service`: statements, errors, and the tables that stay behind with an error;
- `Call.run`: the calls;
- `Audited`: a call that changes a row leaves one audit entry, and does not fail for it;
- `log_schema`: an entry is never written;
- `audited_iff`: so a call is audited where it has nothing to change.
-/

namespace Stargate.Audit

open Base Base.Sql

/-! ## Statements of a service -/

abbrev Tables := String → List Row

inductive Failure where
  | sql (e : Error)
  /-- The schema of the request body rejects it. -/
  | invalid
  | notFound (message : String)
  deriving DecidableEq

/-- Statements on the tables. What is written before an error stays. -/
abbrev Service (α : Type) := Statements Tables Failure α

variable (catalog : Catalog)

/-- `INSERT`. -/
def insertInto (table : String) (generated : Row) (values : List (String × Value)) :
    Service Row := fun tables =>
  match Sql.insert catalog (tables table) table generated values with
  | .error e => (.error (.sql e), tables)
  | .ok row => (.ok row, Function.update tables table (tables table ++ [row]))

/-- `UPDATE ... RETURNING`. -/
def updateWhere (table : String) (u : Update) : Service (List Row) := fun tables =>
  match Sql.update catalog (tables table) table u with
  | .error e => (.error (.sql e), tables)
  | .ok (rows, written) => (.ok written, Function.update tables table rows)

/-- `SELECT`. -/
def selectFrom (table : String) (p : Row → Bool) : Service (List Row) := fun tables =>
  (.ok ((tables table).filter p), tables)

/-- The columns that a statement returns. -/
def Row.project (row : Row) (names : List String) : List (String × Value) :=
  names.map fun name => (name, row name)

/-! ## `AuditService` -/

/-- The union type `AuditAction`, and the action of `replay`, which it does not have. -/
inductive AuditAction where
  | apiKeyCreated | apiKeyRotated | apiKeyDeactivated
  | webhookCreated | webhookRotated | webhookDeactivated | webhookRetried
  | webhookReplayed
  deriving DecidableEq

def AuditAction.code : AuditAction → String
  | .apiKeyCreated => "api_key_created"
  | .apiKeyRotated => "api_key_rotated"
  | .apiKeyDeactivated => "api_key_deactivated"
  | .webhookCreated => "webhook_created"
  | .webhookRotated => "webhook_rotated"
  | .webhookDeactivated => "webhook_deactivated"
  | .webhookRetried => "webhook_retried"
  | .webhookReplayed => "webhook_replayed"

inductive ResourceType where
  | apiKey | webhook
  deriving DecidableEq

def ResourceType.code : ResourceType → String
  | .apiKey => "api_key"
  | .webhook => "webhook"

/-- `actorIp`, `actorEmail`. -/
structure Actor where
  ip : Option String
  email : Option String

/-- What a call takes from outside. -/
structure Env where
  now : Timestamp
  /-- The id of a new row. -/
  newId : Nat
  /-- `randomBytes(32).toString('hex')`. -/
  random : String
  /-- SHA-256, as hex digits. -/
  sha256 : String → String
  isUrl : String → Bool
  /-- `JSON.stringify` -/
  stringify : List (String × Value) → String

/-- `gen_random_uuid()`, `NOW()`. -/
def Env.generated (env : Env) : Row := fun name =>
  if name = "id" then .uuid env.newId else .int env.now

def textOrNull : Option String → Value
  | some s => .text s
  | none => .null

/-- `log(merchantId, action, resourceType, resourceId, options)`. -/
def log (env : Env) (merchantId : Uuid) (action : AuditAction) (resourceType : ResourceType)
    (resourceId : Value) (actor : Actor) (metadata : Option (List (String × Value))) :
    Service Unit := do
  let _ ← insertInto catalog "audit_logs" env.generated
    [("merchant_id", .uuid merchantId), ("action", .text action.code),
      ("resource_type", .text resourceType.code), ("resource_id", resourceId),
      ("actor_ip", textOrNull actor.ip), ("actor_email", textOrNull actor.email),
      ("metadata", textOrNull (metadata.map env.stringify))]

/-! ## `WebhooksService` -/

def webhookEventTypes : List String :=
  ["invoice.paid", "invoice.expired", "invoice.cancelled", "settlement.completed",
    "merchant.kyc.approved", "merchant.kyc.rejected"]

structure CreateWebhook where
  url : String
  events : List String

/-- `createWebhookSchema`. -/
def CreateWebhook.valid (env : Env) (input : CreateWebhook) : Bool :=
  env.isUrl input.url && "https://".toList.isPrefixOf input.url.toList &&
    !input.events.isEmpty && input.events.all (webhookEventTypes.contains ·)

def createWebhook (env : Env) (merchantId : Uuid) (input : CreateWebhook) (actor : Actor) :
    Service (List (String × Value)) := do
  if !input.valid env then throw .invalid
  let secret := "whsec_" ++ env.random
  let webhook ← insertInto catalog "webhooks" env.generated
    [("merchant_id", .uuid merchantId), ("url", .text input.url), ("events", .texts input.events),
      ("secret", .text secret)]
  log catalog env merchantId .webhookCreated .webhook (webhook "id") actor
    (some [("url", webhook "url"), ("events", webhook "events")])
  return Row.project webhook ["id", "url", "events", "active", "created_at"] ++
    [("secret", .text secret)]

/-- `id=$1 AND merchant_id=$2`. -/
def owned (merchantId : Uuid) (id : Nat) (row : Row) : Bool :=
  row "id" == .uuid id && row "merchant_id" == .uuid merchantId

def deactivation (merchantId : Uuid) (id : Nat) : Update where
  names := ["id", "merchant_id"]
  selects := owned merchantId id
  set := [("active", fun _ => .bool false)]

def deactivate (env : Env) (merchantId : Uuid) (id : Nat) (actor : Actor) :
    Service (List (String × Value)) := do
  match ← updateWhere catalog "webhooks" (deactivation merchantId id) with
  | [] => throw (.notFound "Webhook not found")
  | webhook :: _ =>
    log catalog env merchantId .webhookDeactivated .webhook (.uuid id) actor none
    return Row.project webhook ["id", "active"]

def rotation (env : Env) (merchantId : Uuid) (id : Nat) : Update where
  names := ["id", "merchant_id"]
  selects := owned merchantId id
  set :=
    [("previous_hashed_secret", fun row => row "hashed_secret"),
      ("hashed_secret", fun _ => .text (env.sha256 ("whsec_" ++ env.random))),
      ("secret_rotated_at", fun _ => .int env.now)]

/-- `rotateSecret(merchantId, id)`: no audit entry. -/
def rotateSecret (env : Env) (merchantId : Uuid) (id : Nat) :
    Service (List (String × Value)) := do
  let existing ← selectFrom "webhooks" fun row =>
    owned merchantId id row && row "active" == .bool true
  if existing.isEmpty then throw (.notFound "Active webhook not found")
  match ← updateWhere catalog "webhooks" (rotation env merchantId id) with
  | [] => throw (.notFound "Webhook not found")
  | webhook :: _ =>
    return Row.project webhook ["id", "url", "events", "active", "secret_rotated_at"] ++
      [("secret", .text ("whsec_" ++ env.random))]

/-- `d.webhook_id=w.id AND w.merchant_id=$1 AND d.id=$2 AND d.status IN ('failed','dead')`. -/
def retriable (webhooks : List Row) (merchantId : Uuid) (deliveryId : Nat) (row : Row) : Bool :=
  (webhooks.any fun webhook =>
    row "webhook_id" == webhook "id" && webhook "merchant_id" == .uuid merchantId) &&
    row "id" == .int deliveryId && (row "status" == .text "failed" || row "status" == .text "dead")

def retryUpdate (env : Env) (webhooks : List Row) (merchantId : Uuid) (deliveryId : Nat) :
    Update where
  names := ["webhook_id", "id", "status"]
  selects := retriable webhooks merchantId deliveryId
  set :=
    [("status", fun _ => .text "pending"), ("next_retry_at", fun _ => .int env.now),
      ("attempts", fun _ => .int 0)]

def retry (env : Env) (merchantId : Uuid) (deliveryId : Nat) (actor : Actor) :
    Service (List (String × Value)) := do
  let webhooks ← selectFrom "webhooks" fun _ => true
  match ← updateWhere catalog "webhook_deliveries"
      (retryUpdate env webhooks merchantId deliveryId) with
  | [] => throw (.notFound "Delivery not found or cannot be retried")
  | delivery :: _ =>
    log catalog env merchantId .webhookRetried .webhook (delivery "webhook_id") actor
      (some [("deliveryId", .int deliveryId)])
    return Row.project delivery (webhookDeliveries005.map Column.name)

/-- `id=$1 AND webhook_id=$2`. -/
def replayUpdate (env : Env) (webhookId deliveryId : Nat) : Update where
  names := ["id", "webhook_id"]
  selects row := row "id" == .int deliveryId && row "webhook_id" == .uuid webhookId
  set :=
    [("status", fun _ => .text "pending"), ("attempts", fun _ => .int 0),
      ("response_status", fun _ => .null), ("delivered_at", fun _ => .null),
      ("next_retry_at", fun _ => .int env.now)]

def replay (env : Env) (merchantId : Uuid) (webhookId deliveryId : Nat) (actor : Actor) :
    Service (List (String × Value)) := do
  let webhook ← selectFrom "webhooks" (owned merchantId webhookId)
  if webhook.isEmpty then throw (.notFound "Webhook not found")
  match ← updateWhere catalog "webhook_deliveries" (replayUpdate env webhookId deliveryId) with
  | [] => throw (.notFound "Delivery not found")
  | delivery :: _ =>
    log catalog env merchantId .webhookReplayed .webhook (.uuid webhookId) actor
      (some [("deliveryId", .int deliveryId)])
    return Row.project delivery (webhookDeliveries005.map Column.name)

/-! ## `ApiKeysService` -/

structure CreateApiKey where
  name : String
  scope : String
  expiresAt : Option Timestamp
  allowedIps : Option (List String)

/-- `createApiKeySchema`. -/
def CreateApiKey.valid (input : CreateApiKey) : Bool :=
  let length := (utf16 input.name).length
  decide (1 ≤ length ∧ length ≤ 100) &&
    ["read_only", "webhooks", "full_access"].contains input.scope &&
    (input.allowedIps.getD []).all fun ip => !ip.isEmpty

/-- The raw key. -/
def Env.key (env : Env) : String := "sk_" ++ env.random

def CreateApiKey.values (env : Env) (merchantId : Uuid) (input : CreateApiKey) :
    List (String × Value) :=
  [("merchant_id", .uuid merchantId), ("name", .text input.name),
    ("key_hash", .text (env.sha256 env.key)),
    ("key_prefix", .text (String.ofList (env.key.toList.take 10))), ("scope", .text input.scope),
    ("expires_at", (input.expiresAt.map Value.int).getD .null),
    ("allowed_ips", (input.allowedIps.map Value.texts).getD .null)]

/-- `create(merchantId, input)`: no audit entry. -/
def createApiKey (env : Env) (merchantId : Uuid) (input : CreateApiKey) :
    Service (List (String × Value)) := do
  if !input.valid then throw .invalid
  let row ← insertInto catalog "api_keys" env.generated (input.values env merchantId)
  return Row.project row
    ["id", "name", "key_prefix", "scope", "expires_at", "allowed_ips", "created_at"] ++
    [("key", .text env.key)]

def revocation (env : Env) (merchantId : Uuid) (id : Nat) : Update where
  names := ["id", "merchant_id", "revoked_at"]
  selects row := owned merchantId id row && row "revoked_at" == .null
  set := [("revoked_at", fun _ => .int env.now)]

/-- `revoke(merchantId, id)`: no audit entry; `null` where there is no such key. -/
def revoke (env : Env) (merchantId : Uuid) (id : Nat) : Service (List (String × Value)) := do
  match ← updateWhere catalog "api_keys" (revocation env merchantId id) with
  | [] => return []
  | key :: _ => return Row.project key ["id", "revoked_at"]

/-! ## Calls -/

inductive Call where
  | createWebhook (input : CreateWebhook) (actor : Actor)
  | deactivate (id : Nat) (actor : Actor)
  | rotateSecret (id : Nat)
  | retry (deliveryId : Nat) (actor : Actor)
  | replay (webhookId deliveryId : Nat) (actor : Actor)
  | createApiKey (input : CreateApiKey)
  | revoke (id : Nat)

/-- A call, by its merchant, and what it takes from outside. -/
structure Request where
  env : Env
  merchantId : Uuid
  call : Call

def Request.run (r : Request) : Service (List (String × Value)) :=
  match r.call with
  | .createWebhook input actor => createWebhook catalog r.env r.merchantId input actor
  | .deactivate id actor => deactivate catalog r.env r.merchantId id actor
  | .rotateSecret id => rotateSecret catalog r.env r.merchantId id
  | .retry deliveryId actor => retry catalog r.env r.merchantId deliveryId actor
  | .replay webhookId deliveryId actor =>
    replay catalog r.env r.merchantId webhookId deliveryId actor
  | .createApiKey input => createApiKey catalog r.env r.merchantId input
  | .revoke id => revoke catalog r.env r.merchantId id

/-- Calls one after the other. -/
def calls : Lts Tables Request where
  step tables r := some (r.run catalog tables).2

/-! ## What an audit is -/

def credentialTables : List String := ["webhooks", "webhook_deliveries", "api_keys"]

/-- The call changes a row. -/
def Request.Changes (tables : Tables) (r : Request) : Prop :=
  ∃ table ∈ credentialTables, (r.run catalog tables).2 table ≠ tables table

def Call.action : Call → AuditAction
  | .createWebhook _ _ => .webhookCreated
  | .deactivate _ _ => .webhookDeactivated
  | .rotateSecret _ => .webhookRotated
  | .retry _ _ => .webhookRetried
  | .replay _ _ _ => .webhookReplayed
  | .createApiKey _ => .apiKeyCreated
  | .revoke _ => .apiKeyDeactivated

def Call.resourceType : Call → ResourceType
  | .createApiKey _ | .revoke _ => .apiKey
  | _ => .webhook

/-- The webhook or the key that the call is about; a retry is about that of its delivery. -/
def Request.resourceId (tables : Tables) (r : Request) : Value :=
  match r.call with
  | .createWebhook _ _ | .createApiKey _ => .uuid r.env.newId
  | .deactivate id _ | .rotateSecret id | .replay id _ _ | .revoke id => .uuid id
  | .retry deliveryId _ =>
    match (tables "webhook_deliveries").find? fun row => row "id" == .int deliveryId with
    | some delivery => delivery "webhook_id"
    | none => .null

/-- An entry for the call. -/
structure Request.Entry (tables : Tables) (r : Request) (entry : Row) : Prop where
  merchant : entry "merchant_id" = .uuid r.merchantId
  action : entry "action" = .text r.call.action.code
  resourceType : entry "resource_type" = .text r.call.resourceType.code
  resourceId : entry "resource_id" = r.resourceId tables

/-- If the call changes a row, it leaves one entry more, and no statement of it is rejected. -/
def Audited (tables : Tables) (r : Request) : Prop :=
  r.Changes catalog tables →
    (∃ entry, r.Entry tables entry ∧
      (r.run catalog tables).2 "audit_logs" = tables "audit_logs" ++ [entry]) ∧
    ∀ e, (r.run catalog tables).1 ≠ .error (.sql e)

/-- The call has nothing to change. -/
def Idle (tables : Tables) (r : Request) : Prop :=
  match r.call with
  -- its `INSERT` names a column that is dropped
  | .createWebhook _ _ => True
  | .deactivate id _ =>
    ∀ row ∈ tables "webhooks", owned r.merchantId id row = true → row "active" = .bool false
  | .rotateSecret id =>
    (∃ row ∈ tables "webhooks", owned r.merchantId id row = true ∧ row "active" = .bool true) →
      ∀ row ∈ tables "webhooks", owned r.merchantId id row = true →
        (rotation r.env r.merchantId id).write row = row
  | .retry deliveryId _ =>
    ∀ row ∈ tables "webhook_deliveries",
      retriable (tables "webhooks") r.merchantId deliveryId row = false
  | .replay webhookId deliveryId _ =>
    (∃ row ∈ tables "webhooks", owned r.merchantId webhookId row = true) →
      ∀ row ∈ tables "webhook_deliveries",
        row "id" = .int deliveryId → row "webhook_id" = .uuid webhookId →
        (replayUpdate r.env webhookId deliveryId).write row = row
  | .createApiKey input =>
    input.valid = true → ∃ row ∈ tables "api_keys",
      row "id" = .uuid r.env.newId ∨ row "key_hash" = .text (r.env.sha256 r.env.key)
  | .revoke id =>
    ∀ row ∈ tables "api_keys", owned r.merchantId id row = true → row "revoked_at" ≠ .null

/-! ## What the statements do on this schema -/

section Statements

variable {tables : Tables}

theorem lookup_auditLogs : schema.lookup "audit_logs" = some auditLogs009 := rfl

theorem lookup_webhooks : schema.lookup "webhooks" = some webhooks := rfl

theorem lookup_webhookDeliveries :
    schema.lookup "webhook_deliveries" = some webhookDeliveries005 := rfl

theorem lookup_apiKeys : schema.lookup "api_keys" = some apiKeys := rfl

/-- **No audit entry is written**: the table has no column `actor_ip`. -/
theorem log_schema (env : Env) (merchantId : Uuid) (action : AuditAction)
    (resourceType : ResourceType) (resourceId : Value) (actor : Actor)
    (metadata : Option (List (String × Value))) :
    log schema env merchantId action resourceType resourceId actor metadata tables =
      (.error (.sql (.undefinedColumn "actor_ip")), tables) := by
  rw [log, Statements.run_bind, insertInto, insert_undefined lookup_auditLogs rfl]

/-- A new webhook is not stored: `secret` has been dropped. -/
theorem insert_webhook (values : Row) (merchantId : Uuid) (url : String) (events : List String)
    (secret : String) :
    insertInto schema "webhooks" values
        [("merchant_id", .uuid merchantId), ("url", .text url), ("events", .texts events),
          ("secret", .text secret)] tables =
      (.error (.sql (.undefinedColumn "secret")), tables) := by
  rw [insertInto, insert_undefined lookup_webhooks rfl]

theorem updateWhere_eq {table : String} {columns : List Column} {u : Update}
    (htable : schema.lookup table = some columns)
    (hnames : undefined? columns (u.names ++ u.set.map Prod.fst) = none)
    (hadmits : ∀ row, u.violated? columns row = none) :
    updateWhere schema table u tables =
      (.ok (((tables table).filter u.selects).map u.write),
        Function.update tables table (u.written (tables table))) := by
  rw [updateWhere, update_eq htable hnames hadmits]

end Statements

section Calls

variable {tables : Tables} {env : Env} {merchantId : Uuid}

theorem deactivate_eq (id : Nat) (actor : Actor) :
    (deactivate schema env merchantId id actor tables).2 =
      Function.update tables "webhooks"
        ((deactivation merchantId id).written (tables "webhooks")) := by
  rw [deactivate, Statements.run_bind, updateWhere_eq lookup_webhooks rfl fun row => rfl]
  -- no row returned is a 404; a row returned is logged, and the log fails
  cases ((tables "webhooks").filter (deactivation merchantId id).selects).map
      (deactivation merchantId id).write with
  | nil => rfl
  | cons webhook rest => simp only [Statements.run_bind, log_schema]

theorem isEmpty_filter (rows : List Row) (p : Row → Bool) :
    (rows.filter p).isEmpty = !decide (∃ row ∈ rows, p row = true) := by
  by_cases h : ∃ row ∈ rows, p row = true
  · obtain ⟨row, hrow, hp⟩ := h
    rw [decide_eq_true ⟨row, hrow, hp⟩]
    exact List.isEmpty_eq_false_iff_exists_mem.mpr ⟨row, List.mem_filter.mpr ⟨hrow, hp⟩⟩
  · rw [decide_eq_false h, Bool.not_false, List.isEmpty_iff, List.filter_eq_nil_iff]
    exact fun row hrow hp => h ⟨row, hrow, hp⟩

theorem createWebhook_eq (input : CreateWebhook) (actor : Actor) :
    (createWebhook schema env merchantId input actor tables).2 = tables := by
  rw [createWebhook]
  by_cases hvalid : input.valid env = true
  · simp only [hvalid, Bool.not_true, Bool.false_eq_true, if_false, Statements.run_bind,
      insert_webhook]
  · simp only [hvalid]
    rfl

/-- The previous hash may be anything, the new one is a text. -/
theorem rotation_admits (env : Env) (merchantId : Uuid) (id : Nat) (row : Row) :
    (rotation env merchantId id).violated? webhooks row = none := by
  rw [Update.violated?, List.findSome?_eq_none_iff]
  intro column hcolumn
  by_cases hprevious : column = nullable "previous_hashed_secret"
  · rw [hprevious, violated?_unconstrained rfl rfl, ite_self]
  · simp only [webhooks, List.mem_cons, List.not_mem_nil, or_false, hprevious, false_or]
      at hcolumn
    rcases hcolumn with rfl | rfl | rfl | rfl | rfl | rfl | rfl | rfl
    all_goals rfl

theorem rotateSecret_eq (id : Nat) :
    (rotateSecret schema env merchantId id tables).2 =
      if ∃ row ∈ tables "webhooks", owned merchantId id row = true ∧ row "active" = .bool true then
        Function.update tables "webhooks"
          ((rotation env merchantId id).written (tables "webhooks"))
      else tables := by
  have hisEmpty := isEmpty_filter (tables "webhooks") fun row =>
    owned merchantId id row && row "active" == .bool true
  simp only [Bool.and_eq_true, beq_iff_eq] at hisEmpty
  simp only [rotateSecret, Statements.run_bind, selectFrom, hisEmpty]
  by_cases hactive : ∃ row ∈ tables "webhooks",
      owned merchantId id row = true ∧ row "active" = .bool true
  · simp only [hactive, decide_true, Bool.not_true, Bool.false_eq_true, if_false, if_true]
    rw [Statements.run_bind, updateWhere_eq lookup_webhooks rfl (rotation_admits env merchantId id)]
    cases ((tables "webhooks").filter (rotation env merchantId id).selects).map
        (rotation env merchantId id).write with
    | nil => rfl
    | cons webhook rest => rfl
  · simp only [hactive, decide_false, Bool.not_false, if_true, if_false]
    rfl

theorem retry_eq (deliveryId : Nat) (actor : Actor) :
    (retry schema env merchantId deliveryId actor tables).2 =
      Function.update tables "webhook_deliveries"
        ((retryUpdate env (tables "webhooks") merchantId deliveryId).written
          (tables "webhook_deliveries")) := by
  have hselect : selectFrom "webhooks" (fun _ => true) tables =
      (.ok (tables "webhooks"), tables) := by
    rw [selectFrom, List.filter_true]
  rw [retry, Statements.run_bind, hselect]
  simp only
  rw [Statements.run_bind, updateWhere_eq lookup_webhookDeliveries rfl fun row => rfl]
  cases ((tables "webhook_deliveries").filter
      (retryUpdate env (tables "webhooks") merchantId deliveryId).selects).map
      (retryUpdate env (tables "webhooks") merchantId deliveryId).write with
  | nil => rfl
  | cons delivery rest => simp only [Statements.run_bind, log_schema]

theorem replay_eq (webhookId deliveryId : Nat) (actor : Actor) :
    (replay schema env merchantId webhookId deliveryId actor tables).2 =
      if ∃ row ∈ tables "webhooks", owned merchantId webhookId row = true then
        Function.update tables "webhook_deliveries"
          ((replayUpdate env webhookId deliveryId).written (tables "webhook_deliveries"))
      else tables := by
  simp only [replay, Statements.run_bind, selectFrom, isEmpty_filter]
  by_cases howned : ∃ row ∈ tables "webhooks", owned merchantId webhookId row = true
  · simp only [howned, decide_true, Bool.not_true, Bool.false_eq_true, if_false, if_true]
    rw [Statements.run_bind, updateWhere_eq lookup_webhookDeliveries rfl fun row => rfl]
    cases ((tables "webhook_deliveries").filter (replayUpdate env webhookId deliveryId).selects).map
        (replayUpdate env webhookId deliveryId).write with
    | nil => rfl
    | cons delivery rest => simp only [Statements.run_bind, log_schema]
  · simp only [howned, decide_false, Bool.not_false, if_true, if_false]
    rfl

theorem revoke_eq (id : Nat) :
    (revoke schema env merchantId id tables).2 =
      Function.update tables "api_keys"
        ((revocation env merchantId id).written (tables "api_keys")) := by
  rw [revoke, Statements.run_bind, updateWhere_eq lookup_apiKeys rfl fun row => rfl]
  cases ((tables "api_keys").filter (revocation env merchantId id).selects).map
      (revocation env merchantId id).write with
  | nil => rfl
  | cons key rest => rfl

/-- The row of a new key. -/
def CreateApiKey.row (env : Env) (merchantId : Uuid) (input : CreateApiKey) : Row :=
  newRow apiKeys env.generated (input.values env merchantId)

theorem createApiKey_admits (env : Env) (merchantId : Uuid) {input : CreateApiKey}
    (hvalid : input.valid = true) :
    (apiKeys.findSome? fun column => column.violated? (input.row env merchantId column.name)) =
      none := by
  rw [CreateApiKey.valid, Bool.and_eq_true, Bool.and_eq_true] at hvalid
  rw [List.findSome?_eq_none_iff]
  intro column hcolumn
  simp only [apiKeys, apiKeys009, List.cons_append, List.nil_append, List.mem_cons,
    List.not_mem_nil, or_false] at hcolumn
  rcases hcolumn with rfl | rfl | rfl | rfl | rfl | rfl | rfl | rfl | rfl | rfl | rfl
  case inr.inr.inr.inr.inr.inl =>
    -- the scope is one of the enumeration
    change (if (["read_only", "webhooks", "full_access"].contains input.scope) = true then none
      else _) = none
    rw [if_pos hvalid.1.2]
  case inr.inr.inr.inr.inr.inr.inr.inl => exact violated?_unconstrained rfl rfl _
  case inr.inr.inr.inr.inr.inr.inr.inr.inr.inr => exact violated?_unconstrained rfl rfl _
  all_goals rfl

/-- Another key has the id or the hash of the new one. -/
def Taken (env : Env) (rows : List Row) : Prop :=
  ∃ row ∈ rows, row "id" = .uuid env.newId ∨ row "key_hash" = .text (env.sha256 env.key)

instance decidableTaken (env : Env) (rows : List Row) : Decidable (Taken env rows) :=
  inferInstanceAs (Decidable (∃ row ∈ rows, _ ∨ _))

theorem createApiKey_clash_iff (env : Env) (merchantId : Uuid) (input : CreateApiKey)
    (rows : List Row) :
    (apiKeys.find? (clashes rows (input.row env merchantId))).isSome = true ↔ Taken env rows := by
  have hid : clashes rows (input.row env merchantId) primaryKey =
      rows.any fun row => row "id" == .uuid env.newId := rfl
  have hhash : clashes rows (input.row env merchantId) { required "key_hash" with unique := true } =
      rows.any fun row => row "key_hash" == .text (env.sha256 env.key) := rfl
  rw [List.find?_isSome]
  constructor
  · rintro ⟨column, hcolumn, hclashes⟩
    simp only [apiKeys, apiKeys009, List.cons_append, List.nil_append, List.mem_cons,
      List.not_mem_nil, or_false] at hcolumn
    rcases hcolumn with rfl | rfl | rfl | rfl | rfl | rfl | rfl | rfl | rfl | rfl | rfl
    case inl =>
      rw [hid, List.any_eq_true] at hclashes
      obtain ⟨row, hrow, hsame⟩ := hclashes
      exact ⟨row, hrow, .inl (beq_iff_eq.mp hsame)⟩
    case inr.inr.inr.inl =>
      rw [hhash, List.any_eq_true] at hclashes
      obtain ⟨row, hrow, hsame⟩ := hclashes
      exact ⟨row, hrow, .inr (beq_iff_eq.mp hsame)⟩
    -- the other columns are not unique
    all_goals cases hclashes
  · rintro ⟨row, hrow, hsame | hsame⟩
    · refine ⟨primaryKey, by decide, ?_⟩
      rw [hid, List.any_eq_true]
      exact ⟨row, hrow, beq_iff_eq.mpr hsame⟩
    · refine ⟨{ required "key_hash" with unique := true }, by decide, ?_⟩
      rw [hhash, List.any_eq_true]
      exact ⟨row, hrow, beq_iff_eq.mpr hsame⟩

theorem createApiKey_eq (input : CreateApiKey) :
    (createApiKey schema env merchantId input tables).2 =
      if input.valid = true ∧ ¬ Taken env (tables "api_keys") then
        Function.update tables "api_keys" (tables "api_keys" ++ [input.row env merchantId])
      else tables := by
  rw [createApiKey]
  by_cases hvalid : input.valid = true
  · have hinsert := insert_eq lookup_apiKeys rfl
      (createApiKey_admits env merchantId hvalid) (tables "api_keys")
    have hclash := createApiKey_clash_iff env merchantId input (tables "api_keys")
    simp only [hvalid, Bool.not_true, Bool.false_eq_true, if_false, true_and, ← hclash]
    rw [Statements.run_bind, insertInto, hinsert, CreateApiKey.row]
    cases hfind : apiKeys.find?
        (clashes (tables "api_keys")
          (newRow apiKeys env.generated (input.values env merchantId))) with
    | none => rfl
    | some column => rfl
  · simp only [hvalid]
    rfl

end Calls

/-! ## Which calls are audited -/

section Audits

variable {tables after : Tables}

/-- No call adds an audit entry. -/
theorem auditLogs_eq (tables : Tables) (r : Request) :
    (r.run schema tables).2 "audit_logs" = tables "audit_logs" := by
  obtain ⟨env, merchantId, call⟩ := r
  cases call with
  | createWebhook input actor => rw [Request.run, createWebhook_eq]
  | deactivate id actor =>
    rw [Request.run, deactivate_eq]
    exact Function.update_of_ne (by decide) ..
  | rotateSecret id =>
    rw [Request.run, rotateSecret_eq]
    split
    · exact Function.update_of_ne (by decide) ..
    · rfl
  | retry deliveryId actor =>
    rw [Request.run, retry_eq]
    exact Function.update_of_ne (by decide) ..
  | replay webhookId deliveryId actor =>
    rw [Request.run, replay_eq]
    split
    · exact Function.update_of_ne (by decide) ..
    · rfl
  | createApiKey input =>
    rw [Request.run, createApiKey_eq]
    split
    · exact Function.update_of_ne (by decide) ..
    · rfl
  | revoke id =>
    rw [Request.run, revoke_eq]
    exact Function.update_of_ne (by decide) ..

/-- So the calls that are audited are those that change nothing. -/
theorem audited_iff_unchanged (r : Request) :
    Audited schema tables r ↔ ¬ r.Changes schema tables := by
  constructor
  · intro haudited hchanges
    obtain ⟨⟨entry, -, hentry⟩, -⟩ := haudited hchanges
    rw [auditLogs_eq] at hentry
    exact concat_ne _ _ hentry.symm
  · intro hsame hchanges
    exact absurd hchanges hsame

/-- A call that writes one table. -/
theorem changes_update {table : String} {rows : List Row} (htable : table ∈ credentialTables) :
    (∃ t ∈ credentialTables, Function.update tables table rows t ≠ tables t) ↔
      rows ≠ tables table := by
  constructor
  · rintro ⟨t, -, hchanges⟩ hsame
    rw [hsame, Function.update_eq_self] at hchanges
    exact hchanges rfl
  · intro hrows
    exact ⟨table, htable, by rwa [Function.update_self]⟩

/-- A row that can be retried is not pending, and is made so. -/
theorem retryUpdate_ne {env : Env} {webhooks : List Row} {merchantId : Uuid} {deliveryId : Nat}
    {row : Row} (h : retriable webhooks merchantId deliveryId row = true) :
    (retryUpdate env webhooks merchantId deliveryId).write row ≠ row := by
  intro hsame
  have hpending : row "status" = .text "pending" := (congrFun hsame "status").symm
  rw [retriable, hpending] at h
  revert h
  simp

/-- A revoked key has a time. -/
theorem revocation_ne {env : Env} {merchantId : Uuid} {id : Nat} {row : Row}
    (h : row "revoked_at" = .null) : (revocation env merchantId id).write row ≠ row := by
  rw [ne_eq, write_eq_iff rfl, h]
  exact nofun

/-- No row is written anew. -/
theorem not_changes_iff {table : String} {u : Update} (htable : table ∈ credentialTables) :
    (¬ ∃ t ∈ credentialTables,
        Function.update tables table (u.written (tables table)) t ≠ tables t) ↔
      ∀ row ∈ tables table, u.selects row = true → u.write row = row := by
  rw [changes_update htable, written_ne_iff]
  simp only [not_exists, not_and, not_not]

theorem idle_iff (tables : Tables) (r : Request) :
    Idle tables r ↔ ¬ r.Changes schema tables := by
  obtain ⟨env, merchantId, call⟩ := r
  cases call with
  | createWebhook input actor =>
    rw [Request.Changes, Request.run, createWebhook_eq]
    simp only [Idle, ne_eq, not_true_eq_false, and_false, exists_false, not_false_eq_true]
  | deactivate id actor =>
    rw [Request.Changes, Request.run, deactivate_eq, not_changes_iff (by decide)]
    refine forall₃_congr fun row _ _ => ?_
    rw [write_eq_iff rfl, eq_comm]
  | rotateSecret id =>
    rw [Request.Changes, Request.run, rotateSecret_eq]
    by_cases hactive : ∃ row ∈ tables "webhooks",
        owned merchantId id row = true ∧ row "active" = .bool true
    · rw [if_pos hactive, not_changes_iff (by decide)]
      constructor
      · intro h
        exact h hactive
      · intro h _
        exact h
    · -- the SELECT finds nothing, and no UPDATE is made
      rw [if_neg hactive]
      constructor
      · rintro - ⟨_, _, hne⟩
        exact hne rfl
      · intro _ h
        exact absurd h hactive
  | retry deliveryId actor =>
    rw [Request.Changes, Request.run, retry_eq, not_changes_iff (by decide)]
    refine forall₂_congr fun row _ => ?_
    constructor
    · intro h hselects
      exact absurd (h.symm.trans hselects) (by decide)
    · intro h
      exact Bool.eq_false_iff.mpr fun hselects => retryUpdate_ne hselects (h hselects)
  | replay webhookId deliveryId actor =>
    rw [Request.Changes, Request.run, replay_eq]
    by_cases howned : ∃ row ∈ tables "webhooks", owned merchantId webhookId row = true
    · rw [if_pos howned, not_changes_iff (by decide)]
      simp only [replayUpdate, Bool.and_eq_true, beq_iff_eq, and_imp]
      constructor
      · intro h
        exact h howned
      · intro h _
        exact h
    · rw [if_neg howned]
      constructor
      · rintro - ⟨_, _, hne⟩
        exact hne rfl
      · intro _ h
        exact absurd h howned
  | createApiKey input =>
    rw [Request.Changes, Request.run, createApiKey_eq]
    by_cases hnew : input.valid = true ∧ ¬ Taken env (tables "api_keys")
    · rw [if_pos hnew, changes_update (by decide)]
      constructor
      · intro h
        exact absurd (h hnew.1) hnew.2
      · intro h
        exact absurd (concat_ne _ _) h
    · rw [if_neg hnew]
      constructor
      · rintro - ⟨_, _, hne⟩
        exact hne rfl
      · intro _ hvalid
        by_contra hfree
        exact hnew ⟨hvalid, hfree⟩
  | revoke id =>
    rw [Request.Changes, Request.run, revoke_eq, not_changes_iff (by decide)]
    refine forall₂_congr fun row _ => ?_
    constructor
    · intro h hselects
      rw [revocation, Bool.and_eq_true, beq_iff_eq] at hselects
      exact absurd hselects.2 (h hselects.1)
    · intro h howned hnull
      refine revocation_ne hnull (h ?_)
      rw [revocation, Bool.and_eq_true, beq_iff_eq]
      exact ⟨howned, hnull⟩

/-- **Changes of credentials are not audited**: in every run of calls on a migrated schema, the
calls are audited if and only if each of them has nothing to change. -/
theorem audited_iff {catalog : Catalog} (hmigrated : Migrated catalog) (tables : Tables)
    (run : List Request) :
    (calls catalog).Guarded (Audited catalog) tables run ↔
      (calls catalog).Guarded Idle tables run := by
  obtain rfl := hmigrated.eq
  have hiff (tables : Tables) (r : Request) : Audited schema tables r ↔ Idle tables r := by
    rw [audited_iff_unchanged, idle_iff]
  constructor
  · exact Lts.Guarded.mono _ fun t r => (hiff t r).mp
  · exact Lts.Guarded.mono _ fun t r => (hiff t r).mpr

end Audits

/-! ## A merchant with a webhook and a key -/

def env : Env where
  now := 1000
  newId := 3
  random := "00"
  sha256 s := s
  isUrl _ := true
  stringify _ := "\x7b\x7d"

def hook : Row
  | "id" => .uuid 2
  | "merchant_id" => .uuid 1
  | "active" => .bool true
  | _ => .null

def twoRows : Tables
  | "webhooks" => [hook]
  | _ => []

/-- Merchant 1 deactivates the webhook. -/
def deactivates : Request := ⟨env, 1, .deactivate 2 ⟨none, none⟩⟩

/-- Another merchant tries to, and finds nothing. -/
def triesToDeactivate : Request := ⟨env, 5, .deactivate 2 ⟨none, none⟩⟩

theorem audited_iff_otherMerchant :
    Migrated schema ∧ (calls schema).Guarded (Audited schema) twoRows [triesToDeactivate] := by
  refine ⟨migrated_schema, (audited_iff migrated_schema twoRows [triesToDeactivate]).mpr ?_⟩
  refine ⟨fun row hrow howned => ?_, trivial⟩
  cases List.mem_singleton.mp hrow
  exact absurd howned (by decide)

/-- **The deactivation is not audited**: the webhook is no longer active, there is no entry, and
the call fails. -/
theorem deactivation_not_audited :
    Migrated schema ∧
      ((deactivates.run schema twoRows).2 "webhooks").map (· "active") = [.bool false] ∧
      (deactivates.run schema twoRows).2 "audit_logs" = [] ∧
      (deactivates.run schema twoRows).1 = .error (.sql (.undefinedColumn "actor_ip")) ∧
      ¬ Audited schema twoRows deactivates := by
  refine ⟨migrated_schema, rfl, rfl, rfl, fun haudited => ?_⟩
  rw [audited_iff_unchanged, ← idle_iff] at haudited
  exact absurd (haudited hook (List.mem_singleton.mpr rfl) rfl) (by decide)

end Stargate.Audit
