import Stargate.Base.Sql
import Stargate.Database.Migrations

/-!
# The tables of credentials and audits, as the migrations leave them

Two files create `audit_logs`. The first one counts: `CREATE TABLE IF NOT EXISTS` does nothing
where there is a table, whatever its columns are.

- `statements`: the DDL of each file on these four tables;
- `schema`: the columns in the end;
- `Migrated`: what `runMigrations` may leave behind; `Migrated.eq`: that is `schema`, and
  `migrated_schema`: it is left behind.
-/

namespace Stargate.Audit

open Base Base.Sql

/-- `NOT NULL`, and a constant or something that the server generates by default. -/
def required (name : String) : Column := { name, notNull := true }

def withDefault (name : String) (v : Value) : Column :=
  { name, notNull := true, byDefault := .value v }

def generated (name : String) : Column := { name, notNull := true, byDefault := .generated }

/-- `id ... PRIMARY KEY`. -/
def primaryKey : Column :=
  { name := "id", notNull := true, unique := true, byDefault := .generated }

def nullable (name : String) : Column := { name }

/-! ## The files -/

/-- `CREATE TABLE IF NOT EXISTS webhooks` -/
def webhooks005 : List Column :=
  [primaryKey, required "merchant_id", required "url", required "events", required "secret",
    withDefault "active" (.bool true), generated "created_at"]

def webhookDeliveries005 : List Column :=
  [primaryKey, required "webhook_id", required "event_type", required "payload",
    { withDefault "status" (.text "pending") with
      oneOf := some ["pending", "delivered", "failed", "dead"] },
    withDefault "attempts" (.int 0), nullable "next_retry_at", nullable "response_status",
    nullable "delivered_at", generated "created_at"]

def apiKeys009 : List Column :=
  [primaryKey, required "merchant_id", required "name",
    { required "key_hash" with unique := true }, required "key_prefix",
    { withDefault "scope" (.text "read_only") with
      oneOf := some ["read_only", "webhooks", "full_access"] },
    nullable "last_used_at", nullable "expires_at", nullable "revoked_at", generated "created_at"]

/-- `audit_logs` in `009_features.sql`. -/
def auditLogs009 : List Column :=
  [primaryKey, nullable "merchant_id", required "actor", required "action",
    required "resource_type", nullable "resource_id", nullable "metadata", nullable "ip_address",
    generated "created_at"]

/-- `audit_logs` in `011_audit_logs.sql`. -/
def auditLogs011 : List Column :=
  [primaryKey, required "merchant_id",
    { required "action" with
      oneOf := some ["api_key_created", "api_key_rotated", "api_key_deactivated",
        "webhook_created", "webhook_rotated", "webhook_deactivated", "webhook_retried"] },
    { required "resource_type" with oneOf := some ["api_key", "webhook"] },
    required "resource_id", nullable "actor_ip", nullable "actor_email", nullable "metadata",
    generated "created_at"]

/-- What a file does to the four tables. -/
def statements (file : String) : List Ddl :=
  match file with
  | "005_webhooks.sql" =>
    [.createTable "webhooks" webhooks005, .createTable "webhook_deliveries" webhookDeliveries005]
  | "009_api_keys.sql" => [.createTable "api_keys" apiKeys009]
  | "009_features.sql" =>
    [.addColumn "webhooks" true (nullable "previous_secret"),
      .addColumn "webhooks" true (nullable "secret_rotated_at"),
      .createTable "audit_logs" auditLogs009]
  | "010_hash_webhook_secrets.sql" =>
    [.addColumn "webhooks" false (nullable "hashed_secret"),
      -- the hashes of the stored secrets are filled in
      .setNotNull "webhooks" "hashed_secret",
      .dropColumn "webhooks" "secret"]
  | "010_webhook_secret_rotation.sql" =>
    [.addColumn "webhooks" true (nullable "previous_secret"),
      .addColumn "webhooks" true (nullable "secret_rotated_at")]
  | "011_audit_logs.sql" => [.createTable "audit_logs" auditLogs011]
  | "012_webhook_event_filtering.sql" =>
    [.renameColumn "webhooks" "previous_secret" "previous_hashed_secret"]
  | "013_api_key_ip_allowlist.sql" => [.addColumn "api_keys" true (nullable "allowed_ips")]
  -- the other files are about other tables
  | _ => []

/-- `db/migrations`. -/
def migrations : List String :=
  ["001_merchants.sql", "002_invoices.sql", "003_payment_events.sql", "004_ledger_entries.sql",
    "005_webhooks.sql", "006_settlements.sql", "007_reconciler_state.sql", "008_rls.sql",
    "009_api_keys.sql", "009_features.sql", "009_idempotency_keys.sql",
    "009_invoice_list_indexes.sql", "009_kyc_documents.sql", "009_merchant_invoice_limits.sql",
    "009_merchant_kyc_testmode.sql", "009_recurring_schedules.sql", "009_spend_limits.sql",
    "010_hash_webhook_secrets.sql", "010_partial_payments.sql", "010_refunds.sql",
    "010_soroban_events.sql", "010_treasury_signing_quorum.sql",
    "010_webhook_secret_rotation.sql", "011_audit_logs.sql", "011_deferred_settlement.sql",
    "012_multi_currency.sql", "012_team_members.sql", "012_unpaid_invoice_ttl.sql",
    "012_webhook_event_filtering.sql", "013_api_key_ip_allowlist.sql", "013_invoice_sequence.sql"]

def directory : Migrations.Directory Catalog where
  names := migrations
  nodup := by decide +kernel
  sql file catalog := (statements file).foldlM Ddl.apply catalog

/-! ## The schema -/

def webhooks : List Column :=
  [primaryKey, required "merchant_id", required "url", required "events",
    withDefault "active" (.bool true), generated "created_at", nullable "previous_hashed_secret",
    nullable "secret_rotated_at", required "hashed_secret"]

def apiKeys : List Column := apiKeys009 ++ [nullable "allowed_ips"]

def schema : Catalog :=
  [("webhooks", webhooks), ("webhook_deliveries", webhookDeliveries005), ("api_keys", apiKeys),
    ("audit_logs", auditLogs009)]

/-- The names stand in order. -/
theorem files_migrations : Migrations.files migrations = migrations := by
  decide +kernel

theorem applied_migrations :
    Migrations.applied directory (Migrations.files directory.names) [] = some schema := by
  rw [directory, files_migrations]
  decide +kernel

/-- Runs of `runMigrations`, any number of them and stopped anywhere, of which the last one
returns. -/
def Migrated (catalog : Catalog) : Prop :=
  ∃ w as t, Migrations.Initial [] w ∧ (Migrations.migrator directory).run w as = some t ∧
    t.pc = .returned ∧ t.db = catalog

theorem Migrated.eq {catalog : Catalog} (h : Migrated catalog) : catalog = schema := by
  obtain ⟨w, as, t, hinit, hrun, hreturned, rfl⟩ := h
  have hall := Migrations.applied_of_returned hinit hrun hreturned
  exact Option.some.inj (hall.symm.trans applied_migrations)

theorem migrated_schema : Migrated schema := by
  have hinit : Migrations.Initial ([] : Catalog) ⟨[], none, .stopped⟩ := ⟨rfl, rfl, rfl⟩
  obtain ⟨u, hstart, n, t, hrun, hreturned⟩ :=
    Migrations.can_finish hinit applied_migrations ((Migrations.migrator directory).run_nil _) rfl
  have hwhole := (Migrations.migrator directory).run_cons.mpr ⟨u, hstart, hrun⟩
  have hdb := Migrations.applied_of_returned hinit hwhole hreturned
  exact ⟨_, _, t, hinit, hwhole, hreturned, Option.some.inj (hdb.symm.trans applied_migrations)⟩

end Stargate.Audit
