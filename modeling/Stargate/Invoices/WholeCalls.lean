import Stargate.Invoices.Lifecycle

/-!
# The calls of the API as a whole

Each call of `Lifecycle` with nothing interleaved: its result and the database that
it leaves. `runApi` runs the statements of a call one after the other and arrives at
the same database: `runApi_partialSelect`, `runApi_selectHooks`.
-/

namespace Stargate.Invoices

open Base

/-- `cancel(merchantId, id)`. -/
def cancel (db : Db) (merchantId id : Uuid) : Except ApiError Invoice × Db :=
  match affected db (isCancelled merchantId id) with
  | [] => (.error (.notFound "Pending invoice not found"), db)
  | i :: _ =>
    (.ok { i with status := .cancelled }, setStatus db (isCancelled merchantId id) .cancelled)

/-- `dispatchEvent(merchantId, eventType, payload)`. -/
def dispatchEvent (db : Db) (d : Dispatch) : Db :=
  { db with
    webhookDeliveries := db.webhookDeliveries ++
      (subscribers db d.merchantId d.eventType).map fun h => ⟨h, d.eventType, d.payload⟩ }

/-- `expireInvoices()`. -/
def expireInvoices (now : Timestamp) (db : Db) : Db :=
  (expireDispatches now (affected db (isExpired now))).foldl dispatchEvent
    (setStatus db (isExpired now) .expired)

/-- `autoCancelUnpaidInvoices()`. -/
def autoCancelUnpaidInvoices (now : Timestamp) (db : Db) : Db :=
  (autoCancelDispatches now (affected db (isUnpaid db now))).foldl dispatchEvent
    (setStatus db (isUnpaid db now) .cancelled)

/-- `applyPartialPayment(invoiceId, paidAmount)` with nothing interleaved. An
exception is followed by a `ROLLBACK`. -/
def applyPartialPayment (now : Timestamp) (db : Db) (invoiceId : Uuid) (paidAmount : String) :
    Except ApiError Invoice × Db :=
  match db.invoices.find? fun i => i.id == invoiceId && i.status.active with
  | none => (.error (.notFound "Active invoice not found"), db)
  | some invoice =>
    match partialRemaining invoice paidAmount with
    | .error e => (.error e, db)
    | .ok remaining =>
      match partialRow invoice paidAmount remaining now with
      | none => (.error .database, db)
      | some row => (.ok row, commitPartial db row)

/-- The statements of a call that nothing interleaves with. -/
def runApi (now : Timestamp) : Nat → Db × ApiCall → Db × ApiCall
  | 0, s => s
  | fuel + 1, (db, call) =>
    match call.exec now (fun _ => false) db with
    | some s => runApi now fuel s
    | none => (db, call)

/-- **The call is its three statements**: when they have run, the database is the
one that `applyPartialPayment` leaves. -/
theorem runApi_partialSelect (now : Timestamp) (db : Db) (invoiceId : Uuid) (paidAmount : String) :
    runApi now 3 (db, .partialSelect invoiceId paidAmount)
      = ((applyPartialPayment now db invoiceId paidAmount).2, .idle) := by
  unfold applyPartialPayment
  cases hfind : db.invoices.find? fun i => i.id == invoiceId && i.status.active with
  | none => simp [runApi, ApiCall.exec, hfind]
  | some invoice =>
    cases hremaining : partialRemaining invoice paidAmount with
    | error e => simp [runApi, ApiCall.exec, hfind, hremaining]
    | ok remaining =>
      cases hrow : partialRow invoice paidAmount remaining now <;>
        simp [runApi, ApiCall.exec, hfind, hremaining, hrow]

section Statements

variable {now : Timestamp} {db : Db}

/-- One statement of a call. -/
theorem runApi_exec {call call' : ApiCall} {db' : Db} (fuel : Nat)
    (h : call.exec now (fun _ => false) db = some (db', call')) :
    runApi now (fuel + 1) (db, call) = runApi now fuel (db', call') := by
  rw [runApi, h]

/-- The `INSERT`s of one dispatch. -/
theorem runApi_insertDelivery (d : Dispatch) (hooks : List Uuid) (todo : List Dispatch)
    (fuel : Nat) :
    runApi now (fuel + hooks.length + 1) (db, .insertDelivery d hooks todo)
      = runApi now fuel ({ db with
          webhookDeliveries :=
            db.webhookDeliveries ++ hooks.map fun h => ⟨h, d.eventType, d.payload⟩ },
          .selectHooks todo) := by
  induction hooks generalizing db with
  | nil =>
    rw [List.length_nil, Nat.add_zero, runApi_exec fuel rfl]
    simp
  | cons h hooks ih =>
    rw [List.length_cons, ← Nat.add_assoc, runApi_exec (fuel + hooks.length + 1) rfl, ih]
    simp

/-- **A cron job queues its dispatches in order.** -/
theorem runApi_selectHooks (db : Db) (todo : List Dispatch) :
    ∃ fuel, runApi now fuel (db, .selectHooks todo) = (todo.foldl dispatchEvent db, .idle) := by
  induction todo generalizing db with
  | nil => exact ⟨1, runApi_exec 0 rfl⟩
  | cons d todo ih =>
    obtain ⟨fuel, h⟩ := ih (dispatchEvent db d)
    refine ⟨fuel + (subscribers db d.merchantId d.eventType).length + 1 + 1, ?_⟩
    rw [runApi_exec _ rfl, runApi_insertDelivery, List.foldl_cons, ← h]
    rfl

theorem dispatchAll_same (db : Db) (todo : List Dispatch) :
    (todo.foldl dispatchEvent db).invoices = db.invoices ∧
      (todo.foldl dispatchEvent db).ledgerEntries = db.ledgerEntries ∧
      (todo.foldl dispatchEvent db).merchants = db.merchants := by
  induction todo generalizing db with
  | nil => exact ⟨rfl, rfl, rfl⟩
  | cons d todo ih => exact ih (dispatchEvent db d)

end Statements

end Stargate.Invoices
