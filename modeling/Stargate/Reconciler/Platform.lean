import Stargate.Reconciler.InvoiceRows

/-!
# The reconciler, the API and the merchants' webhooks

`platform` runs `system` together with what merchants and their customers do to the
other tables that a credit touches: webhooks are stored and deactivated
(`webhooks.service.ts`), and views of a payment page are tracked
(`payment-links.controller.ts`).

- `Stage`, `StageStep`: how far a call has come with the credit that it prepares, and
  what each statement does to the tables that the credit is written to;
- `platform_cases`: a step of the platform is one of `system`, or it leaves all but
  webhooks and tracked views alone.
-/

namespace Stargate.Webhooks

open Base

/-- `WEBHOOK_EVENT_TYPES`. -/
def eventTypes : List String :=
  ["invoice.paid", "invoice.expired", "invoice.cancelled", "settlement.completed",
    "merchant.kyc.approved", "merchant.kyc.rejected"]

/-- The events that `createWebhookSchema` takes: at least one, all of them known. -/
def ValidEvents (events : List String) : Prop := events ≠ [] ∧ ∀ e ∈ events, e ∈ eventTypes

instance decidableValidEvents (events : List String) : Decidable (ValidEvents events) :=
  inferInstanceAs (Decidable (_ ∧ _))

/-- `create(merchantId, input)` with an `https` URL and these events: the `INSERT` names the column
`secret`, which a migration has dropped, and is refused. -/
def create (db : Db) (events : List String) : Except ApiError Unit × Db :=
  (.error (if ValidEvents events then .database else .zodError), db)

/-- A row with events of the schema gets into `webhooks` all the same, by hand. -/
def store (db : Db) (id merchantId : Uuid) (events : List String) : Option Db :=
  if ValidEvents events then
    (db.webhooks.insert? ⟨id, merchantId, events, true⟩).map fun webhooks => { db with webhooks }
  else none

/-- `deactivate(merchantId, id)`. -/
def deactivate (db : Db) (merchantId id : Uuid) : Db :=
  { db with
    webhooks := db.webhooks.modify (fun h => h.id == id && h.merchantId == merchantId)
      (fun h => { h with active := false }) fun _ => rfl }

end Stargate.Webhooks

namespace Stargate.PaymentLinks

open Base

/-- `trackEvent(invoiceId, eventType)`. That the invoice is stored, and whose it is,
is read a statement earlier; neither ever changes. -/
def trackEvent (db : Db) (invoiceId : Uuid) (eventType : LinkEventType) : Option Db :=
  (db.invoices.find? fun i => i.id == invoiceId).map fun i =>
    { db with
      paymentLinkEvents := db.paymentLinkEvents ++ [⟨invoiceId, i.merchantId, eventType⟩] }

/-- `trackView(invoiceId)`. -/
def trackView (db : Db) (invoiceId : Uuid) : Option Db := trackEvent db invoiceId .view

/-- `trackAttempt(invoiceId)`. -/
def trackAttempt (db : Db) (invoiceId : Uuid) : Option Db := trackEvent db invoiceId .attempt

end Stargate.PaymentLinks

namespace Stargate.Reconciler

open Base Invoices

/-- No webhook is selected twice. -/
theorem nodup_subscribers (db : Db) (merchantId : Uuid) (eventType : String) :
    (subscribers db merchantId eventType).Nodup := by
  unfold subscribers
  rw [List.Nodup, List.pairwise_map]
  exact (db.webhooks.unique.sublist List.filter_sublist).imp fun hno heq => hno heq

/-- What may happen next. -/
inductive Request (n m : Nat) where
  | system (a : Label n m)
  | createWebhook (merchantId : Uuid) (events : List String)
  | storeWebhook (id merchantId : Uuid) (events : List String)
  | deactivateWebhook (merchantId id : Uuid)
  | trackView (invoiceId : Uuid)
  | trackAttempt (invoiceId : Uuid)

/-- The interleavings of `system` with requests about webhooks and payment pages. -/
def platform (env : Env) (n m : Nat) : Lts (Sys n m) (Request n m) where
  step s
    | .system a => (system env n m).step s a
    | .createWebhook _ events =>
      some { s with world := { s.world with db := (Webhooks.create s.world.db events).2 } }
    | .storeWebhook id merchantId events =>
      (Webhooks.store s.world.db id merchantId events).map fun db =>
        { s with world := { s.world with db } }
    | .deactivateWebhook merchantId id =>
      some { s with world := { s.world with db := Webhooks.deactivate s.world.db merchantId id } }
    | .trackView invoiceId =>
      (PaymentLinks.trackView s.world.db invoiceId).map fun db =>
        { s with world := { s.world with db } }
    | .trackAttempt invoiceId =>
      (PaymentLinks.trackAttempt s.world.db invoiceId).map fun db =>
        { s with world := { s.world with db } }

/-- The rows of `payment_link_events` that the reconciler writes. -/
def conversions (db : Db) : List PaymentLinkEvent :=
  db.paymentLinkEvents.filter fun e => e.eventType == .conversion

/-- A step that leaves all but webhooks and tracked views alone. -/
structure Aside {n m : Nat} (s s' : Sys n m) : Prop where
  calls : s'.calls = s.calls
  apis : s'.apis = s.apis
  db : s'.world.db = { s.world.db with
    webhooks := s'.world.db.webhooks
    paymentLinkEvents := s'.world.db.paymentLinkEvents }
  conversions : conversions s'.world.db = conversions s.world.db

section Platform

variable {n m : Nat} {env : Env} {s s' : Sys n m}

theorem aside_track {invoiceId : Uuid} {eventType : LinkEventType}
    (hne : eventType ≠ .conversion)
    (h : ((PaymentLinks.trackEvent s.world.db invoiceId eventType).map fun db =>
      { s with world := { s.world with db } }) = some s') : Aside s s' := by
  obtain ⟨db, htrack, rfl⟩ := Option.map_eq_some_iff.mp h
  obtain ⟨i, -, rfl⟩ := Option.map_eq_some_iff.mp htrack
  refine ⟨rfl, rfl, rfl, ?_⟩
  simp [conversions, List.filter_append, hne]

/-- **What a step of the platform can do.** -/
theorem platform_cases {a : Request n m} (h : (platform env n m).step s a = some s') :
    (∃ b, a = .system b ∧ (system env n m).step s b = some s') ∨
      ((∀ b, a ≠ .system b) ∧ Aside s s') := by
  cases a with
  | system b => exact .inl ⟨b, rfl, h⟩
  | createWebhook merchantId events =>
    cases h
    exact .inr ⟨by simp, rfl, rfl, rfl, rfl⟩
  | storeWebhook id merchantId events =>
    obtain ⟨db, hins, rfl⟩ := Option.map_eq_some_iff.mp h
    unfold Webhooks.store at hins
    split at hins
    · obtain ⟨webhooks, -, rfl⟩ := Option.map_eq_some_iff.mp hins
      exact .inr ⟨by simp, rfl, rfl, rfl, rfl⟩
    · cases hins
  | deactivateWebhook merchantId id =>
    cases h
    exact .inr ⟨by simp, rfl, rfl, rfl, rfl⟩
  | trackView invoiceId => exact .inr ⟨by simp, aside_track (by decide) h⟩
  | trackAttempt invoiceId => exact .inr ⟨by simp, aside_track (by decide) h⟩

theorem Aside.invoices (h : Aside s s') : s'.world.db.invoices = s.world.db.invoices := by
  rw [h.db]

theorem Aside.deliveries (h : Aside s s') :
    s'.world.db.webhookDeliveries = s.world.db.webhookDeliveries := by
  rw [h.db]

end Platform

/-! ## The credit that a call prepares -/

/-- A credit, with the webhooks that its delivery `INSERT` has selected. -/
structure Posting where
  credit : Credit
  hooks : List Uuid
  deriving DecidableEq

/-- How far a call has come with its credit. -/
inductive Stage where
  | none
  /-- The event is written, the deliveries are not. -/
  | held (eventId : Nat)
  | inserted (p : Posting)

def Pc.stage : Pc → Stage
  | .beginTx _ eventId => .held eventId
  | .insertLedger c | .updateInvoice c | .insertDeliveries c _ => .held c.eventId
  | .insertLinkEvent c _ hooks | .commit c _ hooks => .inserted ⟨c, hooks⟩
  | _ => .none

def Next.stage : Next → Stage
  | .goto pc => pc.stage
  | .ret _ => .none

def Call.stage : Call → Stage
  | .running _ pc => pc.stage
  | _ => .none

/-- The stages of the calls. -/
def Sys.stages {n m : Nat} (s : Sys n m) : Fin n → Stage := Call.stage ∘ s.calls

@[simp] theorem Next.stage_call (payment : HorizonPayment) (next : Next) :
    (next.call payment).stage = next.stage := by
  cases next <;> rfl

/-- The event of the credit. -/
def Stage.eventId : Stage → Option Nat
  | .none => Option.none
  | .held eventId => some eventId
  | .inserted p => some p.credit.eventId

/-- The tables that a credit is written to are the same. -/
structure SameRows (db db' : Db) : Prop where
  ledger : db'.ledgerEntries = db.ledgerEntries
  deliveries : db'.webhookDeliveries = db.webhookDeliveries
  links : db'.paymentLinkEvents = db.paymentLinkEvents

/-- What a statement does to the credit of its call, and to the tables that the
credit is written to. -/
inductive StageStep (w w' : World) (pc : Pc) : Stage → Prop
  /-- The call has no credit to prepare, or gives it up. -/
  | clear (hsame : SameRows w.db w'.db)
      (hevents : ∀ e ∈ w.db.paymentEvents, e ∈ w'.db.paymentEvents)
      (hpc : ∀ c updated, pc ≠ .insertDeliveries c updated)
      (hpc' : ∀ c updated hooks, pc ≠ .commit c updated hooks) : StageStep w w' pc .none
  /-- The event of the credit is written, under a new id. -/
  | record {e : PaymentEvent} (hpc : pc.stage = .none) (hsame : SameRows w.db w'.db)
      (hnew : ∀ x ∈ w.db.paymentEvents, x.id < e.id)
      (hmem : ∀ x, x ∈ w'.db.paymentEvents ↔ x ∈ w.db.paymentEvents ∨ x = e) :
      StageStep w w' pc (.held e.id)
  | keep {stage : Stage} (hpc : pc.stage = stage) (hw : w' = w)
      (hins : ∀ c updated, pc ≠ .insertDeliveries c updated)
      (hcommit : ∀ c updated hooks, pc ≠ .commit c updated hooks) : StageStep w w' pc stage
  | insert {c : Credit} {updated : Bool} (hpc : pc = .insertDeliveries c updated) (hw : w' = w) :
      StageStep w w' pc
        (.inserted ⟨c, subscribers w.db c.inv.merchantId "invoice.paid"⟩)
  | commit {c : Credit} {updated : Bool} {hooks : List Uuid} (hpc : pc = .commit c updated hooks)
      (hdb : w'.db = commitCredit w.db c updated hooks) : StageStep w w' pc .none

section Stages

variable {env : Env} {now : Timestamp} {locked : Uuid → Bool} {w w' : World}
  {payment : HorizonPayment}

theorem SameRows.refl (db : Db) : SameRows db db := ⟨rfl, rfl, rfl⟩

theorem sameRows_insertPaymentEvent {db db' : Db} {invoiceId : Option Uuid} {ofacResult : String}
    {eventId : Nat}
    (h : insertPaymentEvent env now db payment invoiceId ofacResult = some (db', eventId)) :
    SameRows db db' ∧ ∃ e : PaymentEvent, e.id = eventId ∧
      (∀ x ∈ db.paymentEvents, x.id < eventId) ∧
      ∀ x, x ∈ db'.paymentEvents ↔ x ∈ db.paymentEvents ∨ x = e := by
  obtain ⟨-, e, hid, -, hnew, hmem, hdb⟩ := insertPaymentEvent_some h
  exact ⟨⟨by rw [hdb], by rw [hdb], by rw [hdb]⟩, e, hid, hnew, hmem⟩

/-- Outside the phases of a credit nothing is prepared. -/
theorem Next.stage_eq_none {next : Next} (h : next.phase.exposed = false) :
    next.stage = .none := by
  cases next with
  | ret ok => rfl
  | goto pc => cases pc <;> first | rfl | cases h

/-- A statement outside the phases of a credit: it leaves the tables alone, and the
only credit that it may begin is one whose event it records. -/
theorem PhaseStep.stageStep {pc : Pc} {next : Next}
    (h : PhaseStep env now locked payment w pc.phase w' next.phase)
    (hpc : pc.phase.exposed = false) : StageStep w w' pc next.stage := by
  have hgoto : (Next.goto pc).phase.exposed = false := hpc
  have hstage : pc.stage = .none := Next.stage_eq_none hgoto
  have hins : ∀ c updated, pc ≠ .insertDeliveries c updated := by
    rintro c updated rfl
    cases hpc
  have hcommit : ∀ c updated hooks, pc ≠ .commit c updated hooks := by
    rintro c updated hooks rfl
    cases hpc
  have hclear : next.phase.exposed = false → SameRows w.db w'.db →
      (∀ e ∈ w.db.paymentEvents, e ∈ w'.db.paymentEvents) → StageStep w w' pc next.stage := by
    intro hnext hsame hevents
    rw [Next.stage_eq_none hnext]
    exact .clear hsame hevents hins hcommit
  generalize hph : pc.phase = ph at h hpc
  generalize hph' : next.phase = ph' at h hclear
  cases h with
  | look hdb | reject hdb =>
    exact hclear rfl (hdb ▸ .refl _) fun e he => by rwa [hdb]
  | skip | found | publish | finish | fail => exact hclear rfl ⟨rfl, rfl, rfl⟩ fun _ h => h
  | log hlog =>
    obtain ⟨hsame, e, -, -, hmem⟩ := sameRows_insertPaymentEvent hlog
    exact hclear rfl hsame fun x hx => (hmem x).mpr (.inl hx)
  | record hrecord =>
    obtain ⟨hsame, e, rfl, hnew, hmem⟩ := sameRows_insertPaymentEvent hrecord
    have hnext : next.stage = .held e.id := by
      cases next with
      | ret ok => cases hph'
      | goto pc' =>
        cases pc' with
        | insertEvent ofac invoice => cases invoice <;> cases hph'
        | _ =>
          cases hph'
          try rfl
    rw [hnext]
    exact .record hstage hsame hnew hmem
  | begin | write | lock | miss | commit => cases hpc

/-- **Every statement is a stage step.** -/
theorem exec_stageStep {pc : Pc} {next : Next}
    (h : exec env now locked w payment pc = some (w', next)) : StageStep w w' pc next.stage := by
  cases pc with
  | beginTx inv eventId | insertLedger c =>
    cases h
    exact .keep rfl rfl (by simp) (by simp)
  | updateInvoice c =>
    simp only [exec] at h
    split at h
    · split at h <;> cases h
      exact .keep rfl rfl (by simp) (by simp)
    · cases h
      exact .keep rfl rfl (by simp) (by simp)
  | insertDeliveries c updated =>
    cases h
    exact .insert rfl rfl
  | insertLinkEvent c updated hooks =>
    cases h
    exact .keep rfl rfl (by simp) (by simp)
  | commit c updated hooks =>
    cases h
    exact .commit rfl rfl
  | insertEvent ofac invoice =>
    cases invoice with
    | none => exact (exec_phaseStep h).stageStep rfl
    | some inv => exact (exec_phaseStep h).stageStep rfl
  | eventExists | screenGet | screenSet | insertBlocked | selectMuxed | selectMemo
  | insertMismatch | publish | saveCursor => exact (exec_phaseStep h).stageStep rfl

end Stages

/-! ## A fixture -/

/-- The merchant of the tests has one webhook, subscribed to these events. -/
def subscribedTo (events : List String) : Sys 1 1 where
  world := { db := { seedDb (seedInvoice 1 99099) with
    merchants := ⟨[{
      id := 1, name := "Merchant", tier := .standard, feeBps := 100,
      feeFixedUsdc := ⟨0, Numeric.inRange_zero⟩, muxedBaseId := none, invoiceSeq := 1,
      minInvoiceUsdc := none, maxInvoiceUsdc := none,
      dailySpendLimitUsdc := none, monthlySpendLimitUsdc := none, acceptedAssets := none,
      settlementScheduledAt := none, unpaidInvoiceTtlMinutes := 60, testMode := false,
      createdAt := 0 }], List.pairwise_singleton _ _⟩
    webhooks := ⟨[⟨7, 1, events, true⟩], List.pairwise_singleton _ _⟩ } }

end Stargate.Reconciler
