import Stargate.Reconciler.Recipients

/-!
# What documents say

A delivery is queued after what it tells has been committed, or with it: `process_payment`
queues `invoice.paid` in the transaction of the ledger row, the cron jobs dispatch what their
`UPDATE` has returned. Nothing that a document tells is undone later.

- `Evident`: what a document says can be read in the tables;
- `Lasts`: what no step takes away, `lasts_step`;
- `evidence_step`: every step keeps documents evident, with those that calls are still to queue.

That an invoice was paid is in the ledger. Its own row may say otherwise, where it was expired
or cancelled between the two.
-/

namespace Stargate.Reconciler

open Base Invoices

/-- What the document says can be read in the tables. -/
def Evident (db : Db) : Payload → Prop
  | .invoicePaid invoiceId eventId => ∃ l ∈ db.ledgerEntries,
      l.type = .payment ∧ l.invoiceId = invoiceId ∧ l.eventId = eventId ∧
        Owns db l.merchantId invoiceId
  | .expired invoiceId _ _ =>
    HasStatus db invoiceId .expired ∨ HasStatus db invoiceId .cancelled
  | .cancelled invoiceId _ _ => HasStatus db invoiceId .cancelled

/-- Paid, expired and cancelled invoices stay as they are, and ledger rows are kept. -/
structure Lasts (db db' : Db) : Prop where
  later : Later db db'
  ledger : ∀ l ∈ db.ledgerEntries, l ∈ db'.ledgerEntries

section Evident

variable {db db' : Db} {payload : Payload}

theorem Evident.lasts (h : Evident db payload) (hlasts : Lasts db db') : Evident db' payload := by
  cases payload with
  | invoicePaid invoiceId eventId =>
    obtain ⟨l, hl, htype, hid, hevent, i, hi, hiid, hmerchant⟩ := h
    obtain ⟨i', hi', hid', hmerchant'⟩ := hlasts.later.kept i hi
    exact ⟨l, hlasts.ledger l hl, htype, hid, hevent, i', hi', hid'.trans hiid,
      hmerchant'.trans hmerchant⟩
  | expired => exact h.imp (·.later hlasts.later rfl) (·.later hlasts.later rfl)
  | cancelled => exact h.later hlasts.later rfl

/-- The documents of a credit, and its ledger row. -/
theorem evident_commit {c : Credit} {updated : Bool} {hooks : List Uuid} {webhookId : Uuid}
    (howns : Owns (commitCredit db c updated hooks) c.inv.merchantId c.inv.id) :
    Evident (commitCredit db c updated hooks) (c.delivery webhookId).payload :=
  ⟨_, mem_ledger_commitCredit.mpr (.inr rfl), rfl, rfl, rfl, howns⟩

/-- The documents of `expireInvoices`, after its `UPDATE`. -/
theorem evident_expire {p : Invoice → Bool} {now : Timestamp} {d : Dispatch}
    (hd : d ∈ expireDispatches now (affected db p)) :
    Evident (setStatus db p .expired) d.payload := by
  obtain ⟨i, hi, rfl⟩ := List.mem_map.mp hd
  exact .inl (hasStatus_setStatus hi)

/-- The documents of `autoCancelUnpaidInvoices`, after its `UPDATE`. -/
theorem evident_autoCancel {p : Invoice → Bool} {now : Timestamp} {d : Dispatch}
    (hd : d ∈ autoCancelDispatches now (affected db p)) :
    Evident (setStatus db p .cancelled) d.payload := by
  obtain ⟨i, hi, hd⟩ := List.mem_flatMap.mp hd
  rcases List.mem_cons.mp hd with rfl | hd
  · exact .inr (hasStatus_setStatus hi)
  · obtain rfl := List.mem_singleton.mp hd
    exact hasStatus_setStatus hi

/-- A statement of an API call queues what the call has announced, and keeps the rest for later. -/
theorem ApiMoves.documents {call call' : ApiCall} (h : ApiMoves db call db' call') :
    (∀ d ∈ unfinished call', d ∈ unfinished call) ∧
      ∀ d ∈ db'.webhookDeliveries, d ∈ db.webhookDeliveries ∨
        ∃ x ∈ unfinished call, x.payload = d.payload := by
  cases h with
  | select => exact ⟨fun _ => id, fun _ => .inl⟩
  | @insert d hook hooks todo =>
    refine ⟨fun _ => id, fun x hx => (List.mem_append.mp hx).imp_right fun hx => ?_⟩
    obtain rfl := List.mem_singleton.mp hx
    exact ⟨d, List.mem_cons_self, rfl⟩
  | next => exact ⟨fun _ => List.mem_cons_of_mem _, fun _ => .inl⟩
  | commit => exact ⟨fun _ hd => absurd hd List.not_mem_nil, fun _ => .inl⟩
  | quiet hquiet =>
    refine ⟨fun d hd => ?_, fun _ => .inl⟩
    rcases hquiet with rfl | hpartial
    · cases hd
    · cases call' with
      | idle | selectHooks | insertDelivery => cases hpartial
      | partialSelect | partialUpdate | partialCommit => cases hd

end Evident

/-! ## Every run -/

/-- What is queued is evident, and so is what calls are still to queue. -/
structure Evidence {n m : Nat} (s : Sys n m) : Prop where
  sound : s.Sound
  rows : s.RowsOk fun _ => True
  aims : Aims s
  deliveries : ∀ d ∈ s.world.db.webhookDeliveries, Evident s.world.db d.payload
  apis : ∀ k, ∀ d ∈ unfinished (s.apis k), Evident s.world.db d.payload

section Runs

variable {n m : Nat} {env : Env} {s s' t : Sys n m} {run : List (Request n m)}

/-- **No step takes back what was committed.** -/
theorem lasts_step {a : Request n m} (hsound : s.Sound) (hrows : s.RowsOk fun _ => True)
    (hstep : (platform env n m).step s a = some s') :
    s'.Sound ∧ s'.RowsOk (fun _ => True) ∧ Lasts s.world.db s'.world.db := by
  rcases platform_cases hstep with ⟨b, rfl, hsys⟩ | ⟨-, haside⟩
  · obtain ⟨heffect, hsound'⟩ := step_effect hsound hsys
    obtain ⟨hrows', hstepped⟩ := rows_step (C := fun _ => True) hsound hrows
      (admits_of_forall fun _ _ => trivial) hsys
    exact ⟨hsound', hrows', later_of_stepped heffect hstepped, heffect.grows.1⟩
  · refine ⟨hsound.world haside.calls haside.apis, ?_, .of_invoices haside.invoices, ?_⟩
    · exact hrows.world (fun i hi _ => by rwa [haside.invoices]) haside.calls haside.apis
    · rw [haside.db]
      exact fun _ hl => hl

/-- A step of the system. -/
theorem Evidence.system {a : Label n m} (h : Evidence s) (hlasts : Lasts s.world.db s'.world.db)
    (hstep : (system env n m).step s a = some s') :
    (∀ d ∈ s'.world.db.webhookDeliveries, Evident s'.world.db d.payload) ∧
      ∀ k, ∀ d ∈ unfinished (s'.apis k), Evident s'.world.db d.payload := by
  have hold : ∀ d ∈ s.world.db.webhookDeliveries, Evident s'.world.db d.payload :=
    fun d hd => (h.deliveries d hd).lasts hlasts
  have happis : ∀ k, ∀ d ∈ unfinished (s.apis k), Evident s'.world.db d.payload :=
    fun k d hd => (h.apis k d hd).lasts hlasts
  have hset : ∀ (k : Fin m) (c : ApiCall), (∀ d ∈ unfinished c, Evident s'.world.db d.payload) →
      ∀ j, ∀ d ∈ unfinished (Function.update s.apis k c j), Evident s'.world.db d.payload :=
    fun k c hc => forall_update (P := fun _ c => ∀ d ∈ unfinished c, Evident s'.world.db d.payload)
      hc fun j _ => happis j
  cases step_spec hstep with
  | deliver | abort | redis | create => exact ⟨hold, happis⟩
  | @exec k now payment pc w next hrun hexec =>
    refine ⟨fun d hd => ?_, happis⟩
    rcases exec_commits hexec with ⟨-, hsame⟩ | ⟨c, updated, hooks, rfl, hdb⟩
    · exact hold d (hsame ▸ hd)
    · have hclaim := (h.aims.calls k).owns c.inv (by rw [hrun]; rfl)
      rw [hdb] at hd hold hlasts ⊢
      rcases List.mem_append.mp hd with hd | hd
      · exact hold d hd
      · obtain ⟨hook, -, rfl⟩ := List.mem_map.mp hd
        exact evident_commit (hclaim.keeps still_commitCredit.keeps)
  | cancel hupd =>
    obtain rfl := Sys.update_eq hupd
    exact ⟨hold, happis⟩
  | expire _ hupd =>
    obtain rfl := Sys.update_eq hupd
    exact ⟨hold, hset _ _ fun d => evident_expire⟩
  | autoCancel _ hupd =>
    obtain rfl := Sys.update_eq hupd
    exact ⟨hold, hset _ _ fun d => evident_autoCancel⟩
  | applyPartial | apiAbort => exact ⟨hold, hset _ _ fun d hd => absurd hd List.not_mem_nil⟩
  | @api k now db call hexec =>
    obtain ⟨hrest, hnew⟩ := (apiMoves_of_exec hexec).documents
    refine ⟨fun d hd => ?_, hset _ _ fun d hd => happis k d (hrest d hd)⟩
    rcases hnew d hd with hd | ⟨x, hx, hpayload⟩
    · exact hold d hd
    · exact hpayload ▸ happis k x hx

/-- **Every step keeps documents evident.** -/
theorem evidence_step {a : Request n m} (h : Evidence s)
    (hstep : (platform env n m).step s a = some s') : Evidence s' := by
  obtain ⟨hsound, hrows, hlasts⟩ := lasts_step h.sound h.rows hstep
  have haims := aims_step h.aims hstep
  rcases platform_cases hstep with ⟨b, rfl, hsys⟩ | ⟨-, haside⟩
  · obtain ⟨hdeliveries, hapis⟩ := h.system hlasts hsys
    exact ⟨hsound, hrows, haims, hdeliveries, hapis⟩
  · refine ⟨hsound, hrows, haims, fun d hd => ?_, fun k d hd => ?_⟩
    · exact (h.deliveries d (haside.deliveries ▸ hd)).lasts hlasts
    · exact (h.apis k d (haside.apis ▸ hd)).lasts hlasts

/-- Nothing runs, and nothing is queued. -/
theorem evidence_of_idle (hidle : s.Idle) (hempty : s.world.db.webhookDeliveries = []) :
    Evidence s where
  sound := hidle.sound
  rows := hidle.rowsOk
  aims := aims_of_idle hidle (by simp [hempty])
  deliveries := by simp [hempty]
  apis k := by
    rw [hidle.apis k]
    exact fun d hd => absurd hd List.not_mem_nil

end Runs

end Stargate.Reconciler
