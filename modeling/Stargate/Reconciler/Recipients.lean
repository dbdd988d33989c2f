import Stargate.Reconciler.Announcements

/-!
# Who is told, and of what

A delivery is queued by the reconciler, for the webhooks that its transaction has
selected, or by a cron job, for those that `dispatchEvent` has selected a statement
earlier. In between webhooks are registered and deactivated, and invoices change.

- `Aimed`: a delivery to a webhook that has asked for the event, about an invoice of its
  own merchant;
- `Keeps`: what no step takes away, `keeps_step`;
- `aims_step`: every step keeps deliveries aimed, with what calls are still to queue.

The cron jobs announce an expiry under a name that `create` does not accept from a
merchant, so that no run queues a delivery about one (`expiry_untold`).
-/

namespace Stargate.Reconciler

open Base Invoices

/-- The event under which a document is queued. -/
def eventOf : Payload → String
  | .invoicePaid _ _ => "invoice.paid"
  | .expired _ _ _ => "merchant.payment_intent.expired"
  | .cancelled _ _ _ => "invoice.cancelled"

/-- The webhook is one of the merchant, and has asked for the event. -/
def Subscribed (db : Db) (merchantId : Uuid) (eventType : String) (webhookId : Uuid) : Prop :=
  ∃ h ∈ db.webhooks, h.id = webhookId ∧ h.merchantId = merchantId ∧ eventType ∈ h.events

/-- The invoice is one of the merchant. -/
def Owns (db : Db) (merchantId invoiceId : Uuid) : Prop :=
  ∃ i ∈ db.invoices, i.id = invoiceId ∧ i.merchantId = merchantId

/-- A delivery to a webhook that has asked for the event, about an invoice of the same
merchant. -/
def Aimed (db : Db) (d : WebhookDelivery) : Prop :=
  d.eventType = eventOf d.payload ∧ ∃ merchantId,
    Subscribed db merchantId d.eventType d.webhookId ∧ Owns db merchantId (invoiceOf d.payload)

/-- A dispatch to the merchant of the invoice that it is about. -/
def Meant (db : Db) (d : Dispatch) : Prop :=
  d.eventType = eventOf d.payload ∧ Owns db d.merchantId (invoiceOf d.payload)

/-- What an API call is still to queue is meant for its merchants, and the webhooks that it has
selected are theirs. -/
def ApiAims (db : Db) : ApiCall → Prop
  | .selectHooks todo => ∀ d ∈ todo, Meant db d
  | .insertDelivery d hooks todo =>
    Meant db d ∧ (∀ hook ∈ hooks, Subscribed db d.merchantId d.eventType hook) ∧
      ∀ d ∈ todo, Meant db d
  | _ => True

/-- The invoice that a reconciler process has matched is stored, and the webhooks that its
transaction has selected are those of the invoice's merchant. -/
structure CallAims (db : Db) (call : Call) : Prop where
  owns : ∀ inv, call.phase.claim = some inv → Owns db inv.merchantId inv.id
  hooks : ∀ p, call.stage = .inserted p →
    ∀ hook ∈ p.hooks, Subscribed db p.credit.inv.merchantId "invoice.paid" hook

/-- What a statement of an API call does. -/
inductive ApiMoves (db : Db) : ApiCall → Db → ApiCall → Prop
  | select {d : Dispatch} {todo : List Dispatch} :
      ApiMoves db (.selectHooks (d :: todo)) db
        (.insertDelivery d (subscribers db d.merchantId d.eventType) todo)
  | insert {d : Dispatch} {hook : Uuid} {hooks : List Uuid} {todo : List Dispatch} :
      ApiMoves db (.insertDelivery d (hook :: hooks) todo)
        { db with
          webhookDeliveries := db.webhookDeliveries ++ [⟨hook, d.eventType, d.payload⟩] }
        (.insertDelivery d hooks todo)
  | next {d : Dispatch} {todo : List Dispatch} :
      ApiMoves db (.insertDelivery d [] todo) db (.selectHooks todo)
  | commit {row : Invoice} : ApiMoves db (.partialCommit row) (commitPartial db row) .idle
  /-- Nothing is written, and nothing is left to queue. -/
  | quiet {call call' : ApiCall} (h : call' = .idle ∨ isPartial call' = true) :
      ApiMoves db call db call'

theorem apiMoves_of_exec {now : Timestamp} {locked : Uuid → Bool} {db db' : Db}
    {call call' : ApiCall} (h : call.exec now locked db = some (db', call')) :
    ApiMoves db call db' call' := by
  cases call with
  | idle => cases h
  | selectHooks todo =>
    cases todo <;> cases h
    · exact .quiet (.inl rfl)
    · exact .select
  | insertDelivery d hooks todo =>
    cases hooks <;> cases h
    · exact .next
    · exact .insert
  | partialSelect invoiceId paidAmount =>
    simp only [ApiCall.exec] at h
    split at h
    · cases h
      exact .quiet (.inl rfl)
    · split at h
      · cases h
      · split at h <;> cases h
        · exact .quiet (.inr rfl)
        · exact .quiet (.inl rfl)
  | partialUpdate invoice paidAmount remaining start =>
    simp only [ApiCall.exec] at h
    split at h <;> cases h
    · exact .quiet (.inr rfl)
    · exact .quiet (.inl rfl)
  | partialCommit row =>
    cases h
    exact .commit

/-! ## What no step takes away -/

/-- Webhooks and invoices stay with their merchants, and webhooks with their events. -/
structure Keeps (db db' : Db) : Prop where
  webhooks : ∀ h ∈ db.webhooks, ∃ h' ∈ db'.webhooks,
    h'.id = h.id ∧ h'.merchantId = h.merchantId ∧ h'.events = h.events
  invoices : ∀ i ∈ db.invoices, ∃ i' ∈ db'.invoices, i'.id = i.id ∧ i'.merchantId = i.merchantId

/-- The same, and the webhooks are not touched at all. -/
structure Still (db db' : Db) : Prop where
  webhooks : db'.webhooks = db.webhooks
  invoices : ∀ i ∈ db.invoices, ∃ i' ∈ db'.invoices, i'.id = i.id ∧ i'.merchantId = i.merchantId

section Keeps

variable {n m : Nat} {env : Env} {db db' : Db} {merchantId id : Uuid} {eventType : String}

theorem Still.of_eq (hwebhooks : db'.webhooks = db.webhooks)
    (hinvoices : db'.invoices = db.invoices) : Still db db' :=
  ⟨hwebhooks, fun i hi => ⟨i, hinvoices ▸ hi, rfl, rfl⟩⟩

theorem Still.keeps (h : Still db db') : Keeps db db' :=
  ⟨fun x hx => ⟨x, h.webhooks ▸ hx, rfl, rfl, rfl⟩, h.invoices⟩

theorem Keeps.of_webhooks (hinvoices : db'.invoices = db.invoices)
    (h : ∀ h ∈ db.webhooks, ∃ h' ∈ db'.webhooks,
      h'.id = h.id ∧ h'.merchantId = h.merchantId ∧ h'.events = h.events) : Keeps db db' :=
  ⟨h, fun i hi => ⟨i, hinvoices ▸ hi, rfl, rfl⟩⟩

theorem Subscribed.keeps (h : Subscribed db merchantId eventType id) (hkeeps : Keeps db db') :
    Subscribed db' merchantId eventType id := by
  obtain ⟨x, hx, hid, hm, he⟩ := h
  obtain ⟨x', hx', hid', hm', he'⟩ := hkeeps.webhooks x hx
  exact ⟨x', hx', hid'.trans hid, hm'.trans hm, he' ▸ he⟩

theorem Owns.keeps (h : Owns db merchantId id) (hkeeps : Keeps db db') :
    Owns db' merchantId id := by
  obtain ⟨i, hi, hid, hm⟩ := h
  obtain ⟨i', hi', hid', hm'⟩ := hkeeps.invoices i hi
  exact ⟨i', hi', hid'.trans hid, hm'.trans hm⟩

theorem Aimed.keeps {d : WebhookDelivery} (h : Aimed db d) (hkeeps : Keeps db db') :
    Aimed db' d := by
  obtain ⟨htype, merchantId, hsub, howns⟩ := h
  exact ⟨htype, merchantId, hsub.keeps hkeeps, howns.keeps hkeeps⟩

theorem Meant.keeps {d : Dispatch} (h : Meant db d) (hkeeps : Keeps db db') : Meant db' d :=
  ⟨h.1, h.2.keeps hkeeps⟩

theorem ApiAims.keeps {call : ApiCall} (h : ApiAims db call) (hkeeps : Keeps db db') :
    ApiAims db' call := by
  cases call with
  | selectHooks todo => exact fun d hd => (h d hd).keeps hkeeps
  | insertDelivery d hooks todo =>
    obtain ⟨hd, hhooks, htodo⟩ := h
    exact ⟨hd.keeps hkeeps, fun hook hmem => (hhooks hook hmem).keeps hkeeps,
      fun d hmem => (htodo d hmem).keeps hkeeps⟩
  | _ => trivial

theorem CallAims.keeps {call : Call} (h : CallAims db call) (hkeeps : Keeps db db') :
    CallAims db' call :=
  ⟨fun inv hinv => (h.owns inv hinv).keeps hkeeps,
    fun p hp hook hmem => (h.hooks p hp hook hmem).keeps hkeeps⟩

/-- An `UPDATE` of invoices that leaves ids and merchants alone. -/
theorem still_modify {p : Invoice → Bool} {f : Invoice → Invoice}
    {hf : ∀ i, Keyed.key (f i) = Keyed.key i}
    (hkeep : ∀ i, (f i).id = i.id ∧ (f i).merchantId = i.merchantId) :
    Still db { db with invoices := db.invoices.modify p f hf } := by
  refine ⟨rfl, fun i hi => ⟨_, (Table.mem_modify hf).mpr ⟨i, hi, rfl⟩, ?_⟩⟩
  split
  · exact hkeep i
  · exact ⟨rfl, rfl⟩

theorem still_setStatus (p : Invoice → Bool) (status : InvoiceStatus) :
    Still db (setStatus db p status) :=
  still_modify fun _ => ⟨rfl, rfl⟩

theorem still_commitCredit {c : Credit} {updated : Bool} {hooks : List Uuid} :
    Still db (commitCredit db c updated hooks) := by
  refine ⟨rfl, fun i hi => ⟨_, mem_invoices_commitCredit.mpr ⟨i, hi, rfl⟩, ?_⟩⟩
  split <;> exact ⟨rfl, rfl⟩

/-- A statement of a reconciler process. -/
theorem PhaseStep.still {now : Timestamp} {locked : Uuid → Bool} {payment : HorizonPayment}
    {w w' : World} {ph ph' : Phase} (h : PhaseStep env now locked payment w ph w' ph') :
    Still w.db w'.db := by
  cases h with
  | look hdb | reject hdb => exact .of_eq (by rw [hdb]) (by rw [hdb])
  | log hlog | record hlog =>
    obtain ⟨-, -, -, -, -, -, hdb⟩ := insertPaymentEvent_some hlog
    exact .of_eq (by rw [hdb]) (by rw [hdb])
  | commit => exact still_commitCredit
  | _ => exact .of_eq rfl rfl

/-- A statement of an API call. -/
theorem ApiMoves.still {call call' : ApiCall} (h : ApiMoves db call db' call') : Still db db' := by
  cases h with
  | commit => exact still_modify fun _ => ⟨rfl, rfl⟩
  | select | insert | next | quiet => exact .of_eq rfl rfl

/-- The reconciler, the cron jobs and the calls about invoices do not touch webhooks. -/
theorem still_step {s s' : Sys n m} {a : Label n m}
    (hstep : (system env n m).step s a = some s') : Still s.world.db s'.world.db := by
  cases step_spec hstep with
  | exec _ hexec => exact (exec_phaseStep hexec).still
  | create _ hrow =>
    exact ⟨rfl, fun i hi => ⟨i, (Table.mem_of_insert? hrow i).mpr (.inl hi), rfl, rfl⟩⟩
  | cancel hupd | expire _ hupd | autoCancel _ hupd =>
    obtain rfl := Sys.update_eq hupd
    exact still_setStatus _ _
  | api hexec => exact (apiMoves_of_exec hexec).still
  | deliver | abort | redis | applyPartial | apiAbort => exact .of_eq rfl rfl

/-- **No step takes a webhook or an invoice from its merchant.** -/
theorem keeps_step {s s' : Sys n m} {a : Request n m}
    (hstep : (platform env n m).step s a = some s') : Keeps s.world.db s'.world.db := by
  cases a with
  | system a => exact (still_step hstep).keeps
  | createWebhook merchantId events =>
    cases hstep
    exact .of_webhooks rfl fun h hh => ⟨h, hh, rfl, rfl, rfl⟩
  | storeWebhook id merchantId events =>
    obtain ⟨db, hins, rfl⟩ := Option.map_eq_some_iff.mp hstep
    unfold Webhooks.store at hins
    split at hins
    · obtain ⟨webhooks, hrow, rfl⟩ := Option.map_eq_some_iff.mp hins
      exact .of_webhooks rfl fun h hh =>
        ⟨h, (Table.mem_of_insert? hrow h).mpr (.inl hh), rfl, rfl, rfl⟩
    · cases hins
  | deactivateWebhook merchantId id =>
    cases hstep
    refine .of_webhooks rfl fun h hh => ⟨_, List.mem_map.mpr ⟨h, hh, rfl⟩, ?_⟩
    split <;> exact ⟨rfl, rfl, rfl⟩
  | trackView | trackAttempt =>
    obtain ⟨db, htrack, rfl⟩ := Option.map_eq_some_iff.mp hstep
    obtain ⟨i, -, rfl⟩ := Option.map_eq_some_iff.mp htrack
    exact .of_webhooks rfl fun h hh => ⟨h, hh, rfl, rfl, rfl⟩

end Keeps

/-! ## What calls are still to queue -/

section Calls

variable {env : Env} {now : Timestamp} {locked : Uuid → Bool} {db db' : Db}

/-- The webhooks that `dispatchEvent` selects. -/
theorem subscribed_of_mem {merchantId hook : Uuid} {eventType : String}
    (h : hook ∈ subscribers db merchantId eventType) : Subscribed db merchantId eventType hook := by
  obtain ⟨x, hx, rfl⟩ := List.mem_map.mp h
  obtain ⟨hmem, hp⟩ := List.mem_filter.mp hx
  simp only [Bool.and_eq_true, beq_iff_eq, List.contains_iff_mem] at hp
  exact ⟨x, hmem, rfl, hp.1.1, hp.2⟩

/-- A statement of a reconciler process. -/
theorem CallAims.exec {w w' : World} {payment : HorizonPayment} {pc : Pc} {next : Next}
    (h : CallAims w.db (.running payment pc))
    (hexec : exec env now locked w payment pc = some (w', next)) :
    CallAims w'.db (next.call payment) := by
  have hphase := exec_phaseStep hexec
  have hstage := exec_stageStep hexec
  have hkeeps := hphase.still.keeps
  have howns : ∀ inv, pc.phase.claim = some inv → Owns w.db inv.merchantId inv.id := h.owns
  refine ⟨fun inv hinv => .keeps ?_ hkeeps, fun p hp hook hmem => .keeps ?_ hkeeps⟩
  · rw [Next.phase_call] at hinv
    generalize pc.phase = ph at hphase howns
    generalize next.phase = ph' at hphase hinv
    cases hphase with
    | found hi =>
      cases hinv
      exact ⟨_, hi, rfl, rfl⟩
    | record | begin | write | lock | miss =>
      cases hinv
      exact howns _ rfl
    | _ => cases hinv
  · rw [Next.stage_call] at hp
    rw [hp] at hstage
    cases hstage with
    | keep hpc => exact h.hooks p hpc hook hmem
    | insert => exact subscribed_of_mem hmem

/-- The deliveries that a credit commits. -/
theorem aimed_commit {payment : HorizonPayment} {c : Credit} {updated : Bool} {hooks : List Uuid}
    (h : CallAims db (.running payment (.commit c updated hooks))) :
    ∀ d ∈ hooks.map c.delivery, Aimed db d := by
  intro d hd
  obtain ⟨hook, hmem, rfl⟩ := List.mem_map.mp hd
  exact ⟨rfl, c.inv.merchantId, h.hooks ⟨c, hooks⟩ rfl hook hmem, h.owns c.inv rfl⟩

/-- A statement of an API call. -/
theorem ApiAims.moves {call call' : ApiCall} (h : ApiAims db call)
    (hmoves : ApiMoves db call db' call') :
    ApiAims db' call' ∧
      ∀ d ∈ db'.webhookDeliveries, d ∈ db.webhookDeliveries ∨ Aimed db' d := by
  have hkeeps := hmoves.still.keeps
  cases hmoves with
  | select =>
    obtain ⟨hd, htodo⟩ := List.forall_mem_cons.mp h
    exact ⟨⟨hd, fun hook => subscribed_of_mem, htodo⟩, fun d => .inl⟩
  | @insert d hook hooks todo =>
    obtain ⟨hd, hhooks, htodo⟩ := h
    obtain ⟨hhook, hhooks⟩ := List.forall_mem_cons.mp hhooks
    have haims : ApiAims db (.insertDelivery d hooks todo) := ⟨hd, hhooks, htodo⟩
    refine ⟨haims.keeps hkeeps, fun x hx => (List.mem_append.mp hx).imp_right fun hx => ?_⟩
    obtain rfl := List.mem_singleton.mp hx
    exact Aimed.keeps ⟨hd.1, d.merchantId, hhook, hd.2⟩ hkeeps
  | next =>
    obtain ⟨-, -, htodo⟩ := h
    exact ⟨htodo, fun d => .inl⟩
  | commit => exact ⟨trivial, fun d => .inl⟩
  | quiet hquiet =>
    refine ⟨?_, fun d => .inl⟩
    rcases hquiet with rfl | hpartial
    · trivial
    · cases call' <;> trivial

/-- The dispatches of `expireInvoices` are for the merchants of the rows. -/
theorem apiAims_expire (p : Invoice → Bool) :
    ApiAims db (.selectHooks (expireDispatches now (affected db p))) := by
  intro d hd
  obtain ⟨i, hi, rfl⟩ := List.mem_map.mp hd
  exact ⟨rfl, i, (mem_affected.mp hi).1, rfl, rfl⟩

/-- The dispatches of `autoCancelUnpaidInvoices` are for the merchants of the rows. -/
theorem apiAims_autoCancel (p : Invoice → Bool) :
    ApiAims db (.selectHooks (autoCancelDispatches now (affected db p))) := by
  intro d hd
  obtain ⟨i, hi, hd⟩ := List.mem_flatMap.mp hd
  have howns : Owns db i.merchantId i.id := ⟨i, (mem_affected.mp hi).1, rfl, rfl⟩
  rcases List.mem_cons.mp hd with rfl | hd
  · exact ⟨rfl, howns⟩
  · obtain rfl := List.mem_singleton.mp hd
    exact ⟨rfl, howns⟩

end Calls

/-! ## Every run -/

/-- What is queued is aimed, and so is what the calls are still to queue. -/
structure Aims {n m : Nat} (s : Sys n m) : Prop where
  deliveries : ∀ d ∈ s.world.db.webhookDeliveries, Aimed s.world.db d
  calls : ∀ k, CallAims s.world.db (s.calls k)
  apis : ∀ k, ApiAims s.world.db (s.apis k)

section Runs

variable {n m : Nat} {env : Env} {s s' t : Sys n m} {run : List (Request n m)}

/-- A call without an invoice. -/
theorem callAims_of_none {db : Db} {call : Call} (hclaim : call.phase.claim = none)
    (hstage : call.stage = .none) : CallAims db call where
  owns inv hinv := by
    rw [hclaim] at hinv
    cases hinv
  hooks p hp := by
    rw [hstage] at hp
    cases hp

/-- A step that queues nothing, and after which the calls are as before or aimed. -/
theorem Aims.silent (h : Aims s) (hkeeps : Keeps s.world.db s'.world.db)
    (hdeliveries : s'.world.db.webhookDeliveries = s.world.db.webhookDeliveries)
    (hcalls : ∀ k, s'.calls k = s.calls k ∨ CallAims s'.world.db (s'.calls k))
    (hapis : ∀ k, s'.apis k = s.apis k ∨ ApiAims s'.world.db (s'.apis k)) : Aims s' where
  deliveries d hd := (h.deliveries d (hdeliveries ▸ hd)).keeps hkeeps
  calls k := (hcalls k).elim (fun heq => heq ▸ (h.calls k).keeps hkeeps) id
  apis k := (hapis k).elim (fun heq => heq ▸ (h.apis k).keeps hkeeps) id

/-- A statement of a reconciler process. -/
theorem Aims.exec {k : Fin n} {now : Timestamp} {payment : HorizonPayment} {pc : Pc} {next : Next}
    (h : Aims s) (hrun : s.calls k = .running payment pc)
    (hexec : exec env now (s.lockedFor (some (.inl k))) s.world payment pc
      = some (s'.world, next))
    (hcalls : s'.calls = Function.update s.calls k (next.call payment))
    (hapis : s'.apis = s.apis) : Aims s' := by
  have hcall := h.calls k
  rw [hrun] at hcall
  have hkeeps := (exec_phaseStep hexec).still.keeps
  refine ⟨fun d hd => ?_, ?_, fun j => hapis ▸ (h.apis j).keeps hkeeps⟩
  · rcases exec_commits hexec with ⟨-, hdeliveries⟩ | ⟨c, updated, hooks, rfl, hdb⟩
    · exact (h.deliveries d (hdeliveries ▸ hd)).keeps hkeeps
    · rw [hdb, commitCredit, List.mem_append] at hd
      exact (hd.elim (h.deliveries d) (aimed_commit hcall d)).keeps hkeeps
  · rw [hcalls]
    exact forall_update (P := fun _ c => CallAims s'.world.db c) (hcall.exec hexec)
      fun j _ => (h.calls j).keeps hkeeps

/-- **Every step keeps deliveries aimed.** -/
theorem aims_step {a : Request n m} (h : Aims s)
    (hstep : (platform env n m).step s a = some s') : Aims s' := by
  have hkeeps := keeps_step hstep
  rcases platform_cases hstep with ⟨b, rfl, hsys⟩ | ⟨-, haside⟩
  · have hcall : ∀ (k : Fin n) (c : Call), c.phase.claim = none → c.stage = .none →
        ∀ j, Function.update s.calls k c j = s.calls j ∨
          CallAims s'.world.db (Function.update s.calls k c j) := fun k c hclaim hstage =>
      forall_update (P := fun j x => x = s.calls j ∨ CallAims s'.world.db x)
        (.inr (callAims_of_none hclaim hstage)) fun _ _ => .inl rfl
    have hapi : ∀ (k : Fin m) (c : ApiCall), ApiAims s'.world.db c →
        ∀ j, Function.update s.apis k c j = s.apis j ∨
          ApiAims s'.world.db (Function.update s.apis k c j) := fun k c hc =>
      forall_update (P := fun j x => x = s.apis j ∨ ApiAims s'.world.db x)
        (.inr hc) fun _ _ => .inl rfl
    cases step_spec hsys with
    | deliver | abort => exact h.silent hkeeps rfl (hcall _ _ rfl rfl) fun _ => .inl rfl
    | exec hrun hexec => exact h.exec hrun hexec rfl rfl
    | redis | create => exact h.silent hkeeps rfl (fun _ => .inl rfl) fun _ => .inl rfl
    | cancel hupd =>
      obtain rfl := Sys.update_eq hupd
      exact h.silent hkeeps rfl (fun _ => .inl rfl) fun _ => .inl rfl
    | expire _ hupd =>
      obtain rfl := Sys.update_eq hupd
      exact h.silent hkeeps rfl (fun _ => .inl rfl) (hapi _ _ ((apiAims_expire _).keeps hkeeps))
    | autoCancel _ hupd =>
      obtain rfl := Sys.update_eq hupd
      exact h.silent hkeeps rfl (fun _ => .inl rfl)
        (hapi _ _ ((apiAims_autoCancel _).keeps hkeeps))
    | applyPartial | apiAbort =>
      exact h.silent hkeeps rfl (fun _ => .inl rfl) (hapi _ _ trivial)
    | api hexec =>
      obtain ⟨haims, hnew⟩ := (h.apis _).moves (apiMoves_of_exec hexec)
      refine ⟨fun d hd => (hnew d hd).elim (fun hd => (h.deliveries d hd).keeps hkeeps) id,
        fun j => (h.calls j).keeps hkeeps, ?_⟩
      exact forall_update (P := fun _ c => ApiAims _ c) haims fun j _ => (h.apis j).keeps hkeeps
  · exact h.silent hkeeps haside.deliveries (fun _ => .inl (by rw [haside.calls]))
      fun _ => .inl (by rw [haside.apis])

theorem aims_of_idle (hidle : s.Idle)
    (hfirst : ∀ d ∈ s.world.db.webhookDeliveries, Aimed s.world.db d) : Aims s where
  deliveries := hfirst
  calls k := by
    rw [hidle.calls k]
    exact callAims_of_none rfl rfl
  apis k := by
    rw [hidle.apis k]
    trivial

/-- **What is queued is aimed**: over every interleaving of reconciler processes, cron jobs, API
calls and changes of webhooks, every delivery is to a webhook that has asked for its event, about
an invoice of the webhook's own merchant, and of the event that its document is about. -/
theorem deliveries_aimed (hidle : s.Idle)
    (hfirst : ∀ d ∈ s.world.db.webhookDeliveries, Aimed s.world.db d)
    (hrun : (platform env n m).run s run = some t) :
    ∀ d ∈ t.world.db.webhookDeliveries, Aimed t.world.db d :=
  ((platform env n m).inv_of_run (fun _ _ _ => aims_step) (aims_of_idle hidle hfirst)
    hrun).deliveries

/-! ## Expiries -/

/-- Webhooks ask for events of `WEBHOOK_EVENT_TYPES`. -/
def Known (db : Db) : Prop := ∀ h ∈ db.webhooks, ∀ e ∈ h.events, e ∈ Webhooks.eventTypes

/-- The events of a webhook are never changed. -/
theorem known_step {a : Request n m} (h : Known s.world.db)
    (hstep : (platform env n m).step s a = some s') : Known s'.world.db := by
  cases a with
  | system a =>
    rw [Known, (still_step hstep).webhooks]
    exact h
  | createWebhook merchantId events =>
    cases hstep
    exact h
  | storeWebhook id merchantId events =>
    obtain ⟨db, hins, rfl⟩ := Option.map_eq_some_iff.mp hstep
    unfold Webhooks.store at hins
    split at hins
    · next hevents =>
      obtain ⟨webhooks, hrow, rfl⟩ := Option.map_eq_some_iff.mp hins
      intro x hx
      rcases (Table.mem_of_insert? hrow x).mp hx with hx | rfl
      · exact h x hx
      · exact hevents.2
    · cases hins
  | deactivateWebhook merchantId id =>
    cases hstep
    intro x hx
    obtain ⟨y, hy, rfl⟩ := List.mem_map.mp hx
    split <;> exact h y hy
  | trackView | trackAttempt =>
    obtain ⟨db, htrack, rfl⟩ := Option.map_eq_some_iff.mp hstep
    obtain ⟨i, -, rfl⟩ := Option.map_eq_some_iff.mp htrack
    exact h

theorem eventOf_ne_expired (payload : Payload) : eventOf payload ≠ "invoice.expired" := by
  cases payload <;> simp [eventOf]

/-- **No merchant is told of an expiry**: over every such interleaving, whatever expires and
whoever has asked for `invoice.expired`, no delivery is about an expiry. -/
theorem expiry_untold (hidle : s.Idle)
    (hfirst : ∀ d ∈ s.world.db.webhookDeliveries, Aimed s.world.db d) (hknown : Known s.world.db)
    (hrun : (platform env n m).run s run = some t) :
    ∀ d ∈ t.world.db.webhookDeliveries, d.eventType ≠ "invoice.expired" ∧
      ∀ invoiceId time reason, d.payload ≠ .expired invoiceId time reason := by
  have hknown := (platform env n m).inv_of_run (I := fun s => Known s.world.db)
    (fun _ _ _ => known_step) hknown hrun
  intro d hd
  obtain ⟨htype, -, ⟨x, hx, -, -, hevent⟩, -⟩ :=
    ((platform env n m).inv_of_run (fun _ _ _ => aims_step) (aims_of_idle hidle hfirst)
    hrun).deliveries d hd
  refine ⟨htype ▸ eventOf_ne_expired _, fun invoiceId time reason hpayload => ?_⟩
  have hlisted : "merchant.payment_intent.expired" ∈ Webhooks.eventTypes := by
    have hmem := hknown x hx _ hevent
    rwa [htype, hpayload] at hmem
  exact absurd hlisted (by decide)

end Runs

/-- `expireInvoices` on the invoice of a merchant who has asked for its expiry, to its end, and
the credit of a payment that has come before. -/
def expiryRequests : List (Request 1 1) :=
  (.deliver 0 (fullPayment "token_happy_001") :: execs 12).map .system ++
    [.system (.create (seedInvoice 2 99100)), .system (.expire 0 3601), .system (.api 0 3601),
      .system (.api 0 3601), .system (.api 0 3601)]

/-- The merchant has asked for both. -/
def expirySubscribed : Sys 1 1 := subscribedTo ["invoice.expired", "invoice.paid"]

theorem deliveries_aimed_expiry :
    ∃ t, (platform testEnv 1 1).run expirySubscribed expiryRequests = some t ∧
      (t.world.db.webhookDeliveries.length = 1 ∧
        ∃ i ∈ t.world.db.invoices.rows, i.id = 2 ∧ i.status = .expired) ∧
      ∀ d ∈ t.world.db.webhookDeliveries, Aimed t.world.db d := by
  obtain ⟨t, ht, hrows⟩ := (platform testEnv 1 1).exists_of_leadsTo
    (fun t => t.world.db.webhookDeliveries.length = 1 ∧
      ∃ i ∈ t.world.db.invoices.rows, i.id = 2 ∧ i.status = .expired)
    expirySubscribed expiryRequests (by decide +kernel)
  exact ⟨t, ht, hrows, deliveries_aimed ⟨fun _ => rfl, fun _ => rfl⟩
    (fun _ hd => absurd hd List.not_mem_nil) ht⟩

theorem expiry_untold_expiry :
    ∃ t, (platform testEnv 1 1).run expirySubscribed expiryRequests = some t ∧
      ∀ d ∈ t.world.db.webhookDeliveries, d.eventType ≠ "invoice.expired" ∧
        ∀ invoiceId time reason, d.payload ≠ .expired invoiceId time reason := by
  obtain ⟨t, ht, -⟩ := (platform testEnv 1 1).exists_of_leadsTo (fun _ => True) expirySubscribed
    expiryRequests (by decide +kernel)
  have hknown : Known expirySubscribed.world.db := by
    intro x hx
    obtain rfl := List.mem_singleton.mp hx
    decide
  exact ⟨t, ht, expiry_untold ⟨fun _ => rfl, fun _ => rfl⟩
    (fun _ hd => absurd hd List.not_mem_nil) hknown ht⟩

end Stargate.Reconciler
