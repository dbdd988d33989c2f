import Stargate.Reconciler.Platform

/-!
# What merchants are told

Four operations take an invoice to `paid`, `expired` or `cancelled`, and announce it to
the merchant's webhooks in four ways: `process_payment` in its transaction,
`autoCancelUnpaidInvoices` after its `UPDATE` in a loop that can stop half-way,
`expireInvoices` under another event name, `cancel` not at all.

- `Announces`: the steps after which the merchant has been told, or will be, what
  happened, and nothing else;
- `Truthful`: what has been announced has happened, and was announced once;
- `truthInv_step`: steps that announce keep it so.
-/

namespace Stargate.Reconciler

open Base Invoices

/-- The event that announces a status. -/
def announcement : InvoiceStatus → Option String
  | .paid => some "invoice.paid"
  | .expired => some "invoice.expired"
  | .cancelled => some "invoice.cancelled"
  | .pending | .partiallyPaid => none

/-- `payload->>'invoice_id'`. -/
def invoiceOf : Payload → Uuid
  | .invoicePaid invoiceId _ | .expired invoiceId _ _ | .cancelled invoiceId _ _ => invoiceId

/-- The deliveries to a webhook of one event type about one invoice. -/
def announced (db : Db) (webhookId : Uuid) (eventType : String) (invoiceId : Uuid) : Nat :=
  db.webhookDeliveries.countP fun d =>
    d.webhookId == webhookId && d.eventType == eventType && invoiceOf d.payload == invoiceId

/-- The invoice is stored with this status. -/
def HasStatus (db : Db) (invoiceId : Uuid) (status : InvoiceStatus) : Prop :=
  ∃ i ∈ db.invoices, i.id = invoiceId ∧ i.status = status

/-- What has been announced has happened since `first`, and was announced once. -/
structure Truthful (first db : Db) : Prop where
  once : ∀ webhookId status eventType invoiceId, announcement status = some eventType →
    announced db webhookId eventType invoiceId ≤ 1
  happened : ∀ d ∈ db.webhookDeliveries, ∀ status, announcement status = some d.eventType →
    HasStatus db (invoiceOf d.payload) status ∧ ¬ HasStatus first (invoiceOf d.payload) status

/-! ## Steps that announce -/

/-- A credit is committed only where it announces what it does: the invoice is still
pending, or there is nobody to tell. -/
def PaysPending (db : Db) : Call → Prop
  | .running _ (.commit c _ hooks) =>
    hooks = [] ∨ ∃ i ∈ db.invoices.rows, i.id = c.inv.id ∧ i.status = .pending
  | _ => True

/-- Nobody who is subscribed waits for one of these dispatches. -/
def NobodyWaits (db : Db) (todo : List Dispatch) : Prop :=
  ∀ d ∈ todo, d.eventType = "invoice.cancelled" → subscribers db d.merchantId d.eventType = []

/-- No cancellation is left to announce to a webhook that is subscribed. -/
def NothingLeft (db : Db) : ApiCall → Prop
  | .selectHooks todo => NobodyWaits db todo
  | .insertDelivery d hooks todo =>
    (d.eventType = "invoice.cancelled" →
      ∀ h ∈ hooks, h ∉ subscribers db d.merchantId d.eventType) ∧ NobodyWaits db todo
  | _ => True

variable {n m : Nat}

/-- The step announces what it does, or nobody is subscribed. -/
def Announces (s : Sys n m) : Request n m → Prop
  | .system (.exec k _) => PaysPending s.world.db (s.calls k)
  | .system (.cancel merchantId id) =>
    ∀ i ∈ affected s.world.db (isCancelled merchantId id),
      subscribers s.world.db i.merchantId "invoice.cancelled" = []
  | .system (.expire _ now) =>
    ∀ i ∈ affected s.world.db (isExpired now),
      subscribers s.world.db i.merchantId "invoice.expired" = []
  | .system (.apiAbort k) => NothingLeft s.world.db (s.apis k)
  | _ => True

/-- Requests other than partial payments. -/
def Plain : Request n m → Prop
  | .system (.applyPartial _ _ _) => False
  | _ => True

section Decidable

instance (db : Db) : ∀ call : Call, Decidable (PaysPending db call)
  | .running _ (.commit _ _ _) => inferInstanceAs (Decidable (_ ∨ _))
  | .idle | .returned _ _ | .running _ .eventExists | .running _ .screenGet
  | .running _ (.screenSet _) | .running _ (.insertBlocked _) | .running _ (.selectMuxed _ _)
  | .running _ (.selectMemo _ _) | .running _ (.insertMismatch _) | .running _ (.insertEvent _ _)
  | .running _ (.beginTx _ _) | .running _ (.insertLedger _) | .running _ (.updateInvoice _)
  | .running _ (.insertDeliveries _ _) | .running _ (.insertLinkEvent _ _ _)
  | .running _ (.publish _) | .running _ .saveCursor => isTrue trivial

instance (db : Db) (todo : List Dispatch) : Decidable (NobodyWaits db todo) :=
  inferInstanceAs (Decidable (∀ d ∈ todo, _))

instance (db : Db) : ∀ call : ApiCall, Decidable (NothingLeft db call)
  | .selectHooks todo => inferInstanceAs (Decidable (NobodyWaits db todo))
  | .insertDelivery _ _ _ => inferInstanceAs (Decidable (_ ∧ _))
  | .idle | .partialSelect _ _ | .partialUpdate _ _ _ _ | .partialCommit _ => isTrue trivial

instance (s : Sys n m) : ∀ a : Request n m, Decidable (Announces s a)
  | .system (.exec k _) => inferInstanceAs (Decidable (PaysPending _ (s.calls k)))
  | .system (.cancel _ _) | .system (.expire _ _) => inferInstanceAs (Decidable (∀ i ∈ _, _))
  | .system (.apiAbort k) => inferInstanceAs (Decidable (NothingLeft _ (s.apis k)))
  | .system (.deliver _ _) | .system (.abort _) | .system (.redis _ _) | .system (.create _)
  | .system (.autoCancel _ _) | .system (.applyPartial _ _ _) | .system (.api _ _)
  | .createWebhook _ _ | .storeWebhook _ _ _ | .deactivateWebhook _ _ | .trackView _
  | .trackAttempt _ => isTrue trivial

end Decidable

/-! ## What invoices keep -/

/-- What happens to invoices from one state to a later one. -/
structure Later (db db' : Db) : Prop where
  /-- Paid, expired and cancelled invoices stay as they are. -/
  final : ∀ i ∈ db.invoices, i.status.active = false → i ∈ db'.invoices
  kept : ∀ i ∈ db.invoices, ∃ i' ∈ db'.invoices, i'.id = i.id ∧ i'.merchantId = i.merchantId
  left : ∀ id, Left db id → Left db' id

section Later

variable {env : Env} {db db' first : Db}

theorem Later.of_invoices (h : db'.invoices = db.invoices) : Later db db' where
  final i hi _ := by rwa [h]
  kept i hi := ⟨i, by rwa [h], rfl, rfl⟩
  left _ := left_congr h

theorem RowStep.merchantId_eq {A : String → Prop} {i i' : Invoice} (h : RowStep A i i') :
    i'.merchantId = i.merchantId := by
  cases h with
  | same | credited | closed => rfl
  | applied _ _ _ hrow =>
    obtain ⟨-, paid, -, rfl⟩ := partialRow_eq_some_iff.mp hrow
    rfl

/-- No transaction changes an invoice that is not active. -/
theorem RowStep.eq_of_final {A : String → Prop} {i i' : Invoice} (h : RowStep A i i')
    (hfinal : i.status.active = false) : i' = i := by
  cases h with
  | same => rfl
  | credited hpending =>
    rw [hpending] at hfinal
    cases hfinal
  | closed hactive | applied hactive =>
    rw [hfinal] at hactive
    cases hactive

theorem later_of_stepped {s s' : Sys n m} {a : Label n m} {A : String → Prop}
    (heffect : Effect env s s' a) (h : Stepped A a s.world.db s'.world.db) :
    Later s.world.db s'.world.db := by
  refine ⟨fun i hi hfinal => ?_, fun i hi => ?_, fun id => heffect.left⟩ <;>
    rcases h with ⟨f, hmap, hf⟩ | ⟨r, -, happend⟩
  · rw [← Table.mem_rows, hmap]
    exact List.mem_map.mpr ⟨i, hi, (hf i hi).1.eq_of_final hfinal⟩
  · rw [← Table.mem_rows, happend]
    exact List.mem_append_left _ hi
  · refine ⟨f i, ?_, (hf i hi).1.id_eq, (hf i hi).1.merchantId_eq⟩
    rw [← Table.mem_rows, hmap]
    exact List.mem_map_of_mem hi
  · refine ⟨i, ?_, rfl, rfl⟩
    rw [← Table.mem_rows, happend]
    exact List.mem_append_left _ hi

theorem HasStatus.later {invoiceId : Uuid} {status : InvoiceStatus}
    (h : HasStatus db invoiceId status) (hlater : Later db db')
    (hfinal : status.active = false) : HasStatus db' invoiceId status := by
  obtain ⟨i, hi, hid, hs⟩ := h
  exact ⟨i, hlater.final i hi (hs ▸ hfinal), hid, hs⟩

/-- Ids are unique. -/
theorem HasStatus.status_eq {i : Invoice} {status : InvoiceStatus}
    (h : HasStatus db i.id status) (hi : i ∈ db.invoices) : i.status = status := by
  obtain ⟨j, hj, hid, hs⟩ := h
  rwa [← Table.eq_of_conflict hj hi (.inl hid)]

theorem announcement_active {status : InvoiceStatus} {eventType : String}
    (h : announcement status = some eventType) : status.active = false := by
  cases status with
  | pending | partiallyPaid => cases h
  | paid | expired | cancelled => rfl

theorem announcement_injective {a b : InvoiceStatus} {eventType : String}
    (ha : announcement a = some eventType) (hb : announcement b = some eventType) : a = b := by
  cases a <;> cases b <;> cases ha <;> first | rfl | exact absurd hb (by decide)

/-- What was announced stays true. -/
theorem Truthful.later (h : Truthful first db) (hlater : Later db db')
    (hdeliveries : db'.webhookDeliveries = db.webhookDeliveries) : Truthful first db' where
  once webhookId status eventType invoiceId hs := by
    rw [announced, hdeliveries]
    exact h.once webhookId status eventType invoiceId hs
  happened d hd status hs := by
    rw [hdeliveries] at hd
    obtain ⟨hnow, hnot⟩ := h.happened d hd status hs
    exact ⟨hnow.later hlater (announcement_active hs), hnot⟩

/-- Nothing is announced of an invoice that is still to be paid, expired or cancelled. -/
theorem Truthful.announced_eq_zero (h : Truthful first db) {i : Invoice}
    (hi : i ∈ db.invoices) (status : InvoiceStatus) (hne : i.status ≠ status)
    {eventType : String} (hs : announcement status = some eventType) (webhookId : Uuid) :
    announced db webhookId eventType i.id = 0 := by
  refine List.countP_eq_zero.mpr fun d hd hmatch => ?_
  simp only [Bool.and_eq_true, beq_iff_eq] at hmatch
  obtain ⟨⟨-, rfl⟩, hid⟩ := hmatch
  exact hne ((hid ▸ (h.happened d hd status hs).1).status_eq hi)

end Later

/-! ## What calls are still to announce -/

/-- The dispatches that a call has not finished. -/
def unfinished : ApiCall → List Dispatch
  | .selectHooks todo => todo
  | .insertDelivery d _ todo => d :: todo
  | _ => []

/-- The webhooks that the first of them is still to be queued for. -/
def remainingHooks : ApiCall → List Uuid
  | .insertDelivery _ hooks _ => hooks
  | _ => []

/-- The invoices whose cancellation the dispatches announce. -/
def cancellations (todo : List Dispatch) : List Uuid :=
  todo.filterMap fun d =>
    if d.eventType = "invoice.cancelled" then some (invoiceOf d.payload) else none

/-- The dispatch announces the cancellation of this invoice. -/
def Cancels (d : Dispatch) (merchantId invoiceId : Uuid) : Prop :=
  d.eventType = "invoice.cancelled" ∧ d.merchantId = merchantId ∧ invoiceOf d.payload = invoiceId

/-- The call is still to announce the cancellation of an invoice to a webhook. -/
def Owes (merchantId webhookId invoiceId : Uuid) : ApiCall → Prop
  | .selectHooks todo => ∃ d ∈ todo, Cancels d merchantId invoiceId
  | .insertDelivery d hooks todo =>
    (Cancels d merchantId invoiceId ∧ webhookId ∈ hooks) ∨ ∃ d ∈ todo, Cancels d merchantId invoiceId
  | _ => False

/-- The call is one of `applyPartialPayment`. -/
def isPartial : ApiCall → Bool
  | .partialSelect _ _ | .partialUpdate _ _ _ _ | .partialCommit _ => true
  | _ => false

/-- What holds of an API call: the invoices whose cancellation it announces have been
cancelled since `first`, and nobody has been told of those that it is still to announce. -/
structure ApiOk (first db : Db) (call : ApiCall) : Prop where
  plain : isPartial call = false
  kinds : ∀ d ∈ unfinished call,
    d.eventType = "merchant.payment_intent.expired" ∨ d.eventType = "invoice.cancelled"
  once : (cancellations (unfinished call)).Nodup
  closed : ∀ id ∈ cancellations (unfinished call),
    HasStatus db id .cancelled ∧ ¬ HasStatus first id .cancelled
  hooks : (remainingHooks call).Nodup
  untold : ∀ merchantId webhookId id, Owes merchantId webhookId id call →
    announced db webhookId "invoice.cancelled" id = 0

/-- The invoice that a call has read is stored, under the same merchant. -/
def Belongs (db : Db) (inv : InvoiceRow) : Prop :=
  ∃ i ∈ db.invoices, i.id = inv.id ∧ i.merchantId = inv.merchantId

/-- What holds of a reconciler process. -/
structure CallTells (db : Db) (call : Call) : Prop where
  belongs : ∀ inv, call.phase.claim = some inv → Belongs db inv
  missed : ∀ c, call.phase = .crediting c (some false) → Left db c.inv.id
  hooks : ∀ p, call.stage = .inserted p → p.hooks.Nodup

section Calls

variable {env : Env} {first db db' : Db} {merchantId webhookId id : Uuid}

theorem mem_cancellations {todo : List Dispatch} :
    id ∈ cancellations todo ↔ ∃ d ∈ todo, d.eventType = "invoice.cancelled" ∧
      invoiceOf d.payload = id := by
  simp [cancellations, List.mem_filterMap]

theorem cancellations_cons {d : Dispatch} {todo : List Dispatch}
    (h : d.eventType = "invoice.cancelled") :
    cancellations (d :: todo) = invoiceOf d.payload :: cancellations todo := by
  simp [cancellations, h]

theorem Owes.mem {call : ApiCall} (h : Owes merchantId webhookId id call) :
    id ∈ cancellations (unfinished call) := by
  rw [mem_cancellations]
  cases call with
  | selectHooks todo =>
    obtain ⟨d, hd, htype, -, hid⟩ := h
    exact ⟨d, hd, htype, hid⟩
  | insertDelivery d hooks todo =>
    rcases h with ⟨⟨htype, -, hid⟩, -⟩ | ⟨d', hd', htype, -, hid⟩
    · exact ⟨d, List.mem_cons_self, htype, hid⟩
    · exact ⟨d', List.mem_cons_of_mem _ hd', htype, hid⟩
  | _ => cases h

theorem apiOk_idle : ApiOk first db .idle where
  plain := rfl
  kinds _ hd := nomatch hd
  once := .nil
  closed _ hid := nomatch hid
  hooks := .nil
  untold _ _ _ h := nomatch h

/-- A call is not concerned by what happens to other invoices. -/
theorem ApiOk.later {call : ApiCall} (h : ApiOk first db call) (hlater : Later db db')
    (hsame : ∀ merchantId webhookId id, Owes merchantId webhookId id call →
      announced db' webhookId "invoice.cancelled" id
        = announced db webhookId "invoice.cancelled" id) : ApiOk first db' call :=
  { h with
    closed := fun id hid => ⟨(h.closed id hid).1.later hlater rfl, (h.closed id hid).2⟩
    untold := fun merchantId webhookId id hmem =>
      (hsame _ _ _ hmem).trans (h.untold merchantId webhookId id hmem) }

theorem Belongs.later {inv : InvoiceRow} (h : Belongs db inv) (hlater : Later db db') :
    Belongs db' inv := by
  obtain ⟨i, hi, hid, hm⟩ := h
  obtain ⟨i', hi', hid', hm'⟩ := hlater.kept i hi
  exact ⟨i', hi', hid'.trans hid, hm'.trans hm⟩

theorem CallTells.later {call : Call} (h : CallTells db call) (hlater : Later db db') :
    CallTells db' call where
  belongs inv hinv := (h.belongs inv hinv).later hlater
  missed c hc := hlater.left _ (h.missed c hc)
  hooks := h.hooks

theorem callTells_of_none {call : Call} (hclaim : call.phase.claim = none)
    (hstage : call.stage = .none) : CallTells db call where
  belongs inv hinv := by
    rw [hclaim] at hinv
    cases hinv
  missed c hc := by
    rw [hc] at hclaim
    cases hclaim
  hooks p hp := by
    rw [hstage] at hp
    cases hp

/-- A statement of a reconciler process keeps what holds of it. -/
theorem CallTells.exec {now : Timestamp} {locked : Uuid → Bool} {w w' : World}
    {payment : HorizonPayment} {pc : Pc} {next : Next} (h : CallTells w.db (.running payment pc))
    (hlater : Later w.db w'.db) (hexec : exec env now locked w payment pc = some (w', next)) :
    CallTells w'.db (next.call payment) := by
  have hphase := exec_phaseStep hexec
  have hstage := exec_stageStep hexec
  have hbelongs : ∀ inv, pc.phase.claim = some inv → Belongs w.db inv := h.belongs
  have hmissed : ∀ c, pc.phase = .crediting c (some false) → Left w.db c.inv.id := h.missed
  refine ⟨fun inv hinv => .later ?_ hlater, fun c hc => hlater.left _ ?_, fun p hp => ?_⟩
  · rw [Next.phase_call] at hinv
    generalize pc.phase = ph at hphase hbelongs
    generalize next.phase = ph' at hphase hinv
    cases hphase with
    | found hi hpending =>
      cases hinv
      exact ⟨_, hi, rfl, rfl⟩
    | record | begin | write | lock | miss =>
      cases hinv
      exact hbelongs _ rfl
    | _ => cases hinv
  · rw [Next.phase_call] at hc
    generalize pc.phase = ph at hphase hbelongs hmissed
    generalize next.phase = ph' at hphase hc
    cases hphase with
    | write =>
      cases hc
      exact hmissed _ rfl
    | miss hmiss =>
      cases hc
      obtain ⟨i, hi, hid, -⟩ := hbelongs _ rfl
      exact ⟨i, hi, hid, hmiss i hi hid⟩
    | _ => cases hc
  · rw [Next.stage_call] at hp
    rw [hp] at hstage
    cases hstage with
    | keep hpc => exact h.hooks p hpc
    | insert => exact nodup_subscribers _ _ _

theorem announced_append (db : Db) (ds : List WebhookDelivery) (eventType : String) :
    announced { db with webhookDeliveries := db.webhookDeliveries ++ ds } webhookId eventType id
      = announced db webhookId eventType id + ds.countP fun d =>
        d.webhookId == webhookId && d.eventType == eventType && invoiceOf d.payload == id :=
  List.countP_append ..

/-- A statement that queues one delivery tells a webhook of one invoice. -/
theorem announced_concat (db : Db) (d : WebhookDelivery) (eventType : String)
    (hne : ¬ (d.webhookId = webhookId ∧ d.eventType = eventType ∧ invoiceOf d.payload = id)) :
    announced { db with webhookDeliveries := db.webhookDeliveries ++ [d] } webhookId eventType id
      = announced db webhookId eventType id := by
  rw [announced_append, List.countP_singleton, if_neg, Nat.add_zero]
  simpa [and_assoc] using hne

/-- What a statement of an API call does: it tells at most one webhook of one invoice
that the call is still to announce. -/
structure ApiTells (first db db' : Db) (call call' : ApiCall) : Prop where
  ok : ApiOk first db' call'
  truthful : Truthful first db'
  invoices : db'.invoices = db.invoices
  shrinks : cancellations (unfinished call') ⊆ cancellations (unfinished call)
  others : ∀ id, id ∉ cancellations (unfinished call) → ∀ webhookId,
    announced db' webhookId "invoice.cancelled" id = announced db webhookId "invoice.cancelled" id

/-- The delivery to the next webhook of a dispatch. -/
theorem apiTells_insertDelivery {d : Dispatch} {hook : Uuid} {hooks : List Uuid}
    {todo : List Dispatch} (h : ApiOk first db (.insertDelivery d (hook :: hooks) todo))
    (ht : Truthful first db) :
    ApiTells first db
      { db with
        webhookDeliveries := db.webhookDeliveries ++ [⟨hook, d.eventType, d.payload⟩] }
      (.insertDelivery d (hook :: hooks) todo) (.insertDelivery d hooks todo) := by
  have hmine : d.eventType = "invoice.cancelled" →
      invoiceOf d.payload ∈ cancellations (d :: todo) := fun htype =>
    mem_cancellations.mpr ⟨d, List.mem_cons_self, htype, rfl⟩
  obtain ⟨hnot, hnodup⟩ := List.nodup_cons.mp h.hooks
  refine ⟨⟨rfl, h.kinds, h.once, h.closed, hnodup, ?_⟩, ⟨?_, ?_⟩, rfl, List.Subset.refl _, ?_⟩
  · intro merchantId webhookId id howes
    have hbefore : Owes merchantId webhookId id (.insertDelivery d (hook :: hooks) todo) :=
      howes.imp_left fun hd => ⟨hd.1, List.mem_cons_of_mem _ hd.2⟩
    rw [announced_concat, h.untold _ _ _ hbefore]
    rintro ⟨rfl, htype, hid⟩
    rcases howes with ⟨-, hmem⟩ | ⟨d', hd', htype', -, hid'⟩
    · exact hnot hmem
    · -- no two dispatches announce the same cancellation
      have honce := h.once
      rw [unfinished, cancellations_cons htype, List.nodup_cons] at honce
      exact honce.1 (mem_cancellations.mpr ⟨d', hd', htype', hid'.trans hid.symm⟩)
  · intro webhookId status eventType id hs
    by_cases hmatch : hook = webhookId ∧ d.eventType = eventType ∧ invoiceOf d.payload = id
    · obtain ⟨rfl, rfl, rfl⟩ := hmatch
      have htype : d.eventType = "invoice.cancelled" := by
        refine (h.kinds d List.mem_cons_self).resolve_left fun hother => ?_
        rw [hother] at hs
        cases status <;> simp [announcement] at hs
      have hzero := h.untold d.merchantId hook _ (.inl ⟨⟨htype, rfl, rfl⟩, List.mem_cons_self⟩)
      rw [announced_append, htype, hzero, Nat.zero_add]
      exact List.countP_le_length
    · rw [announced_concat _ _ _ hmatch]
      exact ht.once webhookId status eventType id hs
  · intro x hx status hs
    rcases List.mem_append.mp hx with hx | hx
    · exact ht.happened x hx status hs
    · obtain rfl := List.mem_singleton.mp hx
      rcases h.kinds d List.mem_cons_self with htype | htype
      · dsimp only at hs
        rw [htype] at hs
        cases status <;> simp [announcement] at hs
      · have hcancelled : status = .cancelled :=
          announcement_injective hs (by rw [htype]; rfl)
        subst hcancelled
        exact h.closed _ (hmine htype)
  · intro id hid webhookId
    refine announced_concat _ _ _ ?_
    rintro ⟨-, htype, rfl⟩
    exact hid (hmine htype)

/-- **What a statement of an API call announces.** -/
theorem ApiOk.exec {now : Timestamp} {locked : Uuid → Bool} {call call' : ApiCall}
    (h : ApiOk first db call) (ht : Truthful first db)
    (hexec : call.exec now locked db = some (db', call')) : ApiTells first db db' call call' := by
  have hsame : ∀ {call'}, ApiOk first db call' →
      cancellations (unfinished call') ⊆ cancellations (unfinished call) →
      ApiTells first db db call call' := fun hok hsub => ⟨hok, ht, rfl, hsub, fun _ _ _ => rfl⟩
  cases call with
  | idle => cases hexec
  | selectHooks todo =>
    cases todo with
    | nil =>
      cases hexec
      exact hsame apiOk_idle (List.Subset.refl _)
    | cons d todo =>
      cases hexec
      refine hsame ⟨rfl, h.kinds, h.once, h.closed, nodup_subscribers _ _ _, ?_⟩
        (List.Subset.refl _)
      intro merchantId webhookId id howes
      refine h.untold merchantId webhookId id ?_
      rcases howes with ⟨hd, -⟩ | ⟨d', hd', hc⟩
      · exact ⟨d, List.mem_cons_self, hd⟩
      · exact ⟨d', List.mem_cons_of_mem _ hd', hc⟩
  | insertDelivery d hooks todo =>
    cases hooks with
    | cons hook hooks =>
      cases hexec
      exact apiTells_insertDelivery h ht
    | nil =>
      cases hexec
      have hsub : (cancellations todo).Sublist (cancellations (d :: todo)) :=
        (List.sublist_cons_self d todo).filterMap _
      exact hsame ⟨rfl, fun x hx => h.kinds x (List.mem_cons_of_mem _ hx), h.once.sublist hsub,
        fun id hid => h.closed id (hsub.subset hid), .nil,
        fun merchantId webhookId id howes => h.untold merchantId webhookId id (.inr howes)⟩
        hsub.subset
  | partialSelect | partialUpdate | partialCommit => cases h.plain

end Calls

/-! ## The invariant -/

/-- No announcement is false, lost from sight of its call, or made by two calls. -/
structure Told (first : Db) (s : Sys n m) : Prop where
  /-- What was not active at first has stayed as it was. -/
  kept : ∀ i ∈ first.invoices, i.status.active = false → i ∈ s.world.db.invoices
  truthful : Truthful first s.world.db
  calls : ∀ k, CallTells s.world.db (s.calls k)
  apis : ∀ k, ApiOk first s.world.db (s.apis k)
  apart : ∀ j k, j ≠ k → (cancellations (unfinished (s.apis j))).Disjoint
    (cancellations (unfinished (s.apis k)))

/-- The invariant of a run. -/
structure TruthInv (first : Db) (s : Sys n m) : Prop where
  sound : s.Sound
  rows : s.RowsOk fun _ => True
  told : Told first s

section Steps

variable {env : Env} {first : Db} {s s' : Sys n m}

/-- A step that announces nothing, and after which no call announces anything new. -/
theorem Told.silent (h : Told first s) (hlater : Later s.world.db s'.world.db)
    (hdeliveries : s'.world.db.webhookDeliveries = s.world.db.webhookDeliveries)
    (hcalls : ∀ k, s'.calls k = s.calls k ∨ CallTells s'.world.db (s'.calls k))
    (hapis : ∀ k, s'.apis k = s.apis k ∨ s'.apis k = .idle) : Told first s' where
  kept i hi hfinal := hlater.final i (h.kept i hi hfinal) hfinal
  truthful := h.truthful.later hlater hdeliveries
  calls k := by
    rcases hcalls k with heq | hok
    · rw [heq]
      exact (h.calls k).later hlater
    · exact hok
  apis k := by
    rcases hapis k with heq | heq <;> rw [heq]
    · exact (h.apis k).later hlater fun _ _ _ _ => by rw [announced, hdeliveries, announced]
    · exact apiOk_idle
  apart j k hjk := by
    rcases hapis j with heq | heq <;> rw [heq]
    · rcases hapis k with heq' | heq' <;> rw [heq']
      · exact h.apart j k hjk
      · exact List.disjoint_nil_right _
    · exact List.disjoint_nil_left _

theorem Aside.told (haside : Aside s s') (h : Told first s) : Told first s' :=
  h.silent (.of_invoices haside.invoices) haside.deliveries (fun k => .inl (by rw [haside.calls]))
    fun k => .inl (by rw [haside.apis])

/-- What a `COMMIT` that finds its invoice pending, or tells nobody, announces. -/
theorem Truthful.commit {db : Db} (h : Truthful first db)
    (hkept : ∀ i ∈ first.invoices, i.status.active = false → i ∈ db.invoices) {c : Credit}
    {updated : Bool} {hooks : List Uuid} (hnodup : hooks.Nodup)
    (hlater : Later db (commitCredit db c updated hooks))
    (hpays : hooks = [] ∨ (updated = true ∧ ∃ i ∈ db.invoices, i.id = c.inv.id ∧
      i.status = .pending)) : Truthful first (commitCredit db c updated hooks) := by
  rcases hpays with rfl | ⟨rfl, i, hi, hid, hpending⟩
  · exact h.later hlater (List.append_nil _)
  have hzero : ∀ webhookId, announced db webhookId "invoice.paid" c.inv.id = 0 := fun webhookId =>
    hid ▸ h.announced_eq_zero hi .paid (by simp [hpending]) rfl webhookId
  refine ⟨fun webhookId status eventType id hs => ?_, fun d hd status hs => ?_⟩
  · have happend : announced (commitCredit db c true hooks) webhookId eventType id
        = announced db webhookId eventType id + (hooks.map c.delivery).countP fun d =>
          d.webhookId == webhookId && d.eventType == eventType && invoiceOf d.payload == id :=
      List.countP_append ..
    rw [happend, List.countP_map]
    by_cases hmatch : eventType = "invoice.paid" ∧ id = c.inv.id
    · obtain ⟨rfl, rfl⟩ := hmatch
      rw [hzero, Nat.zero_add]
      calc hooks.countP _ ≤ hooks.count webhookId := List.countP_mono_left fun x _ hx => by
            simp only [Function.comp_apply, Bool.and_eq_true] at hx
            exact hx.1.1
        _ ≤ 1 := List.nodup_iff_count_le_one.mp hnodup webhookId
    · rw [List.countP_eq_zero.mpr, Nat.add_zero]
      · exact h.once webhookId status eventType id hs
      · intro x _ hx
        simp only [Function.comp_apply, Bool.and_eq_true, beq_iff_eq] at hx
        exact hmatch ⟨hx.1.2.symm, hx.2.symm⟩
  · rcases List.mem_append.mp hd with hd | hd
    · obtain ⟨hnow, hnot⟩ := h.happened d hd status hs
      exact ⟨hnow.later hlater (announcement_active hs), hnot⟩
    · obtain ⟨hook, -, rfl⟩ := List.mem_map.mp hd
      have hpaid : status = .paid := announcement_injective hs rfl
      subst hpaid
      refine ⟨⟨c.markPaid i,
        mem_invoices_commitCredit.mpr ⟨i, hi, if_pos ⟨rfl, hid⟩⟩, hid, rfl⟩, ?_⟩
      rintro ⟨j, hj, hjid, hjpaid⟩
      -- a paid invoice would still be there
      obtain rfl := Table.eq_of_conflict (hkept j hj (by rw [hjpaid]; rfl)) hi
        (.inl (hjid.trans hid.symm))
      rw [hpending] at hjpaid
      cases hjpaid

/-- Only a `COMMIT` changes invoices or deliveries. -/
theorem exec_commits {now : Timestamp} {locked : Uuid → Bool} {w w' : World}
    {payment : HorizonPayment} {pc : Pc} {next : Next}
    (h : exec env now locked w payment pc = some (w', next)) :
    (w'.db.invoices = w.db.invoices ∧ w'.db.webhookDeliveries = w.db.webhookDeliveries) ∨
      ∃ c updated hooks, pc = .commit c updated hooks ∧
        w'.db = commitCredit w.db c updated hooks := by
  have hinvoices : (∀ c updated, pc.phase ≠ .crediting c (some updated)) →
      w'.db.invoices = w.db.invoices := fun hno =>
    (exec_phaseStep h).invoices.resolve_right fun ⟨c, updated, _, hph, _⟩ => hno c updated hph
  have hsame : (∀ c updated hooks, pc ≠ .commit c updated hooks) →
      w'.db.webhookDeliveries = w.db.webhookDeliveries := by
    intro hno
    have hstage := exec_stageStep h
    generalize next.stage = stage at hstage
    cases hstage with
    | clear hrows | record _ hrows => exact hrows.deliveries
    | keep _ hw | insert _ hw => rw [hw]
    | commit hpc => exact absurd hpc (hno _ _ _)
  cases pc with
  | commit c updated hooks =>
    cases h
    exact .inr ⟨c, updated, hooks, rfl, rfl⟩
  | insertDeliveries | insertLinkEvent =>
    cases h
    exact .inl ⟨rfl, rfl⟩
  | insertEvent ofac invoice =>
    refine .inl ⟨hinvoices ?_, hsame (by simp)⟩
    cases invoice <;> simp [Pc.phase]
  | _ => exact .inl ⟨hinvoices (by simp [Pc.phase]), hsame (by simp)⟩

/-- A statement of a reconciler process that announces. -/
theorem Told.exec {k : Fin n} {now : Timestamp} {payment : HorizonPayment} {pc : Pc} {next : Next}
    (h : Told first s) (hlater : Later s.world.db s'.world.db)
    (hok : PaysPending s.world.db (s.calls k)) (hrun : s.calls k = .running payment pc)
    (hexec : exec env now (s.lockedFor (some (.inl k))) s.world payment pc
      = some (s'.world, next))
    (hcalls : s'.calls = Function.update s.calls k (next.call payment))
    (hapis : s'.apis = s.apis) : Told first s' := by
  have hcall := h.calls k
  rw [hrun] at hcall hok
  have hcalls' : ∀ j, s'.calls j = s.calls j ∨ CallTells s'.world.db (s'.calls j) := by
    rw [hcalls]
    exact forall_update (P := fun j c => c = s.calls j ∨ CallTells s'.world.db c)
      (.inr (hcall.exec hlater hexec)) fun _ _ => .inl rfl
  rcases exec_commits hexec with ⟨-, hdeliveries⟩ | ⟨c, updated, hooks, rfl, hdb⟩
  · exact h.silent hlater hdeliveries hcalls' fun j => .inl (by rw [hapis])
  · have hpays : hooks = [] ∨ (updated = true ∧ ∃ i ∈ s.world.db.invoices, i.id = c.inv.id ∧
        i.status = .pending) := by
      refine hok.imp_right fun ⟨i, hi, hid, hpending⟩ => ⟨?_, i, hi, hid, hpending⟩
      -- an `UPDATE` that missed its invoice found it no longer pending
      cases updated with
      | true => rfl
      | false => exact absurd hpending ((hid ▸ hcall.missed c rfl).status_ne hi)
    have hother : ∀ webhookId id, announced s'.world.db webhookId "invoice.cancelled" id
        = announced s.world.db webhookId "invoice.cancelled" id := by
      intro webhookId id
      have hzero : (hooks.map c.delivery).countP (fun d => d.webhookId == webhookId &&
          d.eventType == "invoice.cancelled" && invoiceOf d.payload == id) = 0 := by
        refine List.countP_eq_zero.mpr fun d hd => ?_
        obtain ⟨hook, -, rfl⟩ := List.mem_map.mp hd
        simp [Credit.delivery]
      rw [hdb, announced, commitCredit, List.countP_append, hzero, Nat.add_zero, announced]
    refine
      { kept := fun i hi hfinal => hlater.final i (h.kept i hi hfinal) hfinal
        truthful := ?_
        calls := fun j => (hcalls' j).elim (fun heq => heq ▸ (h.calls j).later hlater) id
        apis := fun j => ?_
        apart := by
          rw [hapis]
          exact h.apart }
    · rw [hdb] at hlater ⊢
      exact h.truthful.commit h.kept (hcall.hooks ⟨c, hooks⟩ rfl) hlater hpays
    · rw [hapis]
      exact (h.apis j).later hlater fun _ _ _ _ => hother _ _

/-- A statement of an API call. -/
theorem Told.api {k : Fin m} {now : Timestamp} {locked : Uuid → Bool} {call' : ApiCall}
    (h : Told first s) (hexec : (s.apis k).exec now locked s.world.db = some (s'.world.db, call'))
    (hcalls : s'.calls = s.calls) (hapis : s'.apis = Function.update s.apis k call') :
    Told first s' := by
  have htells := (h.apis k).exec h.truthful hexec
  have hlater := Later.of_invoices htells.invoices
  refine
    { kept := fun i hi hfinal => hlater.final i (h.kept i hi hfinal) hfinal
      truthful := htells.truthful
      calls := fun j => hcalls ▸ (h.calls j).later hlater
      apis := ?_
      apart := ?_ }
  · rw [hapis]
    refine forall_update htells.ok fun j hj => (h.apis j).later hlater fun _ _ id howes => ?_
    exact htells.others id (fun hid => h.apart j k hj howes.mem hid) _
  · rw [hapis]
    refine pairwise_update (R := fun a b => (cancellations (unfinished a)).Disjoint
      (cancellations (unfinished b))) (fun _ _ => List.Disjoint.symm) h.apart fun j hj => ?_
    exact List.disjoint_of_subset_left htells.shrinks (h.apart k j hj.symm)

/-- A cron job has run its `UPDATE`. -/
theorem Told.start {k : Fin m} {call' : ApiCall} (h : Told first s)
    (hlater : Later s.world.db s'.world.db)
    (hdeliveries : s'.world.db.webhookDeliveries = s.world.db.webhookDeliveries)
    (hcalls : s'.calls = s.calls) (hapis : s'.apis = Function.update s.apis k call')
    (hok : ApiOk first s'.world.db call')
    (hnew : ∀ j, j ≠ k → (cancellations (unfinished call')).Disjoint
      (cancellations (unfinished (s.apis j)))) : Told first s' where
  kept i hi hfinal := hlater.final i (h.kept i hi hfinal) hfinal
  truthful := h.truthful.later hlater hdeliveries
  calls j := hcalls ▸ (h.calls j).later hlater
  apis := by
    rw [hapis]
    refine forall_update hok fun j _ => (h.apis j).later hlater fun _ _ _ _ => ?_
    rw [announced, hdeliveries, announced]
  apart := by
    rw [hapis]
    exact pairwise_update (R := fun a b => (cancellations (unfinished a)).Disjoint
      (cancellations (unfinished b))) (fun _ _ => List.Disjoint.symm) h.apart hnew

theorem cancellations_expireDispatches (now : Timestamp) (rows : List Invoice) :
    cancellations (expireDispatches now rows) = [] := by
  refine List.filterMap_eq_nil_iff.mpr fun d hd => ?_
  obtain ⟨i, -, rfl⟩ := List.mem_map.mp hd
  exact if_neg (show ¬ "merchant.payment_intent.expired" = "invoice.cancelled" by decide)

theorem cancellations_autoCancelDispatches (now : Timestamp) (rows : List Invoice) :
    cancellations (autoCancelDispatches now rows) = rows.map Invoice.id := by
  induction rows with
  | nil => rfl
  | cons i rows ih =>
    rw [List.map_cons, ← ih]
    rfl

theorem nodup_affected (db : Db) (p : Invoice → Bool) :
    ((affected db p).map Invoice.id).Nodup := by
  rw [List.Nodup, List.pairwise_map]
  exact (db.invoices.unique.sublist List.filter_sublist).imp fun hno heq => hno (.inl heq)

theorem hasStatus_setStatus {db : Db} {p : Invoice → Bool} {status : InvoiceStatus} {i : Invoice}
    (hi : i ∈ affected db p) : HasStatus (setStatus db p status) i.id status := by
  obtain ⟨hmem, hp⟩ := mem_affected.mp hi
  exact ⟨_, mem_setStatus.mpr ⟨i, hmem, if_pos (Bool.and_eq_true_iff.mpr hp)⟩, rfl, rfl⟩

/-- After the `UPDATE` of `expireInvoices`. -/
theorem apiOk_expire (first db : Db) (now : Timestamp) (rows : List Invoice) :
    ApiOk first db (.selectHooks (expireDispatches now rows)) where
  plain := rfl
  kinds d hd := by
    obtain ⟨i, -, rfl⟩ := List.mem_map.mp hd
    exact .inl rfl
  once := by
    rw [unfinished, cancellations_expireDispatches]
    exact .nil
  closed id hid := by
    rw [unfinished, cancellations_expireDispatches] at hid
    cases hid
  hooks := .nil
  untold merchantId webhookId id howes := by
    have := howes.mem
    rw [unfinished, cancellations_expireDispatches] at this
    cases this

/-- After the `UPDATE` of `autoCancelUnpaidInvoices`: it took active invoices, and nobody
has been told of these. -/
theorem Told.apiOk_autoCancel (h : Told first s) (now : Timestamp) (p : Invoice → Bool) :
    ApiOk first (setStatus s.world.db p .cancelled)
      (.selectHooks (autoCancelDispatches now (affected s.world.db p))) where
  plain := rfl
  kinds d hd := by
    obtain ⟨i, -, hd⟩ := List.mem_flatMap.mp hd
    rcases List.mem_cons.mp hd with rfl | hd
    · exact .inl rfl
    · exact .inr (by rw [List.mem_singleton.mp hd])
  once := by
    rw [unfinished, cancellations_autoCancelDispatches]
    exact nodup_affected _ _
  closed id hid := by
    rw [unfinished, cancellations_autoCancelDispatches] at hid
    obtain ⟨i, hi, rfl⟩ := List.mem_map.mp hid
    refine ⟨hasStatus_setStatus hi, fun ⟨j, hj, hjid, hcancelled⟩ => ?_⟩
    obtain ⟨hmem, hactive, -⟩ := mem_affected.mp hi
    obtain rfl := Table.eq_of_conflict (h.kept j hj (by rw [hcancelled]; rfl)) hmem (.inl hjid)
    rw [hcancelled] at hactive
    cases hactive
  hooks := .nil
  untold merchantId webhookId id howes := by
    have hid := howes.mem
    rw [unfinished, cancellations_autoCancelDispatches] at hid
    obtain ⟨i, hi, rfl⟩ := List.mem_map.mp hid
    obtain ⟨hmem, hactive, -⟩ := mem_affected.mp hi
    refine h.truthful.announced_eq_zero hmem .cancelled (fun hs => ?_) rfl webhookId
    rw [hs] at hactive
    cases hactive

/-- Other calls announce what was cancelled before. -/
theorem Told.disjoint_affected (h : Told first s) (now : Timestamp) (p : Invoice → Bool)
    (j : Fin m) :
    (cancellations (unfinished
        (.selectHooks (autoCancelDispatches now (affected s.world.db p))))).Disjoint
      (cancellations (unfinished (s.apis j))) := by
  rw [unfinished, cancellations_autoCancelDispatches]
  intro id hid hid'
  obtain ⟨i, hi, rfl⟩ := List.mem_map.mp hid
  obtain ⟨hmem, hactive, -⟩ := mem_affected.mp hi
  rw [((h.apis j).closed _ hid').1.status_eq hmem] at hactive
  cases hactive

theorem Sys.update_eq {self : Option (Fin n ⊕ Fin m)} {p : Invoice → Bool}
    {status : InvoiceStatus} {w : World} (h : s.update self p status = some w) :
    w = { s.world with db := setStatus s.world.db p status } := by
  unfold Sys.update at h
  split at h <;> cases h
  rfl

/-- A step of `system` that announces. -/
theorem told_step {a : Label n m} (h : Told first s) (hlater : Later s.world.db s'.world.db)
    (hok : Announces s (.system a)) (hplain : Plain (.system a : Request n m))
    (hstep : (system env n m).step s a = some s') : Told first s' := by
  have hcall : ∀ (k : Fin n) (c : Call), c.phase.claim = none → c.stage = .none →
      ∀ j, Function.update s.calls k c j = s.calls j ∨
        CallTells s'.world.db (Function.update s.calls k c j) := fun k c hclaim hstage =>
    forall_update (P := fun j x => x = s.calls j ∨ CallTells s'.world.db x)
      (.inr (callTells_of_none hclaim hstage)) fun _ _ => .inl rfl
  cases step_spec hstep with
  | deliver | abort => exact h.silent hlater rfl (hcall _ _ rfl rfl) fun _ => .inl rfl
  | exec hrun hexec => exact h.exec hlater hok hrun hexec rfl rfl
  | redis | create => exact h.silent hlater rfl (fun _ => .inl rfl) fun _ => .inl rfl
  | cancel hupd =>
    obtain rfl := Sys.update_eq hupd
    exact h.silent hlater rfl (fun _ => .inl rfl) fun _ => .inl rfl
  | expire _ hupd =>
    obtain rfl := Sys.update_eq hupd
    refine h.start hlater rfl rfl rfl (apiOk_expire _ _ _ _) fun j _ => ?_
    rw [unfinished, cancellations_expireDispatches]
    exact List.disjoint_nil_left _
  | autoCancel _ hupd =>
    obtain rfl := Sys.update_eq hupd
    exact h.start hlater rfl rfl rfl (h.apiOk_autoCancel _ _) fun j _ =>
      h.disjoint_affected _ _ j
  | applyPartial => cases hplain
  | api hexec => exact h.api hexec rfl rfl
  | apiAbort =>
    refine h.silent hlater rfl (fun _ => .inl rfl) ?_
    exact forall_update (P := fun j x => x = s.apis j ∨ x = .idle) (.inr rfl) fun _ _ => .inl rfl

/-- What a step of the platform keeps of the invoices. -/
theorem TruthInv.later {a : Request n m} (h : TruthInv first s)
    (hstep : (platform env n m).step s a = some s') :
    s'.Sound ∧ s'.RowsOk (fun _ => True) ∧ Later s.world.db s'.world.db := by
  rcases platform_cases hstep with ⟨b, rfl, hsys⟩ | ⟨-, haside⟩
  · obtain ⟨heffect, hsound⟩ := step_effect h.sound hsys
    obtain ⟨hrows, hstepped⟩ := rows_step (C := fun _ => True) h.sound h.rows
      (admits_of_forall fun _ _ => trivial) hsys
    exact ⟨hsound, hrows, later_of_stepped heffect hstepped⟩
  · refine ⟨h.sound.world haside.calls haside.apis, ?_, .of_invoices haside.invoices⟩
    exact h.rows.world (fun i hi _ => by rwa [haside.invoices]) haside.calls haside.apis

/-- **Steps that announce keep the invariant.** -/
theorem truthInv_step {a : Request n m} (h : TruthInv first s) (hok : Announces s a)
    (hplain : Plain a) (hstep : (platform env n m).step s a = some s') : TruthInv first s' := by
  obtain ⟨hsound, hrows, hlater⟩ := h.later hstep
  refine ⟨hsound, hrows, ?_⟩
  rcases platform_cases hstep with ⟨b, rfl, hsys⟩ | ⟨-, haside⟩
  · exact told_step h.told hlater hok hplain hsys
  · exact haside.told h.told

/-- Nothing is running, and nothing has been announced. -/
theorem truthInv_of_idle (hidle : s.Idle) (hempty : s.world.db.webhookDeliveries = []) :
    TruthInv s.world.db s where
  sound := hidle.sound
  rows := hidle.rowsOk
  told :=
    { kept := fun i hi _ => hi
      truthful :=
        { once := fun _ _ _ _ _ => by
            rw [announced, hempty]
            exact Nat.zero_le _
          happened := fun d hd => by
            rw [hempty] at hd
            cases hd }
      calls := fun k => by
        rw [hidle.calls k]
        exact callTells_of_none rfl rfl
      apis := fun k => by
        rw [hidle.apis k]
        exact apiOk_idle
      apart := fun j k _ => by
        rw [hidle.apis j]
        exact List.disjoint_nil_left _ }

end Steps

end Stargate.Reconciler
