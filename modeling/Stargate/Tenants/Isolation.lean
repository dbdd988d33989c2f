import Stargate.Tenants.Services

/-!
# Merchants are isolated from each other

Whatever ids a merchant gives, the calls see and change rows of that merchant only.

- `Agree`: two databases with the same rows of a merchant; payment events and refunds belong to
  the merchant of their invoice, deliveries to the one of their webhook;
- `others`: all other rows;
- `getInvoice_confined` and the others: one lemma for each call, and for each statement that
  writes;
- `run_confined`: any call;
- `tenants_isolated`: every run of calls.
-/

namespace Stargate.Tenants

open Base Base.Statements Webhooks

/-! ## Whose rows -/

section Ownership

variable (w : World) (merchantId : Uuid)

def ownsInvoice (id : Uuid) : Bool :=
  w.db.invoices.rows.any fun i => i.id == id && i.merchantId == merchantId

def ownEvent (e : PaymentEvent) : Bool := e.invoiceId.any (ownsInvoice w merchantId)

def ownRefund (r : Refund) : Bool :=
  r.merchantId == merchantId || ownsInvoice w merchantId r.invoiceId

def ownDelivery (d : Delivery) : Bool := ownsHook w.store merchantId d.webhookId

/-- The rows of everybody else, in all tables. -/
structure Others where
  invoices : List Invoice
  refunds : List Refund
  webhooks : List Hook
  deliveries : List Delivery
  schedules : List Schedule
  members : List TeamMembers.Member
  auditLogs : List AuditLog
  /-- The tables that no call writes. -/
  rest : Db
  webhookCreatedAt : Uuid → Timestamp
  eventCreatedAt : Nat → Timestamp

def others : Others where
  invoices := w.db.invoices.rows.filter fun i => !(i.merchantId == merchantId)
  refunds := w.db.refunds.rows.filter fun r => !ownRefund w merchantId r
  webhooks := w.store.webhooks.rows.filter fun h => !(h.merchantId == merchantId)
  deliveries := w.store.deliveries.rows.filter fun d => !ownDelivery w merchantId d
  schedules := w.schedules.rows.filter fun s => !(s.merchantId == merchantId)
  members := w.members.rows.filter fun m => !(m.merchantId == merchantId)
  auditLogs := w.auditLogs.filter fun a => !(a.merchantId == merchantId)
  rest := { w.db with invoices := .empty, refunds := .empty }
  webhookCreatedAt := w.webhookCreatedAt
  eventCreatedAt := w.eventCreatedAt

end Ownership

/-- The merchant has the same rows in both, in whatever order. -/
structure Agree (merchantId : Uuid) (w w' : World) : Prop where
  merchants : (w.db.merchants.rows.filter fun m => m.id == merchantId).Perm
    (w'.db.merchants.rows.filter fun m => m.id == merchantId)
  invoices : (w.db.invoices.rows.filter fun i => i.merchantId == merchantId).Perm
    (w'.db.invoices.rows.filter fun i => i.merchantId == merchantId)
  paymentEvents : (w.db.paymentEvents.rows.filter (ownEvent w merchantId)).Perm
    (w'.db.paymentEvents.rows.filter (ownEvent w' merchantId))
  eventCreatedAt : ∀ e ∈ w.db.paymentEvents.rows, ownEvent w merchantId e = true →
    w.eventCreatedAt e.id = w'.eventCreatedAt e.id
  refunds : (w.db.refunds.rows.filter (ownRefund w merchantId)).Perm
    (w'.db.refunds.rows.filter (ownRefund w' merchantId))
  webhooks : (w.store.webhooks.rows.filter fun h => h.merchantId == merchantId).Perm
    (w'.store.webhooks.rows.filter fun h => h.merchantId == merchantId)
  webhookCreatedAt : ∀ h ∈ w.store.webhooks.rows, h.merchantId = merchantId →
    w.webhookCreatedAt h.id = w'.webhookCreatedAt h.id
  deliveries : (w.store.deliveries.rows.filter (ownDelivery w merchantId)).Perm
    (w'.store.deliveries.rows.filter (ownDelivery w' merchantId))
  schedules : (w.schedules.rows.filter fun s => s.merchantId == merchantId).Perm
    (w'.schedules.rows.filter fun s => s.merchantId == merchantId)
  members : (w.members.rows.filter fun m => m.merchantId == merchantId).Perm
    (w'.members.rows.filter fun m => m.merchantId == merchantId)
  auditLogs : (w.auditLogs.filter fun a => a.merchantId == merchantId).Perm
    (w'.auditLogs.filter fun a => a.merchantId == merchantId)

theorem Agree.refl (merchantId : Uuid) (w : World) : Agree merchantId w w where
  merchants := .refl _
  invoices := .refl _
  paymentEvents := .refl _
  eventCreatedAt _ _ _ := rfl
  refunds := .refl _
  webhooks := .refl _
  webhookCreatedAt _ _ _ := rfl
  deliveries := .refl _
  schedules := .refl _
  members := .refl _
  auditLogs := .refl _

/-! ## Queries -/

section Queries

variable {env : Env} {merchantId : Uuid} {w w' : World} {id : Uuid}

theorem right_of_and {b c : Bool} (h : (b && c) = true) : c = true :=
  (Bool.and_eq_true b c ▸ h).2

theorem Agree.ownsInvoice (h : Agree merchantId w w') :
    ownsInvoice w merchantId = ownsInvoice w' merchantId :=
  funext fun _ => any_eq_of_perm h.invoices (fun _ _ => right_of_and) fun _ _ => right_of_and

theorem Agree.ownsHook (h : Agree merchantId w w') :
    ownsHook w.store merchantId = ownsHook w'.store merchantId :=
  funext fun _ => any_eq_of_perm h.webhooks (fun _ _ => right_of_and) fun _ _ => right_of_and

/-- `WHERE id=$1 AND merchant_id=$2`. -/
theorem find?_own {ρ : Type} [Keyed ρ] {t t' : Table ρ} (key merchant : ρ → Nat)
    (hconflict : ∀ a b : ρ, key a = key b → Keyed.Conflict a b)
    (h : (t.rows.filter fun r => merchant r == merchantId).Perm
      (t'.rows.filter fun r => merchant r == merchantId)) (id : Nat) :
    (t.find? fun r => key r == id && merchant r == merchantId) =
      t'.find? fun r => key r == id && merchant r == merchantId := by
  refine found_eq h (fun _ => right_of_and) (fun _ => right_of_and) fun a b ha hb => ?_
  rw [Bool.and_eq_true, beq_iff_eq] at ha hb
  exact hconflict a b (ha.1.trans hb.1.symm)

theorem Agree.findInvoice (h : Agree merchantId w w') (id : Uuid) :
    Refunds.findInvoice w.db merchantId id = Refunds.findInvoice w'.db merchantId id := by
  rw [Refunds.findInvoice, Refunds.findInvoice,
    find?_own (fun i : Invoice => i.id) (fun i => i.merchantId) (fun _ _ => Or.inl) h.invoices id]

/-- An invoice that is found is one of the merchant. -/
theorem ownsInvoice_of_found {invoice : Invoice}
    (h : Refunds.findInvoice w.db merchantId id = .ok invoice) :
    ownsInvoice w merchantId id = true := by
  rw [Refunds.findInvoice] at h
  split at h
  · next i hi =>
    obtain ⟨hmem, hp⟩ := Table.find?_some hi
    exact List.any_eq_true.mpr ⟨i, hmem, hp⟩
  · cases h

theorem Agree.findRecipient (h : Agree merchantId w w') :
    Refunds.findRecipient w.db merchantId = Refunds.findRecipient w'.db merchantId := by
  rw [Refunds.findRecipient, Refunds.findRecipient,
    found_eq h.merchants (fun _ h => h) (fun _ h => h) fun _ _ ha hb =>
      .inl ((beq_iff_eq.mp ha).trans (beq_iff_eq.mp hb).symm)]

theorem Agree.findHook (h : Agree merchantId w w') (id : Uuid) :
    w.store.webhooks.find? (ownHook merchantId id) =
      w'.store.webhooks.find? (ownHook merchantId id) :=
  find?_own (fun h : Hook => h.id) (fun h => h.merchantId) (fun _ _ h => h) h.webhooks id

theorem Agree.findSchedule (h : Agree merchantId w w') (id : Uuid) :
    w.schedules.find? (ownSchedule merchantId id) =
      w'.schedules.find? (ownSchedule merchantId id) :=
  find?_own Schedule.id Schedule.merchantId (fun _ _ h => h) h.schedules id

theorem Agree.findMember (h : Agree merchantId w w') (id : Nat) :
    w.members.find? (ownMember merchantId id) = w'.members.find? (ownMember merchantId id) :=
  find?_own TeamMembers.Member.id TeamMembers.Member.merchantId (fun _ _ => Or.inl) h.members id

/-- The order of rows does not depend on where they stand in a table. -/
theorem newestFirst_eq_of_perm {ρ : Type} {createdAt id : ρ → Nat}
    {rows rows' : List ρ} (h : rows.Perm rows')
    (hid : ∀ a ∈ rows, ∀ b ∈ rows, id a = id b → a = b) :
    newestFirst env createdAt id rows = newestFirst env createdAt id rows' := by
  have : Std.Total (Newer env createdAt id) := ⟨fun a b => by
    unfold Newer
    omega⟩
  have : IsTrans ρ (Newer env createdAt id) := ⟨fun a b c => by
    unfold Newer
    omega⟩
  refine sort_eq_of_perm (fun a ha b hb hab hba => hid a ha b hb (env.place_injective ?_)) h
  unfold Newer at hab hba
  omega

theorem mem_filter_eq {ρ : Type} {p : ρ → Bool} {rows : List ρ} {key : ρ → Nat}
    (hkey : ∀ a ∈ rows, ∀ b ∈ rows, key a = key b → a = b) :
    ∀ a ∈ rows.filter p, ∀ b ∈ rows.filter p, key a = key b → a = b :=
  fun a ha b hb => hkey a (List.mem_filter.mp ha).1 b (List.mem_filter.mp hb).1

end Queries

/-! ## Judgements -/

/-- The merchant's calls are isolated. -/
abbrev Confined {α : Type} (merchantId : Uuid) (P : World → World → Prop) (s : Service α)
    (Q : α → World → World → Prop) : Prop :=
  Isolated (Agree merchantId) (fun w => others w merchantId) P s Q

/-! ## Updates -/

section Updates

variable {merchantId : Uuid} {w w' : World}

theorem Agree.withSchedules (h : Agree merchantId w w') {t t' : Table Schedule}
    (ht : (t.rows.filter fun s => s.merchantId == merchantId).Perm
      (t'.rows.filter fun s => s.merchantId == merchantId)) :
    Agree merchantId { w with schedules := t } { w' with schedules := t' } :=
  { h with schedules := ht }

theorem others_withSchedules {t : Table Schedule}
    (ht : (t.rows.filter fun s => !(s.merchantId == merchantId)) =
      w.schedules.rows.filter fun s => !(s.merchantId == merchantId)) :
    others { w with schedules := t } merchantId = others w merchantId :=
  congrArg (fun rows => { others w merchantId with schedules := rows }) ht

theorem Agree.withMembers (h : Agree merchantId w w') {t t' : Table TeamMembers.Member}
    (ht : (t.rows.filter fun m => m.merchantId == merchantId).Perm
      (t'.rows.filter fun m => m.merchantId == merchantId)) :
    Agree merchantId { w with members := t } { w' with members := t' } :=
  { h with members := ht }

theorem others_withMembers {t : Table TeamMembers.Member}
    (ht : (t.rows.filter fun m => !(m.merchantId == merchantId)) =
      w.members.rows.filter fun m => !(m.merchantId == merchantId)) :
    others { w with members := t } merchantId = others w merchantId :=
  congrArg (fun rows => { others w merchantId with members := rows }) ht

theorem Agree.withAuditLogs (h : Agree merchantId w w') {rows rows' : List AuditLog}
    (ht : (rows.filter fun a => a.merchantId == merchantId).Perm
      (rows'.filter fun a => a.merchantId == merchantId)) :
    Agree merchantId { w with auditLogs := rows } { w' with auditLogs := rows' } :=
  { h with auditLogs := ht }

theorem others_withAuditLogs {rows : List AuditLog}
    (ht : (rows.filter fun a => !(a.merchantId == merchantId)) =
      w.auditLogs.filter fun a => !(a.merchantId == merchantId)) :
    others { w with auditLogs := rows } merchantId = others w merchantId :=
  congrArg (fun rows => { others w merchantId with auditLogs := rows }) ht

theorem Agree.withDeliveries (h : Agree merchantId w w') {t t' : Table Delivery}
    (ht : (t.rows.filter (ownDelivery w merchantId)).Perm
      (t'.rows.filter (ownDelivery w' merchantId))) :
    Agree merchantId { w with store := { w.store with deliveries := t } }
      { w' with store := { w'.store with deliveries := t' } } :=
  { h with deliveries := ht }

theorem others_withDeliveries {t : Table Delivery}
    (ht : (t.rows.filter fun d => !ownDelivery w merchantId d) =
      w.store.deliveries.rows.filter fun d => !ownDelivery w merchantId d) :
    others { w with store := { w.store with deliveries := t } } merchantId =
      others w merchantId :=
  congrArg (fun rows => { others w merchantId with deliveries := rows }) ht

end Updates

section Invoices

variable {env : Env} {merchantId : Uuid} {P : World → World → Prop}

/-- Afterwards, the invoice is known to be one of the merchant. -/
theorem getInvoice_confined (id : Uuid) :
    Confined merchantId P (getInvoice env merchantId id) fun _ w w' =>
      P w w' ∧ ownsInvoice w merchantId id = true ∧ ownsInvoice w' merchantId id = true := by
  refine Isolated.bind (Isolated.query fun w w' h _ => by rw [h.findInvoice]) fun invoice => ?_
  have hfound {w : World}
      (h : (Refunds.findInvoice w.db merchantId id).mapError Failure.api = .ok invoice) :
      ownsInvoice w merchantId id = true := by
    refine ownsInvoice_of_found (show _ = Except.ok invoice from ?_)
    cases hfind : Refunds.findInvoice w.db merchantId id with
    | error e =>
      rw [hfind] at h
      cases h
    | ok found =>
      rw [hfind] at h
      cases h
      rfl
  refine Isolated.bind (Isolated.query fun w w' h hP => ?_) fun events =>
    (Isolated.pure _).imp (fun w w' hP => ?_) fun _ _ _ hQ => hQ
  · -- the events of an own invoice are own events
    have hown {w : World} (howns : ownsInvoice w merchantId id = true) :
        ∀ e ∈ w.db.paymentEvents.rows, (e.invoiceId == some id) = true →
          ownEvent w merchantId e = true := by
      intro e _ he
      rw [ownEvent, beq_iff_eq.mp he]
      exact howns
    have hperm := filter_perm h.paymentEvents (hown (hfound hP.2.1)) (hown (hfound hP.2.2))
    have htimes : ((w.db.paymentEvents.rows.filter fun e => e.invoiceId == some id).map fun e =>
        (e, w.eventCreatedAt e.id)) =
        (w.db.paymentEvents.rows.filter fun e => e.invoiceId == some id).map fun e =>
          (e, w'.eventCreatedAt e.id) := by
      refine List.map_congr_left fun e he => ?_
      obtain ⟨hmem, hid⟩ := List.mem_filter.mp he
      rw [h.eventCreatedAt e hmem (hown (hfound hP.2.1) e hmem hid)]
    rw [htimes]
    congr 1
    refine newestFirst_eq_of_perm (hperm.map _) fun a ha b hb hab => ?_
    obtain ⟨e, he, rfl⟩ := List.mem_map.mp ha
    obtain ⟨e', he', rfl⟩ := List.mem_map.mp hb
    have : e = e' := Table.eq_of_conflict (List.mem_filter.mp he).1 (List.mem_filter.mp he').1
      (.inl hab)
    rw [this]
  · exact ⟨hP.1.1, hfound hP.1.2.1, hfound hP.1.2.2⟩

theorem listInvoices_confined (input : Invoices.ListQuery) :
    Confined merchantId P (listInvoices env merchantId input) fun _ _ _ => True := by
  refine (Isolated.query fun w w' h _ => ?_).imp (fun _ _ hP => hP) fun _ _ _ _ => trivial
  have hselected (p : Invoice → Bool) :
      ((Invoices.selected w.db merchantId input.status).filter p).insertionSort Invoices.Newer =
        ((Invoices.selected w'.db merchantId input.status).filter p).insertionSort
          Invoices.Newer := by
    have hown (i : Invoice) (hi : (i.merchantId == merchantId &&
        Invoices.hasStatus input.status i) = true) : (i.merchantId == merchantId) = true :=
      (Bool.and_eq_true _ _ ▸ hi).1
    refine sort_eq_of_perm (fun a ha b hb hab hba => ?_)
      ((filter_perm h.invoices (fun i _ => hown i) fun i _ => hown i).filter p)
    have ha' := List.mem_of_mem_filter (List.mem_of_mem_filter ha)
    have hb' := List.mem_of_mem_filter (List.mem_of_mem_filter hb)
    refine Table.eq_of_conflict ha' hb' (.inl ?_)
    rcases hab with hlt | ⟨heq, hle⟩
    · rcases hba with hlt' | ⟨heq', -⟩
      · exact absurd hlt' (Nat.lt_asymm hlt)
      · exact absurd heq' (Nat.ne_of_gt hlt)
    · rcases hba with hlt' | ⟨-, hle'⟩
      · exact absurd heq (Nat.ne_of_gt hlt')
      · exact Nat.le_antisymm hle' hle
  simp only [Invoices.list, hselected]

theorem key_withStatus (status : InvoiceStatus) (i : Invoice) :
    Keyed.key { i with status := status } = Keyed.key i := rfl

/-- The rows keep their ids and merchants, so payment events and refunds have the owners that
they had. -/
theorem ownsInvoice_setStatus (w : World) (p : Invoice → Bool) (status : InvoiceStatus) :
    ownsInvoice { w with db := Invoices.setStatus w.db p status } merchantId =
      ownsInvoice w merchantId :=
  funext fun _ => any_modify (key_withStatus status) fun _ => rfl

theorem Agree.setStatus {w w' : World} (h : Agree merchantId w w') (p : Invoice → Bool)
    (status : InvoiceStatus) :
    Agree merchantId { w with db := Invoices.setStatus w.db p status }
      { w' with db := Invoices.setStatus w'.db p status } := by
  have hevent (w : World) : ownEvent { w with db := Invoices.setStatus w.db p status } merchantId =
      ownEvent w merchantId := by
    funext e
    rw [ownEvent, ownEvent, ownsInvoice_setStatus]
  have hrefund (w : World) : ownRefund { w with db := Invoices.setStatus w.db p status }
      merchantId = ownRefund w merchantId := by
    funext r
    rw [ownRefund, ownRefund, ownsInvoice_setStatus]
  refine { h with
    invoices := own_modify (key_withStatus status) h.invoices (fun _ => rfl) fun _ => rfl
    paymentEvents := ?_
    eventCreatedAt := ?_
    refunds := ?_ }
  · rw [hevent, hevent]
    exact h.paymentEvents
  · rw [hevent]
    exact h.eventCreatedAt
  · rw [hrefund, hrefund]
    exact h.refunds

theorem others_setStatus (w : World) {p : Invoice → Bool} (status : InvoiceStatus)
    (hp : ∀ i, p i = true → (i.merchantId == merchantId) = true) :
    others { w with db := Invoices.setStatus w.db p status } merchantId = others w merchantId := by
  have hinvoices : ((Invoices.setStatus w.db p status).invoices.rows.filter fun i =>
      !(i.merchantId == merchantId)) =
      w.db.invoices.rows.filter fun i => !(i.merchantId == merchantId) :=
    others_modify (key_withStatus status) (fun _ => rfl) fun i _ hi => hp i (right_of_and hi)
  have hrefund : (fun r => !ownRefund { w with db := Invoices.setStatus w.db p status }
      merchantId r) = fun r => !ownRefund w merchantId r := by
    funext r
    rw [ownRefund, ownRefund, ownsInvoice_setStatus]
  simp only [others, hinvoices, hrefund]
  rfl

theorem cancelInvoice_confined (id : Uuid) :
    Confined merchantId P (cancelInvoice merchantId id) fun _ _ _ => True := by
  intro w w' h _
  have haffected : Invoices.affected w.db (Invoices.isCancelled merchantId id) =
      Invoices.affected w'.db (Invoices.isCancelled merchantId id) := by
    have hown (i : Invoice)
        (hi : (i.status.active && Invoices.isCancelled merchantId id i) = true) :
        (i.merchantId == merchantId) = true := right_of_and (right_of_and hi)
    -- no two rows have the id
    have hperm := filter_perm h.invoices (fun i _ => hown i) fun i _ => hown i
    have hany (rows : List Invoice) : rows.Pairwise fun _ _ => True :=
      List.pairwise_of_forall fun _ _ => trivial
    refine hperm.eq_of_pairwise (fun a b ha hb _ _ => ?_) (hany _) (hany _)
    have hb' := hperm.mem_iff.mpr hb
    obtain ⟨ha, hpa⟩ := List.mem_filter.mp ha
    obtain ⟨hb', hpb⟩ := List.mem_filter.mp hb'
    refine Table.eq_of_conflict ha hb' (.inl ?_)
    simp only [Invoices.isCancelled, Bool.and_eq_true, beq_iff_eq] at hpa hpb
    exact hpa.2.1.trans hpb.2.1.symm
  cases hw : Invoices.affected w.db (Invoices.isCancelled merchantId id) with
  | nil =>
    have hcancel {w : World}
        (hw : Invoices.affected w.db (Invoices.isCancelled merchantId id) = []) :
        cancelInvoice merchantId id w =
          (.error (.api (.notFound "Pending invoice not found")), w) := by
      rw [cancelInvoice, Invoices.cancel, hw]
      rfl
    rw [hcancel hw, hcancel (haffected ▸ hw)]
    exact ⟨rfl, h, rfl, fun _ _ => trivial⟩
  | cons i rest =>
    have hcancel {w : World}
        (hw : Invoices.affected w.db (Invoices.isCancelled merchantId id) = i :: rest) :
        cancelInvoice merchantId id w = (.ok { i with status := .cancelled }, { w with
          db := Invoices.setStatus w.db (Invoices.isCancelled merchantId id) .cancelled }) := by
      rw [cancelInvoice, Invoices.cancel, hw]
      rfl
    rw [hcancel hw, hcancel (haffected ▸ hw)]
    refine ⟨rfl, ?_, ?_, fun _ _ => trivial⟩
    · exact h.setStatus (Invoices.isCancelled merchantId id) .cancelled
    · exact others_setStatus w .cancelled fun _ => right_of_and

/-- A refund of the merchant, with an id of its own. -/
theorem insertRefund_confined (r : Refund) (hr : r.merchantId = merchantId) :
    Confined merchantId
      (fun w w' => (∀ x ∈ w.db.refunds.rows, x.id ≠ r.id) ∧ ∀ x ∈ w'.db.refunds.rows, x.id ≠ r.id)
      (insertRefund r) fun _ _ _ => True := by
  have hinsert (w : World) (hfresh : ∀ x ∈ w.db.refunds.rows, x.id ≠ r.id) :
      ∃ refunds : Table Refund, refunds.rows = w.db.refunds.rows ++ [r] ∧
        insertRefund r w = (.ok r, { w with db := { w.db with refunds } }) := by
    cases hinsert : w.db.refunds.insert? r with
    | none =>
      have hsome : (w.db.refunds.insert? r).isSome := by
        rw [Table.insert?, dif_pos (show ∀ a ∈ w.db.refunds.rows, ¬ Keyed.Conflict a r from hfresh)]
        rfl
      rw [hinsert] at hsome
      cases hsome
    | some refunds =>
      refine ⟨refunds, (Table.insert?_eq_some.mp hinsert).2, ?_⟩
      rw [insertRefund, Refunds.insertRefund, hinsert]
      rfl
  rintro w w' h ⟨hfresh, hfresh'⟩
  obtain ⟨refunds, hrows, heq⟩ := hinsert w hfresh
  obtain ⟨refunds', hrows', heq'⟩ := hinsert w' hfresh'
  have hown (w : World) : ownRefund w merchantId r = true := by
    rw [ownRefund, hr, beq_self_eq_true, Bool.true_or]
  rw [heq, heq']
  refine ⟨rfl, { h with refunds := ?_ }, ?_, fun _ _ => trivial⟩
  · rw [hrows, hrows', List.filter_append, List.filter_append, List.filter_singleton,
      List.filter_singleton, hown, hown]
    exact h.refunds.append_right [r]
  · have hothers : (refunds.rows.filter fun x => !ownRefund w merchantId x) =
        w.db.refunds.rows.filter fun x => !ownRefund w merchantId x := by
      rw [hrows, List.filter_append, List.filter_singleton, hown]
      exact List.append_nil _
    exact congrArg (fun rows => { others w merchantId with refunds := rows }) hothers

theorem refundInvoice_confined (id : Uuid) :
    Confined merchantId (fun w w' => Fresh env w ∧ Fresh env w')
      (refundInvoice env merchantId id) fun _ _ _ => True := by
  unfold refundInvoice
  dsimp only
  refine Isolated.bind (getInvoice_confined id) fun found => ?_
  obtain ⟨invoice, events⟩ := found
  apply Isolated.guard
  refine Isolated.bind (Isolated.query fun w w' h hP => ?_) fun existing => ?_
  · have hown {w : World} (howns : ownsInvoice w merchantId id = true) (r : Refund)
        (hr : Refunds.isActive id r = true) : ownRefund w merchantId r = true := by
      rw [Refunds.isActive, Bool.and_eq_true, beq_iff_eq] at hr
      rw [ownRefund, hr.1, howns, Bool.or_true]
    rw [any_eq_of_perm h.refunds (fun r _ => hown hP.2.1 r) fun r _ => hown hP.2.2 r]
  apply Isolated.guard
  refine Isolated.bind (Isolated.query fun w w' h _ => by rw [h.findRecipient]) fun recipient => ?_
  refine Isolated.bind (Isolated.query fun _ _ _ _ => rfl) fun txHash => ?_
  have hinsert := insertRefund_confined
    (Refunds.refundRow env.refundId merchantId id invoice txHash) rfl
  exact hinsert.imp (fun w w' hP => hP.1.1.1.1) fun _ _ _ hQ => hQ

end Invoices

/-! ## Schedules -/

section Schedules

variable {env : Env} {merchantId : Uuid} {P : World → World → Prop}

theorem getSchedule_confined (id : Uuid) :
    Confined merchantId P (getSchedule merchantId id) fun _ _ _ => True :=
  (Isolated.query fun w w' h _ => by rw [h.findSchedule id]).imp (fun _ _ hP => hP)
    fun _ _ _ _ => trivial

theorem listSchedules_confined :
    Confined merchantId P (listSchedules env merchantId) fun _ _ _ => True := by
  refine (Isolated.query fun w w' h _ => ?_).imp (fun _ _ hP => hP) fun _ _ _ _ => trivial
  rw [newestFirst_eq_of_perm h.schedules]
  exact mem_filter_eq fun a ha b hb => Table.eq_of_conflict ha hb

theorem updateRow_confined (id : Uuid) {f : Schedule → Schedule}
    {hf : ∀ s, Keyed.key (f s) = Keyed.key s} (hown : ∀ s, (f s).merchantId = s.merchantId) :
    Confined merchantId P (updateRow merchantId id f hf) fun _ _ _ => True := by
  have hkeeps (s : Schedule) : ((f s).merchantId == merchantId) = (s.merchantId == merchantId) := by
    rw [hown]
  refine fun w w' h _ => ⟨?_, ?_, ?_, fun _ _ => trivial⟩
  · rw [updateRow, updateRow, h.findSchedule id]
  · exact h.withSchedules (own_modify hf h.schedules hkeeps hkeeps)
  · exact others_withSchedules (others_modify hf hkeeps fun _ _ => right_of_and)

theorem updateSchedule_confined (id : Uuid) (input : Option UpdateSchedule) :
    Confined merchantId P (updateSchedule env merchantId id input) fun _ _ _ => True := by
  refine Isolated.bind (getSchedule_confined id) fun current => ?_
  cases input with
  | none => exact Isolated.throw _
  | some dto =>
    dsimp only
    split
    · exact updateRow_confined id fun _ => rfl
    · split
      · exact Isolated.throw _
      · exact updateRow_confined id fun _ => rfl

theorem removeSchedule_confined (id : Uuid) :
    Confined merchantId P (removeSchedule env merchantId id) fun _ _ _ => True := by
  refine Isolated.bind (updateRow_confined id fun _ => rfl) fun row => ?_
  cases row with
  | none => exact Isolated.throw _
  | some row => exact Isolated.pure _

end Schedules

/-! ## Team members -/

section Members

variable {env : Env} {merchantId : Uuid} {P : World → World → Prop}

theorem listMembers_confined :
    Confined merchantId P (listMembers env merchantId) fun _ _ _ => True := by
  refine (Isolated.query fun w w' h _ => ?_).imp (fun _ _ hP => hP) fun _ _ _ _ => trivial
  rw [newestFirst_eq_of_perm h.members]
  exact mem_filter_eq fun a ha b hb hab => Table.eq_of_conflict ha hb (.inl hab)

/-- The member of an id that was found, on both sides. -/
def Found (merchantId : Uuid) (memberId : Nat) (w : World) : Prop :=
  ∃ m ∈ w.members, m.id = memberId ∧ m.merchantId = merchantId

/-- The `UPDATE` names the id alone: it is the one that was found. -/
theorem setRole_confined (memberId : Nat) (role : TeamMembers.Role) :
    Confined merchantId (fun w w' => Found merchantId memberId w ∧ Found merchantId memberId w')
      (setRole env memberId role) fun _ _ _ => True := by
  have hkeeps (m : TeamMembers.Member) :
      ((m.setRole role env.now).merchantId == merchantId) = (m.merchantId == merchantId) := rfl
  intro w w' h hfound
  unfold setRole
  split
  · exact ⟨rfl, h, rfl, fun _ _ => trivial⟩
  · refine ⟨rfl, h.withMembers (own_modify _ h.members hkeeps hkeeps), ?_, fun _ _ => trivial⟩
    refine others_withMembers (others_modify _ hkeeps fun m hm hid => ?_)
    obtain ⟨found, hmem, hfid, howner⟩ := hfound.1
    have : m = found :=
      Table.eq_of_conflict hm hmem (.inl ((beq_iff_eq.mp hid).trans hfid.symm))
    rw [this, howner]
    exact beq_self_eq_true _

theorem updateRole_confined (memberId : Nat) (requesterRole role : TeamMembers.Role) :
    Confined merchantId P (updateRole env merchantId memberId requesterRole role)
      fun _ _ _ => True := by
  unfold updateRole
  dsimp only
  apply Isolated.guard
  refine Isolated.bind (Isolated.query fun w w' h _ => by rw [h.findMember memberId]) fun m => ?_
  have hfound {w : World} (h : orNotFound "Team member not found"
      (w.members.find? (ownMember merchantId memberId)) = .ok m) :
      Found merchantId memberId w := by
    cases hfind : w.members.find? (ownMember merchantId memberId) with
    | none =>
      rw [hfind] at h
      cases h
    | some found =>
      obtain ⟨hmem, hown⟩ := Table.find?_some hfind
      rw [ownMember, Bool.and_eq_true, beq_iff_eq, beq_iff_eq] at hown
      exact ⟨found, hmem, hown.1, hown.2⟩
  refine Isolated.bind ((setRole_confined memberId role).imp
    (fun w w' hP => ⟨hfound hP.2.1, hfound hP.2.2⟩) fun _ _ _ hQ => hQ) fun _ => ?_
  exact Isolated.pure _

theorem suspendRow_confined (memberId : Nat) :
    Confined merchantId P (suspendRow env merchantId memberId) fun _ _ _ => True := by
  have hkeeps (m : TeamMembers.Member) :
      ((m.suspend env.now).merchantId == merchantId) = (m.merchantId == merchantId) := rfl
  refine fun w w' h _ => ⟨?_, ?_, ?_, fun _ _ => trivial⟩
  · rw [suspendRow, suspendRow, h.findMember memberId]
  · exact h.withMembers (own_modify _ h.members hkeeps hkeeps)
  · exact others_withMembers (others_modify _ hkeeps fun _ _ => right_of_and)

theorem suspend_confined (memberId : Nat) (requesterRole : TeamMembers.Role) :
    Confined merchantId P (suspend env merchantId memberId requesterRole) fun _ _ _ => True := by
  unfold suspend
  dsimp only
  apply Isolated.guard
  exact Isolated.bind (suspendRow_confined memberId) fun found =>
    Isolated.ite (Isolated.pure _) (Isolated.throw _)

theorem deleteRow_confined (memberId : Nat) :
    Confined merchantId P (deleteRow merchantId memberId) fun _ _ _ => True := by
  refine fun w w' h _ => ⟨?_, ?_, ?_, fun _ _ => trivial⟩
  · rw [deleteRow, deleteRow, h.findMember memberId]
  · exact h.withMembers (own_delete h.members)
  · exact others_withMembers (others_delete fun _ _ => right_of_and)

theorem removeMember_confined (memberId : Nat) (requesterRole : TeamMembers.Role) :
    Confined merchantId P (removeMember merchantId memberId requesterRole) fun _ _ _ => True := by
  unfold removeMember
  dsimp only
  apply Isolated.guard
  exact Isolated.bind (deleteRow_confined memberId) fun found =>
    Isolated.ite (Isolated.pure _) (Isolated.throw _)

end Members

/-! ## Webhooks -/

section Hooks

variable {env : Env} {merchantId : Uuid} {P : World → World → Prop}

/-- A row is written for the merchant that calls. -/
theorem audit_confined (action : String) (resourceId : Uuid) (actor : Actor)
    (deliveryId : Option Nat) :
    Confined merchantId P (audit env merchantId action resourceId actor deliveryId)
      fun _ _ _ => True := by
  intro w w' h _
  unfold audit
  split
  · refine ⟨rfl, h.withAuditLogs ?_, others_withAuditLogs ?_, fun _ _ => trivial⟩
    · rw [List.filter_append, List.filter_append]
      exact h.auditLogs.append_right _
    · rw [List.filter_append, List.filter_singleton, beq_self_eq_true]
      exact List.append_nil _
  · exact ⟨rfl, h, rfl, fun _ _ => trivial⟩

theorem listWebhooks_confined :
    Confined merchantId P (listWebhooks env merchantId) fun _ _ _ => True := by
  refine (Isolated.query fun w w' h _ => ?_).imp (fun _ _ hP => hP) fun _ _ _ _ => trivial
  have htimes : ((w.store.webhooks.rows.filter fun h => h.merchantId == merchantId).map fun h =>
      (⟨h.id, h.url, h.events, h.active, w.webhookCreatedAt h.id, h.secretRotatedAt⟩ : HookView)) =
      (w.store.webhooks.rows.filter fun h => h.merchantId == merchantId).map fun h =>
        ⟨h.id, h.url, h.events, h.active, w'.webhookCreatedAt h.id, h.secretRotatedAt⟩ := by
    refine List.map_congr_left fun hook hmem => ?_
    rw [List.mem_filter, beq_iff_eq] at hmem
    rw [h.webhookCreatedAt hook hmem.1 hmem.2]
  rw [htimes]
  congr 1
  refine newestFirst_eq_of_perm (h.webhooks.map _) fun a ha b hb hab => ?_
  obtain ⟨hook, hmem, rfl⟩ := List.mem_map.mp ha
  obtain ⟨hook', hmem', rfl⟩ := List.mem_map.mp hb
  have : hook = hook' :=
    Table.eq_of_conflict (List.mem_filter.mp hmem).1 (List.mem_filter.mp hmem').1 hab
  rw [this]

theorem ownsHook_modify {store : Store} {p : Hook → Bool} {f : Hook → Hook}
    {hf : ∀ h, Keyed.key (f h) = Keyed.key h} (hown : ∀ h, (f h).merchantId = h.merchantId)
    (webhookId : Uuid) :
    ownsHook { store with webhooks := store.webhooks.modify p f hf } merchantId webhookId =
      ownsHook store merchantId webhookId := by
  refine any_modify hf fun h => ?_
  have hid : (f h).id = h.id := hf h
  rw [hid, hown]

/-- The row keeps its id and its merchant, so the deliveries have the owners that they had. -/
theorem updateHook_confined (id : Uuid) {f : Hook → Hook}
    {hf : ∀ h, Keyed.key (f h) = Keyed.key h} (hown : ∀ h, (f h).merchantId = h.merchantId) :
    Confined merchantId P (updateHook merchantId id f hf) fun _ _ _ => True := by
  have hkeeps (h : Hook) : ((f h).merchantId == merchantId) = (h.merchantId == merchantId) := by
    rw [hown]
  have howners (w : World) : ownDelivery (updateHook merchantId id f hf w).2 merchantId =
      ownDelivery w merchantId :=
    funext fun d => ownsHook_modify hown d.webhookId
  refine fun w w' h _ => ⟨?_, ?_, ?_, fun _ _ => trivial⟩
  · rw [updateHook, updateHook, h.findHook id]
  · refine { h with webhooks := own_modify hf h.webhooks hkeeps hkeeps, webhookCreatedAt := ?_,
                    deliveries := ?_ }
    · intro hook hmem hmerchant
      obtain ⟨row, hrow, rfl⟩ := (Table.mem_modify hf).mp hmem
      have hsame : (if ownHook merchantId id row then f row else row).id = row.id ∧
          (if ownHook merchantId id row then f row else row).merchantId = row.merchantId := by
        split
        · exact ⟨hf row, hown row⟩
        · exact ⟨rfl, rfl⟩
      rw [hsame.1]
      exact h.webhookCreatedAt row hrow (hsame.2.symm.trans hmerchant)
    · rw [howners w, howners w']
      exact h.deliveries
  · have hhooks : ((updateHook merchantId id f hf w).2.store.webhooks.rows.filter fun h =>
        !(h.merchantId == merchantId)) =
        w.store.webhooks.rows.filter fun h => !(h.merchantId == merchantId) :=
      others_modify hf hkeeps fun _ _ => right_of_and
    simp only [others, hhooks, howners w]
    rfl

theorem deactivate_confined (id : Uuid) (actor : Actor) :
    Confined merchantId P (deactivate env merchantId id actor) fun _ _ _ => True := by
  refine Isolated.bind (updateHook_confined id fun _ => rfl) fun row => ?_
  cases row with
  | none => exact Isolated.throw _
  | some hook => exact Isolated.bind (audit_confined _ _ _ _) fun _ => Isolated.pure _

theorem rotateSecret_confined (id : Uuid) :
    Confined merchantId P (rotateSecret env merchantId id) fun _ _ _ => True := by
  have hfind {w w' : World} (h : Agree merchantId w w') :
      (w.store.webhooks.find? fun h => ownHook merchantId id h && h.active) =
        w'.store.webhooks.find? fun h => ownHook merchantId id h && h.active := by
    refine found_eq h.webhooks (fun hook hq => ?_) (fun hook hq => ?_) fun a b ha hb => ?_
    · exact right_of_and (Bool.and_eq_true _ _ ▸ hq).1
    · exact right_of_and (Bool.and_eq_true _ _ ▸ hq).1
    · simp only [ownHook, Bool.and_eq_true, beq_iff_eq] at ha hb
      exact ha.1.1.trans hb.1.1.symm
  refine Isolated.bind (Isolated.query fun w w' h _ => by rw [hfind h]) fun _ => ?_
  refine Isolated.bind (updateHook_confined id fun _ => rfl) fun row => ?_
  cases row with
  | none => exact Isolated.throw _
  | some hook => exact Isolated.pure _

end Hooks

/-! ## Deliveries -/

section Deliveries

variable {env : Env} {merchantId : Uuid} {P : World → World → Prop}

theorem Agree.ownDelivery {w w' : World} (h : Agree merchantId w w') :
    ownDelivery w merchantId = ownDelivery w' merchantId :=
  funext fun d => congrFun h.ownsHook d.webhookId

/-- Afterwards, the webhook is known to be one of the merchant. -/
theorem findHook_confined (webhookId : Uuid) :
    Confined merchantId P (findHook merchantId webhookId) fun _ w w' =>
      P w w' ∧ ownsHook w.store merchantId webhookId = true := by
  refine (Isolated.query fun w w' h _ => by rw [h.findHook webhookId]).imp (fun _ _ hP => hP)
    fun hook w w' hQ => ⟨hQ.1, ?_⟩
  have hfound := hQ.2.1
  cases hfind : w.store.webhooks.find? (ownHook merchantId webhookId) with
  | none =>
    rw [hfind] at hfound
    cases hfound
  | some row =>
    obtain ⟨hmem, hown⟩ := Table.find?_some hfind
    exact List.any_eq_true.mpr ⟨row, hmem, hown⟩

/-- Deliveries of a webhook of the merchant. -/
theorem hookDeliveries_perm {w w' : World} (h : Agree merchantId w w') {webhookId : Uuid}
    (howns : ownsHook w.store merchantId webhookId = true) :
    (w.store.deliveries.rows.filter fun d => d.webhookId == webhookId).Perm
      (w'.store.deliveries.rows.filter fun d => d.webhookId == webhookId) := by
  have hown (d : Delivery) (hd : (d.webhookId == webhookId) = true) :
      Tenants.ownDelivery w merchantId d = true := by
    rw [Tenants.ownDelivery, beq_iff_eq.mp hd]
    exact howns
  exact filter_perm h.deliveries (fun d _ => hown d) fun d _ hd => by
    rw [← h.ownDelivery]
    exact hown d hd

theorem deliveries_confined (webhookId : Uuid) :
    Confined merchantId P (deliveries env merchantId webhookId) fun _ _ _ => True := by
  refine Isolated.bind (findHook_confined webhookId) fun _ => ?_
  refine (Isolated.query fun w w' h hP => ?_).imp (fun _ _ hP => hP) fun _ _ _ _ => trivial
  rw [newestFirst_eq_of_perm (hookDeliveries_perm h hP.2)]
  exact mem_filter_eq fun a ha b hb => Table.eq_of_conflict ha hb

theorem deliveryById_confined (webhookId : Uuid) (deliveryId : Nat) :
    Confined merchantId P (deliveryById merchantId webhookId deliveryId) fun _ _ _ => True := by
  refine (Isolated.query fun w w' h _ => ?_).imp (fun _ _ hP => hP) fun _ _ _ _ => trivial
  rw [h.ownsHook]
  congr 1
  refine found_eq h.deliveries (fun d hd => ?_) (fun d hd => ?_) fun a b ha hb => ?_
  · rw [h.ownDelivery]
    exact (Bool.and_eq_true _ _ ▸ (Bool.and_eq_true _ _ ▸ hd).1).1
  · exact (Bool.and_eq_true _ _ ▸ (Bool.and_eq_true _ _ ▸ hd).1).1
  · exact (beq_iff_eq.mp (right_of_and ha)).trans (beq_iff_eq.mp (right_of_and hb)).symm

/-- An `UPDATE` of deliveries of the merchant. -/
theorem updateDelivery_confined {p : Store → Delivery → Bool} {f : Delivery → Delivery}
    {hf : ∀ d, Keyed.key (f d) = Keyed.key d} (hhook : ∀ d, (f d).webhookId = d.webhookId)
    (hid : ∀ (store : Store) (a b : Delivery), p store a = true → p store b = true → a.id = b.id)
    (hsame : ∀ w w', Agree merchantId w w' → p w.store = p w'.store)
    (hown : ∀ w w', Agree merchantId w w' → P w w' → ∀ d, p w.store d = true →
      Tenants.ownDelivery w merchantId d = true) :
    Confined merchantId P (updateDelivery p f hf) fun _ _ _ => True := by
  have hkeeps (w : World) (d : Delivery) :
      Tenants.ownDelivery w merchantId (f d) = Tenants.ownDelivery w merchantId d := by
    rw [Tenants.ownDelivery, Tenants.ownDelivery, hhook]
  refine fun w w' h hP => ⟨?_, ?_, ?_, fun _ _ => trivial⟩
  · have hfind : w.store.deliveries.find? (p w.store) = w'.store.deliveries.find? (p w.store) := by
      refine found_eq h.deliveries (hown w w' h hP) (fun d hd => ?_) (hid w.store)
      rw [← h.ownDelivery]
      exact hown w w' h hP d hd
    rw [updateDelivery, updateDelivery, ← hsame w w' h, hfind]
  · refine h.withDeliveries ?_
    rw [hsame w w' h]
    exact own_modify hf h.deliveries (hkeeps w) (hkeeps w')
  · exact others_withDeliveries (others_modify hf (hkeeps w) fun d _ => hown w w' h hP d)

theorem retry_confined (deliveryId : Nat) (actor : Actor) :
    Confined merchantId P (retry env merchantId deliveryId actor) fun _ _ _ => True := by
  refine Isolated.bind (updateDelivery_confined (fun _ => rfl) (fun store a b ha hb => ?_)
    (fun w w' h => ?_) fun w w' h _ d hd => ?_) fun row => ?_
  · simp only [canRetry, Bool.and_eq_true, beq_iff_eq] at ha hb
    exact ha.1.2.trans hb.1.2.symm
  · funext d
    rw [canRetry, canRetry, h.ownsHook]
  · rw [canRetry, Bool.and_eq_true, Bool.and_eq_true] at hd
    exact hd.1.1
  · cases row with
    | none => exact Isolated.throw _
    | some delivery => exact Isolated.bind (audit_confined _ _ _ _) fun _ => Isolated.pure _

/-- The `UPDATE` names the webhook alone: it is the one that was found. -/
theorem replay_confined (webhookId : Uuid) (deliveryId : Nat) (actor : Actor) :
    Confined merchantId P (replay env merchantId webhookId deliveryId actor)
      fun _ _ _ => True := by
  refine Isolated.bind (findHook_confined webhookId) fun _ => ?_
  refine Isolated.bind (updateDelivery_confined (fun _ => rfl) (fun store a b ha hb => ?_)
    (fun _ _ _ => rfl) fun w w' _ hP d hd => ?_) fun row => ?_
  · simp only [replays, Bool.and_eq_true, beq_iff_eq] at ha hb
    exact ha.1.trans hb.1.symm
  · rw [Tenants.ownDelivery, beq_iff_eq.mp (right_of_and hd)]
    exact hP.2
  · cases row with
    | none => exact Isolated.throw _
    | some delivery => exact Isolated.bind (audit_confined _ _ _ _) fun _ => Isolated.pure _

theorem health_confined (webhookId : Uuid) :
    Confined merchantId P (health webhookId) fun _ _ _ => True :=
  Isolated.throw _

end Deliveries

/-! ## Calls -/

section Calls

variable {env : Env} {merchantId : Uuid} {P : World → World → Prop}

/-- One case for each call. -/
theorem run_confined (call : Call) :
    Confined merchantId (fun w w' => Fresh env w ∧ Fresh env w') (call.run env merchantId)
      fun _ _ _ => True := by
  cases call with
  | getInvoice id => exact Isolated.bind (getInvoice_confined id) fun _ =>
      (Isolated.pure _).imp (fun _ _ hP => hP) fun _ _ _ _ => trivial
  | listInvoices input =>
    exact Isolated.bind (listInvoices_confined input) fun _ => Isolated.pure _
  | cancelInvoice id => exact Isolated.bind (cancelInvoice_confined id) fun _ => Isolated.pure _
  | refundInvoice id => exact Isolated.bind (refundInvoice_confined id) fun _ => Isolated.pure _
  | listWebhooks => exact Isolated.bind listWebhooks_confined fun _ => Isolated.pure _
  | deactivate id actor =>
    exact Isolated.bind (deactivate_confined id actor) fun _ => Isolated.pure _
  | rotateSecret id => exact Isolated.bind (rotateSecret_confined id) fun _ => Isolated.pure _
  | deliveries webhookId =>
    exact Isolated.bind (deliveries_confined webhookId) fun _ => Isolated.pure _
  | deliveryById webhookId deliveryId =>
    exact Isolated.bind (deliveryById_confined webhookId deliveryId) fun _ => Isolated.pure _
  | retry deliveryId actor =>
    exact Isolated.bind (retry_confined deliveryId actor) fun _ => Isolated.pure _
  | replay webhookId deliveryId actor =>
    exact Isolated.bind (replay_confined webhookId deliveryId actor) fun _ => Isolated.pure _
  | health webhookId => exact Isolated.bind (health_confined webhookId) fun row => row.elim
  | listSchedules => exact Isolated.bind listSchedules_confined fun _ => Isolated.pure _
  | getSchedule id => exact Isolated.bind (getSchedule_confined id) fun _ => Isolated.pure _
  | updateSchedule id input =>
    exact Isolated.bind (updateSchedule_confined id input) fun _ => Isolated.pure _
  | removeSchedule id => exact Isolated.bind (removeSchedule_confined id) fun _ => Isolated.pure _
  | listMembers => exact Isolated.bind listMembers_confined fun _ => Isolated.pure _
  | updateRole memberId requesterRole role =>
    exact Isolated.bind (updateRole_confined memberId requesterRole role) fun _ => Isolated.pure _
  | suspend memberId requesterRole =>
    exact Isolated.bind (suspend_confined memberId requesterRole) fun _ => Isolated.pure _
  | removeMember memberId requesterRole =>
    exact Isolated.bind (removeMember_confined memberId requesterRole) fun _ => Isolated.pure _

end Calls

section Runs

variable {merchantId : Uuid}

/-- One call, in two databases that agree. -/
theorem serving_step {s s' t t' : World} {a : Env × Call} (h : Agree merchantId s t)
    (hs : (serving merchantId).step s a = some s') (ht : (serving merchantId).step t a = some t') :
    answer merchantId s a = answer merchantId t a ∧ Agree merchantId s' t' ∧
      others s' merchantId = others s merchantId := by
  simp only [serving, Option.ite_none_right_eq_some, Option.some.injEq] at hs ht
  obtain ⟨hfresh, rfl⟩ := hs
  obtain ⟨hfresh', rfl⟩ := ht
  obtain ⟨hresult, hagree, hothers, -⟩ := run_confined a.2 s t h ⟨hfresh, hfresh'⟩
  exact ⟨by rw [answer, answer, hresult], hagree, hothers⟩

/-- **Tenants are isolated**: in two databases that agree on the rows of a merchant, every run of
its calls has the same results and errors and leaves the same rows of the merchant, and no row of
another merchant is changed. -/
theorem tenants_isolated {s t u v : World} {as : List (Env × Call)} (h : Agree merchantId s t)
    (hs : (serving merchantId).run s as = some u) (ht : (serving merchantId).run t as = some v) :
    (serving merchantId).outputs (answer merchantId) s as =
        (serving merchantId).outputs (answer merchantId) t as ∧
      Agree merchantId u v ∧
      others u merchantId = others s merchantId ∧ others v merchantId = others t merchantId := by
  have hothers {s u : World} (hs : (serving merchantId).run s as = some u) :
      others u merchantId = others s merchantId := by
    refine (serving merchantId).inv_of_run (I := fun w => others w merchantId = others s merchantId)
      (fun w a w' hw hstep => ?_) rfl hs
    exact (serving_step (Agree.refl merchantId w) hstep hstep).2.2.trans hw
  obtain ⟨houtputs, hagree⟩ := isolated_run (serving merchantId)
    (fun _ _ _ _ _ h hs ht => ⟨(serving_step h hs ht).1, (serving_step h hs ht).2.1⟩) h hs ht
  exact ⟨houtputs, hagree, hothers hs, hothers ht⟩

/-- Merchant 2 has a webhook with a dead delivery, and a team member. -/
def secondTenant (schedules : Table Schedule) : World where
  db := {}
  store :=
    { webhooks := ⟨[⟨⟨8, 2, ["invoice.paid"], true⟩, "https://b.example", "k", none, none⟩],
        List.pairwise_singleton _ _⟩
      deliveries := ⟨[⟨4, 8, "invoice.paid", "\x7b\x7d", .dead, 5, none, some 500, none, 0⟩],
        List.pairwise_singleton _ _⟩ }
  webhookCreatedAt _ := 0
  eventCreatedAt _ := 0
  schedules
  members := ⟨[⟨3, 2, "b@example.com", "B", none, .viewer, .active, none, none, none, 0, 0⟩],
    List.pairwise_singleton _ _⟩
  auditLogs := []

/-- A daily schedule over one USDC. -/
def schedule (id merchantId : Uuid) (recipient : String) : Schedule :=
  ⟨id, merchantId, recipient, ⟨10000000, by decide⟩, .daily, .active, 9, 0, 0⟩

/-- A day on which nothing is signed or sent. -/
def quietDay : Env where
  now := 7
  timestamptz _ := none
  refunds := ⟨fun _ => false⟩
  sent := none
  refundId := 0
  secrets := { hmacSha256 := fun _ _ => "", sha256 := fun _ => "" }
  newSecret := "whsec_0"
  nextRunAt _ := 9
  place id := id
  place_injective _ _ h := h
  auditable := true

/-- Merchant 1 cancels its own schedule, and then tries ids of merchant 2. -/
theorem tenants_isolated_otherIds :
    let s := secondTenant ⟨[schedule 5 1 "GA", schedule 6 2 "GB"], by decide⟩
    let t := secondTenant ⟨[schedule 6 2 "GC", schedule 5 1 "GA"], by decide⟩
    let as : List (Env × Call) :=
      [(quietDay, .removeSchedule 5), (quietDay, .removeSchedule 6),
        (quietDay, .retry 4 ⟨none, none⟩), (quietDay, .replay 8 4 ⟨none, none⟩),
        (quietDay, .updateRole 3 .owner .admin)]
    ∃ u v, (serving 1).run s as = some u ∧ (serving 1).run t as = some v ∧
      (serving 1).outputs (answer 1) s as = (serving 1).outputs (answer 1) t as ∧
      Agree 1 u v ∧ others u 1 = others s 1 ∧ others v 1 = others t 1 := by
  intro s t as
  have hagree : Agree 1 s t :=
    { Agree.refl 1 s with schedules := .refl _ }
  exact ⟨_, _, rfl, rfl, tenants_isolated hagree rfl rfl⟩

end Runs

end Stargate.Tenants
