import Stargate.Reconciler.Platform

/-!
# Crediting is all or nothing

A credit is written to four tables in one transaction, after an event row that is
committed outside it and before a publish that can fail. Whatever fails, whatever is
delivered again and whatever merchants do to their webhooks in between: the tables
hold exactly the rows of the credits whose `COMMIT` ran.

- `insertions`, `postings`: the delivery `INSERT`s and the `COMMIT`s of a run;
- `PostInv`: the tables are those of the postings, and no event is credited twice;
- `allOrNothing_of_run`: what this says of ledger, conversions and deliveries.
-/

namespace Stargate.Reconciler

open Base Invoices

variable {n m : Nat}

/-- The delivery `INSERT` that a step runs, with the webhooks that it selects. -/
def insertion (s : Sys n m) : Request n m → List Posting
  | .system (.exec k _) =>
    match s.calls k with
    | .running _ (.insertDeliveries c _) =>
      [⟨c, subscribers s.world.db c.inv.merchantId "invoice.paid"⟩]
    | _ => []
  | _ => []

/-- The credit that a step commits. -/
def posting (s : Sys n m) : Request n m → List Posting
  | .system (.exec k _) =>
    match s.calls k with
    | .running _ (.commit c _ hooks) => [⟨c, hooks⟩]
    | _ => []
  | _ => []

/-- The delivery `INSERT`s of a run. -/
def insertions (env : Env) (s : Sys n m) (run : List (Request n m)) : List Posting :=
  (platform env n m).outputs insertion s run

/-- The credits that a run commits. -/
def postings (env : Env) (s : Sys n m) (run : List (Request n m)) : List Posting :=
  (platform env n m).outputs posting s run

def Posting.eventId (p : Posting) : Nat := p.credit.eventId

/-- The `conversion` row of a credit. -/
def Posting.conversion (p : Posting) : PaymentLinkEvent :=
  ⟨p.credit.inv.id, p.credit.inv.merchantId, .conversion⟩

def Posting.deliveries (p : Posting) : List WebhookDelivery := p.hooks.map p.credit.delivery

/-- `payload->>'event_id'`. -/
def payloadEventId (d : WebhookDelivery) : Option Nat :=
  match d.payload with
  | .invoicePaid _ eventId => some eventId
  | _ => none

/-- The deliveries that announce a payment. -/
def paidDeliveries (db : Db) : List WebhookDelivery :=
  db.webhookDeliveries.filter fun d => (payloadEventId d).isSome

/-- The event has a ledger row. -/
def Posted (db : Db) (eventId : Nat) : Prop := ∃ l ∈ db.ledgerEntries, l.eventId = eventId

/-- The `conversion` row of the credit of an event is stored: it stands at the place of
the credit among the credits. -/
def Converted (log : List Posting) (db : Db) (eventId : Nat) : Prop :=
  ∃ (j : Nat) (p : Posting), log[j]? = some p ∧ p.eventId = eventId ∧
    (conversions db)[j]? = some p.conversion

/-- The deliveries to a webhook about an event. -/
def deliveriesOf (db : Db) (webhookId : Uuid) (eventId : Nat) : Nat :=
  db.webhookDeliveries.countP fun d => d.webhookId == webhookId && payloadEventId d == some eventId

/-- A credit is in all tables or in none. -/
structure AllOrNothing (inserted log : List Posting) (db : Db) : Prop where
  /-- An event is credited at most once. -/
  once : (log.map Posting.eventId).Nodup
  /-- There are no other conversions. -/
  conversions : conversions db = log.map Posting.conversion
  converted : ∀ eventId, Posted db eventId ↔ Converted log db eventId
  /-- The deliveries of a credit were selected by its `INSERT`. -/
  selected : ∀ eventId, Posted db eventId → ∃ p ∈ inserted, p.eventId = eventId
  announced : ∀ p : Posting, p ∈ inserted → Posted db p.eventId → ∀ h ∈ p.hooks,
    deliveriesOf db h p.eventId = 1
  counted : ∀ id, (Reconciler.conversions db).countP (fun e => e.invoiceId == id)
    = db.ledgerEntries.rows.countP fun l => l.invoiceId == id && l.type == .payment

/-! ## The invariant -/

/-- Two calls are at different events. -/
def Stage.Apart (a b : Stage) : Prop := ∀ eventId, a.eventId = some eventId →
  b.eventId ≠ some eventId

theorem Stage.apart_symm (a b : Stage) (h : a.Apart b) : b.Apart a :=
  fun eventId hb ha => h eventId ha hb

/-- The event of this id is stored. -/
def EventStored (db : Db) (eventId : Nat) : Prop := ∃ e ∈ db.paymentEvents, e.id = eventId

/-- The tables of a credit, as the postings say. -/
structure PostedAs (log : List Posting) (db : Db) : Prop where
  ledger : List.Forall₂ (fun l p => l = p.credit.entry l.id) db.ledgerEntries.rows log
  conversions : conversions db = log.map Posting.conversion
  deliveries : paidDeliveries db = log.flatMap Posting.deliveries

/-- What holds of a call at a stage: its event is stored, and used by no other `INSERT`
or `COMMIT`. -/
def StageOk (inserted log : List Posting) (db : Db) : Stage → Prop
  | .none => True
  | .held eventId => EventStored db eventId ∧ ∀ p ∈ inserted, p.eventId ≠ eventId
  | .inserted p => EventStored db p.eventId ∧ p ∈ inserted ∧ ∀ q ∈ log, q.eventId ≠ p.eventId

/-- The invariant of a run, over the delivery `INSERT`s and the `COMMIT`s so far. -/
structure PostInv (inserted log : List Posting) (db : Db) (stages : Fin n → Stage) : Prop where
  posted : PostedAs log db
  calls : ∀ k, StageOk inserted log db (stages k)
  apart : ∀ j k, j ≠ k → (stages j).Apart (stages k)
  known : ∀ p ∈ inserted, EventStored db p.eventId ∧ p.hooks.Nodup
  insertedOnce : (inserted.map Posting.eventId).Nodup
  postedOnce : (log.map Posting.eventId).Nodup
  wasInserted : ∀ p ∈ log, p ∈ inserted

/-- No rows of a credit are written. -/
structure Quiet (db db' : Db) : Prop where
  ledger : db'.ledgerEntries = db.ledgerEntries
  conversions : conversions db' = conversions db
  deliveries : paidDeliveries db' = paidDeliveries db
  events : ∀ e ∈ db.paymentEvents, e ∈ db'.paymentEvents

section Steps

variable {env : Env} {inserted log : List Posting} {db db' : Db} {stages stages' : Fin n → Stage}

theorem Quiet.of_same (h : SameRows db db')
    (hevents : ∀ e ∈ db.paymentEvents, e ∈ db'.paymentEvents) : Quiet db db' where
  ledger := h.ledger
  conversions := by rw [Reconciler.conversions, h.links, Reconciler.conversions]
  deliveries := by rw [paidDeliveries, h.deliveries, paidDeliveries]
  events := hevents

theorem EventStored.quiet (hq : Quiet db db') {eventId : Nat} :
    EventStored db eventId → EventStored db' eventId :=
  fun ⟨e, he, hid⟩ => ⟨e, hq.events e he, hid⟩

theorem PostedAs.quiet (h : PostedAs log db) (hq : Quiet db db') :
    PostedAs log db' where
  ledger := by
    rw [hq.ledger]
    exact h.ledger
  conversions := hq.conversions.trans h.conversions
  deliveries := hq.deliveries.trans h.deliveries

theorem StageOk.stored {st : Stage} {eventId : Nat} (h : StageOk inserted log db st)
    (hid : st.eventId = some eventId) : EventStored db eventId := by
  cases st with
  | none => cases hid
  | held _ =>
    cases hid
    exact h.1
  | inserted _ =>
    cases hid
    exact h.1

/-- A call at an event of its own is not concerned by the `INSERT`s and `COMMIT`s of
others. -/
theorem StageOk.mono {inserted' log' : List Posting} {st : Stage}
    (h : StageOk inserted log db st)
    (hstored : ∀ eventId, EventStored db eventId → EventStored db' eventId)
    (hsub : inserted ⊆ inserted')
    (hins : ∀ p ∈ inserted', p ∈ inserted ∨ st.eventId ≠ some p.eventId)
    (hlog : ∀ p ∈ log', p ∈ log ∨ st.eventId ≠ some p.eventId) :
    StageOk inserted' log' db' st := by
  cases st with
  | none => trivial
  | held eventId =>
    refine ⟨hstored _ h.1, fun p hp hid => ?_⟩
    rcases hins p hp with hp | hne
    · exact h.2 p hp hid
    · exact hne (congrArg some hid.symm)
  | inserted p =>
    refine ⟨hstored _ h.1, hsub h.2.1, fun q hq hid => ?_⟩
    rcases hlog q hq with hq | hne
    · exact h.2.2 q hq hid
    · exact hne (congrArg some hid.symm)

theorem Quiet.refl (db : Db) : Quiet db db := ⟨rfl, rfl, rfl, fun _ h => h⟩

/-- No rows are written, and calls stay where they are or give up. -/
theorem PostInv.quiet (h : PostInv inserted log db stages) (hq : Quiet db db')
    (hstages : ∀ k, stages' k = stages k ∨ stages' k = .none) :
    PostInv inserted log db' stages' where
  posted := h.posted.quiet hq
  calls k := by
    rcases hstages k with heq | heq
    · rw [heq]
      exact (h.calls k).mono (fun _ => .quiet hq) (List.Subset.refl _) (fun _ => .inl) fun _ => .inl
    · rw [heq]
      trivial
  apart j k hjk eventId hj hk := by
    rcases hstages j with heq | heq
    · rcases hstages k with heq' | heq'
      · exact h.apart j k hjk eventId (heq ▸ hj) (heq' ▸ hk)
      · rw [heq'] at hk
        cases hk
    · rw [heq] at hj
      cases hj
  known p hp := ⟨(h.known p hp).1.quiet hq, (h.known p hp).2⟩
  insertedOnce := h.insertedOnce
  postedOnce := h.postedOnce
  wasInserted := h.wasInserted

/-- A call writes the event of its credit, under an id above all others. -/
theorem PostInv.record (h : PostInv inserted log db stages) (hq : Quiet db db') {k : Fin n}
    {e : PaymentEvent} (hnew : ∀ x ∈ db.paymentEvents, x.id < e.id)
    (hmem : e ∈ db'.paymentEvents) :
    PostInv inserted log db' (Function.update stages k (.held e.id)) := by
  have hfresh : ¬ EventStored db e.id := fun ⟨x, hx, hid⟩ => by
    have := hnew x hx
    omega
  have hquiet := h.quiet hq fun _ => .inl rfl
  refine { hquiet with calls := ?_, apart := ?_ }
  · refine forall_update ⟨⟨e, hmem, rfl⟩, fun p hp hid => ?_⟩ fun j _ => hquiet.calls j
    exact hfresh (hid ▸ (h.known p hp).1)
  · refine pairwise_update Stage.apart_symm h.apart fun j _ eventId heq hj => ?_
    cases heq
    exact hfresh ((h.calls j).stored hj)

theorem nodup_concat {ps : List Posting} {p : Posting} (h : (ps.map Posting.eventId).Nodup)
    (hnew : ∀ q ∈ ps, q.eventId ≠ p.eventId) : ((ps ++ [p]).map Posting.eventId).Nodup := by
  rw [List.map_append, List.nodup_append]
  refine ⟨h, List.nodup_singleton _, fun x hx y hy heq => ?_⟩
  obtain ⟨q, hq, rfl⟩ := List.mem_map.mp hx
  exact hnew q hq (heq.trans (List.mem_singleton.mp hy))

/-- Another call is at another event. -/
theorem PostInv.others (h : PostInv inserted log db stages) {k : Fin n} {p : Posting}
    (hid : (stages k).eventId = some p.eventId) {ps : List Posting} {j : Fin n} (hj : j ≠ k) :
    ∀ q ∈ ps ++ [p], q ∈ ps ∨ (stages j).eventId ≠ some q.eventId := by
  intro q hq
  refine (List.mem_append.mp hq).imp_right fun hq => ?_
  rw [List.mem_singleton.mp hq]
  exact h.apart k j hj.symm _ hid

/-- A call inserts the deliveries of its credit. -/
theorem PostInv.insert (h : PostInv inserted log db stages) {k : Fin n} {p : Posting}
    (hk : stages k = .held p.eventId) (hnodup : p.hooks.Nodup) :
    PostInv (inserted ++ [p]) log db (Function.update stages k (.inserted p)) := by
  have hid : (stages k).eventId = some p.eventId := by rw [hk, Stage.eventId]
  obtain ⟨hstored, hfresh⟩ : StageOk inserted log db (.held p.eventId) := hk ▸ h.calls k
  refine
    { posted := h.posted
      calls := ?_
      apart := ?_
      known := ?_
      insertedOnce := nodup_concat h.insertedOnce hfresh
      postedOnce := h.postedOnce
      wasInserted := fun q hq => List.mem_append_left _ (h.wasInserted q hq) }
  · refine forall_update ⟨hstored, by simp, fun q hq => hfresh q (h.wasInserted q hq)⟩
      fun j hj => ?_
    exact (h.calls j).mono (fun _ h => h) (List.subset_append_left _ _) (h.others hid hj)
      fun _ => .inl
  · refine pairwise_update Stage.apart_symm h.apart fun j hj eventId heq hj' => ?_
    cases heq
    exact h.apart k j hj.symm _ hid hj'
  · intro q hq
    rcases List.mem_append.mp hq with hq | hq
    · exact h.known q hq
    · rw [List.mem_singleton.mp hq]
      exact ⟨hstored, hnodup⟩

theorem paidDeliveries_commitCredit (db : Db) (c : Credit) (updated : Bool) (hooks : List Uuid) :
    paidDeliveries (commitCredit db c updated hooks)
      = paidDeliveries db ++ hooks.map c.delivery := by
  have hall : (hooks.map c.delivery).filter (fun d => (payloadEventId d).isSome)
      = hooks.map c.delivery := by
    refine List.filter_eq_self.mpr fun d hd => ?_
    obtain ⟨h, -, rfl⟩ := List.mem_map.mp hd
    rfl
  rw [paidDeliveries, commitCredit, List.filter_append, hall, paidDeliveries]

theorem PostedAs.commit (h : PostedAs log db) (p : Posting) (updated : Bool) :
    PostedAs (log ++ [p]) (commitCredit db p.credit updated p.hooks) where
  ledger := List.rel_append h.ledger (.cons rfl .nil)
  conversions := by
    have hprev := h.conversions
    rw [Reconciler.conversions] at hprev
    simp [Reconciler.conversions, commitCredit, List.filter_append, hprev, Posting.conversion]
  deliveries := by
    rw [paidDeliveries_commitCredit, h.deliveries, List.flatMap_append]
    simp [Posting.deliveries]

/-- A call commits its credit: one row in each table, and its deliveries. -/
theorem PostInv.commit (h : PostInv inserted log db stages) {k : Fin n} {p : Posting}
    {updated : Bool} (hk : stages k = .inserted p) :
    PostInv inserted (log ++ [p]) (commitCredit db p.credit updated p.hooks)
      (Function.update stages k .none) := by
  have hid : (stages k).eventId = some p.eventId := by rw [hk, Stage.eventId, Posting.eventId]
  obtain ⟨-, hmem, hunposted⟩ : StageOk inserted log db (.inserted p) := hk ▸ h.calls k
  refine
    { posted := h.posted.commit p updated
      calls := ?_
      apart := ?_
      known := h.known
      insertedOnce := h.insertedOnce
      postedOnce := nodup_concat h.postedOnce hunposted
      wasInserted := ?_ }
  · refine forall_update trivial fun j hj => ?_
    -- stages speak of events only, and the `COMMIT` writes none
    exact (h.calls j).mono (fun _ h => h) (List.Subset.refl _) (fun _ => .inl) (h.others hid hj)
  · refine pairwise_update Stage.apart_symm h.apart fun j _ eventId heq => ?_
    cases heq
  · intro q hq
    rcases List.mem_append.mp hq with hq | hq
    · exact h.wasInserted q hq
    · rwa [List.mem_singleton.mp hq]

/-! ## Steps of the platform -/

theorem insertion_eq_nil {s : Sys n m} {k : Fin n} {now : Timestamp} {payment : HorizonPayment}
    {pc : Pc} (hrun : s.calls k = .running payment pc)
    (hpc : ∀ c updated, pc ≠ .insertDeliveries c updated) :
    insertion s (.system (.exec k now)) = [] := by
  simp only [insertion, hrun]
  split
  · next heq =>
    cases heq
    exact absurd rfl (hpc _ _)
  · rfl

theorem posting_eq_nil {s : Sys n m} {k : Fin n} {now : Timestamp} {payment : HorizonPayment}
    {pc : Pc} (hrun : s.calls k = .running payment pc)
    (hpc : ∀ c updated hooks, pc ≠ .commit c updated hooks) :
    posting s (.system (.exec k now)) = [] := by
  simp only [posting, hrun]
  split
  · next heq =>
    cases heq
    exact absurd rfl (hpc _ _ _)
  · rfl

/-- A statement of an API call writes no rows of a credit. -/
theorem ApiCall.exec_quiet {now : Timestamp} {locked : Uuid → Bool} {call call' : ApiCall}
    (hh : call.Honest) (h : call.exec now locked db = some (db', call')) : Quiet db db' := by
  have hsame : ∀ {db' : Db}, db' = db → Quiet db db' := fun heq => heq ▸ .refl db
  cases call with
  | idle => cases h
  | selectHooks todo => cases todo <;> cases h <;> exact .refl db
  | insertDelivery d hooks todo =>
    cases hooks with
    | nil =>
      cases h
      exact .refl db
    | cons hook hooks =>
      cases h
      refine ⟨rfl, rfl, ?_, fun _ h => h⟩
      have hnone : payloadEventId ⟨hook, d.eventType, d.payload⟩ = none := by
        unfold payloadEventId
        split
        · next id eventId heq => exact absurd heq (hh.1 id eventId)
        · rfl
      simp [paidDeliveries, List.filter_append, hnone]
  | partialSelect invoiceId paidAmount =>
    simp only [ApiCall.exec] at h
    repeat' split at h
    all_goals
      cases h
      try exact .refl db
  | partialUpdate invoice paidAmount remaining start =>
    simp only [ApiCall.exec] at h
    split at h <;> cases h <;> exact .refl db
  | partialCommit row =>
    cases h
    exact ⟨rfl, rfl, rfl, fun _ h => h⟩

theorem Sys.update_quiet {s : Sys n m} {self : Option (Fin n ⊕ Fin m)} {p : Invoice → Bool}
    {status : InvoiceStatus} {w : World} (h : s.update self p status = some w) :
    Quiet s.world.db w.db := by
  unfold Sys.update at h
  split at h
  · cases h
    exact ⟨rfl, rfl, rfl, fun _ h => h⟩
  · cases h

/-- A step that is no statement of a reconciler process. -/
theorem quiet_step {s s' : Sys n m} {a : Label n m} (hsound : s.Sound)
    (hexec : ∀ k now, a ≠ .exec k now) (hstep : (system env n m).step s a = some s') :
    Quiet s.world.db s'.world.db ∧ ∀ k, s'.stages k = s.stages k ∨ s'.stages k = .none := by
  have hupdate : ∀ (k : Fin n) (c : Call), c.stage = .none →
      ∀ j, (Call.stage ∘ Function.update s.calls k c) j = s.stages j ∨
        (Call.stage ∘ Function.update s.calls k c) j = .none := by
    intro k c hc j
    rw [Function.comp_apply]
    rcases update_cases s.calls k j c with ⟨heq, -⟩ | ⟨-, heq⟩
    · exact .inl (congrArg Call.stage heq)
    · exact .inr (by rw [heq, hc])
  cases step_spec hstep with
  | deliver | abort => exact ⟨.refl _, hupdate _ _ rfl⟩
  | exec => exact absurd rfl (hexec _ _)
  | redis | applyPartial | apiAbort => exact ⟨.refl _, fun _ => .inl rfl⟩
  | create => exact ⟨⟨rfl, rfl, rfl, fun _ h => h⟩, fun _ => .inl rfl⟩
  | cancel hupd => exact ⟨Sys.update_quiet hupd, fun _ => .inl rfl⟩
  | expire _ hupd => exact ⟨Sys.update_quiet hupd, fun _ => .inl rfl⟩
  | autoCancel _ hupd => exact ⟨Sys.update_quiet hupd, fun _ => .inl rfl⟩
  | @api k _ _ _ hstmt => exact ⟨ApiCall.exec_quiet (hsound.honest k) hstmt, fun _ => .inl rfl⟩

theorem Aside.quiet {s s' : Sys n m} (h : Aside s s') : Quiet s.world.db s'.world.db where
  ledger := by rw [h.db]
  conversions := h.conversions
  deliveries := by rw [paidDeliveries, h.deliveries, paidDeliveries]
  events := by
    rw [h.db]
    exact fun _ h => h

/-- A statement of a reconciler process keeps the invariant. -/
theorem postInv_exec {s s' : Sys n m} {k : Fin n} {now : Timestamp} {payment : HorizonPayment}
    {pc : Pc} {next : Next}
    (h : PostInv inserted log s.world.db s.stages) (hrun : s.calls k = .running payment pc)
    (hexec : exec env now (s.lockedFor (some (.inl k))) s.world payment pc
      = some (s'.world, next))
    (hcalls : s'.calls = Function.update s.calls k (next.call payment)) :
    PostInv (inserted ++ insertion s (.system (.exec k now)))
      (log ++ posting s (.system (.exec k now))) s'.world.db s'.stages := by
  have hstages : s'.stages = Function.update s.stages k next.stage := by
    rw [Sys.stages, hcalls, Function.comp_update, Next.stage_call, Sys.stages]
  have hk : s.stages k = pc.stage := by rw [Sys.stages, Function.comp_apply, hrun, Call.stage]
  have hkeep : ∀ st, (st = s.stages k ∨ st = .none) → ∀ j,
      Function.update s.stages k st j = s.stages j ∨
        Function.update s.stages k st j = .none := by
    intro st hst
    refine forall_update (P := fun j x => x = s.stages j ∨ x = .none) hst fun _ _ => .inl rfl
  have hstage := exec_stageStep hexec
  rw [hstages]
  generalize next.stage = stage at hstage ⊢
  cases hstage with
  | clear hsame hevents hins hcommit =>
    rw [insertion_eq_nil hrun hins, posting_eq_nil hrun hcommit, List.append_nil, List.append_nil]
    exact h.quiet (.of_same hsame hevents) (hkeep _ (.inr rfl))
  | @record e hpc hsame hnew hmem =>
    have hins : ∀ c updated, pc ≠ .insertDeliveries c updated := by
      rintro c updated rfl
      cases hpc
    have hcommit : ∀ c updated hooks, pc ≠ .commit c updated hooks := by
      rintro c updated hooks rfl
      cases hpc
    rw [insertion_eq_nil hrun hins, posting_eq_nil hrun hcommit, List.append_nil, List.append_nil]
    exact h.record (.of_same hsame fun x hx => (hmem x).mpr (.inl hx)) hnew
      ((hmem e).mpr (.inr rfl))
  | keep hpc hw hins hcommit =>
    rw [insertion_eq_nil hrun hins, posting_eq_nil hrun hcommit, List.append_nil, List.append_nil]
    exact h.quiet (hw ▸ .refl _) (hkeep _ (.inl (hpc.symm.trans hk.symm)))
  | @insert c updated hpc hw =>
    subst hpc
    have hins : insertion s (.system (.exec k now))
        = [⟨c, subscribers s.world.db c.inv.merchantId "invoice.paid"⟩] := by
      simp only [insertion, hrun]
    rw [hins, posting_eq_nil hrun (by simp), List.append_nil, hw]
    exact h.insert hk (nodup_subscribers _ _ _)
  | @commit c updated hooks hpc hdb =>
    subst hpc
    have hpost : posting s (.system (.exec k now)) = [⟨c, hooks⟩] := by
      simp only [posting, hrun]
    rw [insertion_eq_nil hrun (by simp), hpost, List.append_nil, hdb]
    exact h.commit (p := ⟨c, hooks⟩) hk

/-- A step that commits nothing and inserts nothing. -/
theorem PostInv.idle {s s' : Sys n m} {a : Request n m}
    (h : PostInv inserted log s.world.db s.stages) (hexec : ∀ k now, a ≠ .system (.exec k now))
    (hq : Quiet s.world.db s'.world.db)
    (hstages : ∀ k, s'.stages k = s.stages k ∨ s'.stages k = .none) :
    PostInv (inserted ++ insertion s a) (log ++ posting s a) s'.world.db s'.stages := by
  have hnil : insertion s a = [] ∧ posting s a = [] := by
    unfold insertion posting
    split
    · exact absurd rfl (hexec _ _)
    · exact ⟨rfl, rfl⟩
  rw [hnil.1, hnil.2, List.append_nil, List.append_nil]
  exact h.quiet hq hstages

/-- The invariant with the locks that `Effect` needs. -/
structure LoggedInv (env : Env) (s₀ : Sys n m) (run : List (Request n m)) (s : Sys n m) :
    Prop where
  sound : s.Sound
  rows : PostInv (insertions env s₀ run) (postings env s₀ run) s.world.db s.stages

theorem Aside.sound {s s' : Sys n m} (h : Aside s s') (hs : s.Sound) : s'.Sound :=
  hs.world h.calls h.apis

/-- Every step of the platform keeps the invariant. -/
theorem loggedInv_step {s₀ s s' : Sys n m} {run : List (Request n m)} {a : Request n m}
    (hrun : (platform env n m).run s₀ run = some s) (h : LoggedInv env s₀ run s)
    (hstep : (platform env n m).step s a = some s') : LoggedInv env s₀ (run ++ [a]) s' := by
  have hins : insertions env s₀ (run ++ [a]) = insertions env s₀ run ++ insertion s a :=
    (platform env n m).outputs_concat a hrun
  have hpost : postings env s₀ (run ++ [a]) = postings env s₀ run ++ posting s a :=
    (platform env n m).outputs_concat a hrun
  rcases platform_cases hstep with ⟨b, rfl, hsys⟩ | ⟨hne, haside⟩
  · obtain ⟨heffect, hsound⟩ := step_effect h.sound hsys
    refine ⟨hsound, ?_⟩
    rw [hins, hpost]
    by_cases hexec : ∃ k now, b = .exec k now
    · obtain ⟨k, now, rfl⟩ := hexec
      cases heffect with
      | exec _ _ hrun' hexec' hcalls => exact postInv_exec h.rows hrun' hexec' hcalls
      | api hsys => exact absurd rfl (hsys k now)
    · have hno : ∀ k now, b ≠ .exec k now := fun k now heq => hexec ⟨k, now, heq⟩
      obtain ⟨hq, hstages⟩ := quiet_step h.sound hno hsys
      exact h.rows.idle (fun k now heq => hno k now (by cases heq; rfl)) hq hstages
  · refine ⟨haside.sound h.sound, ?_⟩
    rw [hins, hpost]
    exact h.rows.idle (fun k now => hne _) haside.quiet fun k =>
      .inl (by rw [Sys.stages, haside.calls, Sys.stages])

/-! ## What the tables say -/

/-- What ledger rows have in common with their credits. -/
theorem PostedAs.map_eq {β : Type} {f : LedgerEntry → β} {g : Posting → β} (h : PostedAs log db)
    (hfg : ∀ p id, f (p.credit.entry id) = g p) : db.ledgerEntries.rows.map f = log.map g := by
  rw [← List.forall₂_eq_eq_eq, List.forall₂_map_left_iff, List.forall₂_map_right_iff]
  refine h.ledger.imp fun l p hl => ?_
  rw [hl]
  exact hfg p l.id

theorem PostedAs.posted_iff (h : PostedAs log db) {eventId : Nat} :
    Posted db eventId ↔ ∃ p ∈ log, p.eventId = eventId :=
  calc Posted db eventId
      ↔ eventId ∈ db.ledgerEntries.rows.map LedgerEntry.eventId := List.mem_map.symm
    _ ↔ eventId ∈ log.map Posting.eventId := by
        rw [h.map_eq (g := Posting.eventId) fun _ _ => rfl]
    _ ↔ ∃ p ∈ log, p.eventId = eventId := List.mem_map

theorem PostedAs.converted_iff (h : PostedAs log db) {eventId : Nat} :
    Posted db eventId ↔ Converted log db eventId := by
  rw [h.posted_iff]
  constructor
  · rintro ⟨p, hp, hid⟩
    obtain ⟨j, hj⟩ := List.mem_iff_getElem?.mp hp
    exact ⟨j, p, hj, hid, by rw [h.conversions, List.getElem?_map, hj, Option.map_some]⟩
  · rintro ⟨j, p, hj, hid, -⟩
    exact ⟨p, List.mem_of_getElem? hj, hid⟩

theorem PostedAs.counted (h : PostedAs log db) (id : Uuid) :
    (Reconciler.conversions db).countP (fun e => e.invoiceId == id)
      = db.ledgerEntries.rows.countP fun l => l.invoiceId == id && l.type == .payment := by
  have hmap : db.ledgerEntries.rows.map (fun l => l.invoiceId == id && l.type == .payment)
      = (log.map Posting.conversion).map fun e => e.invoiceId == id := by
    rw [List.map_map]
    exact h.map_eq fun p _ => by simp [Credit.entry, Posting.conversion]
  calc (Reconciler.conversions db).countP (fun e => e.invoiceId == id)
      = ((log.map Posting.conversion).map fun e => e.invoiceId == id).countP (fun b => b) := by
        rw [h.conversions, List.countP_map (p := fun b => b)]
        rfl
    _ = db.ledgerEntries.rows.countP fun l => l.invoiceId == id && l.type == .payment := by
        rw [← hmap, List.countP_map]
        rfl

/-- The deliveries of a credit about its event: one for each webhook. -/
theorem countP_deliveries (p : Posting) (h : Uuid) (eventId : Nat) :
    p.deliveries.countP (fun d => d.webhookId == h && payloadEventId d == some eventId)
      = if p.eventId = eventId then p.hooks.count h else 0 := by
  rw [Posting.deliveries, List.countP_map]
  split
  · next heq =>
    rw [List.count]
    congr 1
    funext x
    simp [Credit.delivery, payloadEventId, ← heq, Posting.eventId]
  · next hne =>
    rw [List.countP_eq_zero]
    intro x _
    simpa [Credit.delivery, payloadEventId, Posting.eventId] using fun _ => hne

/-- **One delivery to each webhook that the `INSERT` selected.** -/
theorem PostInv.deliveriesOf (h : PostInv inserted log db stages) {p : Posting} (hp : p ∈ log)
    {webhookId : Uuid} (hmem : webhookId ∈ p.hooks) : deliveriesOf db webhookId p.eventId = 1 := by
  have hnodup := (h.known p (h.wasInserted p hp)).2
  have hpaid : Reconciler.deliveriesOf db webhookId p.eventId
      = (log.flatMap Posting.deliveries).countP
        fun d => d.webhookId == webhookId && payloadEventId d == some p.eventId := by
    rw [← h.posted.deliveries, paidDeliveries, List.countP_filter, Reconciler.deliveriesOf]
    refine List.countP_congr fun d _ => ?_
    simp only [Bool.and_eq_true, beq_iff_eq]
    exact ⟨fun hd => ⟨hd, by rw [hd.2]; rfl⟩, fun hd => hd.1⟩
  obtain ⟨before, after, rfl⟩ := List.append_of_mem hp
  have honce := h.postedOnce
  rw [List.map_append, List.map_cons, List.nodup_append, List.nodup_cons] at honce
  obtain ⟨-, ⟨hafter, -⟩, hbefore⟩ := honce
  -- the other credits are of other events
  have hzero : ∀ ps : List Posting, (∀ q ∈ ps, q.eventId ≠ p.eventId) →
      (ps.flatMap Posting.deliveries).countP
        (fun d => d.webhookId == webhookId && payloadEventId d == some p.eventId) = 0 := by
    intro ps hps
    rw [List.countP_flatMap]
    refine List.sum_eq_zero fun x hx => ?_
    obtain ⟨q, hq, rfl⟩ := List.mem_map.mp hx
    rw [Function.comp_apply, countP_deliveries, if_neg (hps q hq)]
  rw [hpaid, List.flatMap_append, List.flatMap_cons, List.countP_append, List.countP_append,
    countP_deliveries, if_pos rfl, List.count_eq_one_of_mem hnodup hmem,
    hzero before fun q hq heq => hbefore _ (List.mem_map_of_mem hq) _ List.mem_cons_self heq,
    hzero after fun q hq heq => hafter (List.mem_map.mpr ⟨q, hq, heq⟩)]

theorem PostInv.allOrNothing (h : PostInv inserted log db stages) :
    AllOrNothing inserted log db where
  once := h.postedOnce
  conversions := h.posted.conversions
  converted _ := h.posted.converted_iff
  selected eventId hposted := by
    obtain ⟨p, hp, hid⟩ := h.posted.posted_iff.mp hposted
    exact ⟨p, h.wasInserted p hp, hid⟩
  announced p hp hposted webhookId hmem := by
    obtain ⟨q, hq, hid⟩ := h.posted.posted_iff.mp hposted
    -- the `INSERT` of an event runs once
    obtain rfl := List.inj_on_of_nodup_map h.insertedOnce (h.wasInserted q hq) hp hid
    exact h.deliveriesOf hq hmem
  counted := h.posted.counted

/-- Nothing runs, and nothing has been credited. -/
theorem loggedInv_of_idle {s : Sys n m} (hidle : s.Idle)
    (hledger : s.world.db.ledgerEntries = .empty) (hdeliveries : s.world.db.webhookDeliveries = [])
    (hlinks : s.world.db.paymentLinkEvents = []) : LoggedInv env s [] s := by
  have hnone : ∀ k, s.stages k = .none := fun k => by
    rw [Sys.stages, Function.comp_apply, hidle.calls k]
    rfl
  have hposted : PostedAs [] s.world.db :=
    ⟨hledger ▸ .nil, by rw [Reconciler.conversions, hlinks]; rfl,
      by rw [paidDeliveries, hdeliveries]; rfl⟩
  have hno : ∀ p : Posting, p ∉ [] := fun _ => List.not_mem_nil
  refine ⟨hidle.sound, hposted, fun k => ?_, fun j _ _ => ?_, fun p hp => absurd hp (hno p),
    .nil, .nil, fun p hp => absurd hp (hno p)⟩
  · rw [hnone k]
    trivial
  · intro eventId heq
    rw [hnone j] at heq
    cases heq

/-- **Crediting is all or nothing.** In every run of reconciler processes, API calls and
requests about webhooks and payment pages, whatever fails in it, from a database
without credits. -/
theorem allOrNothing_of_run {s t : Sys n m} {run : List (Request n m)} (hidle : s.Idle)
    (hledger : s.world.db.ledgerEntries = .empty) (hdeliveries : s.world.db.webhookDeliveries = [])
    (hlinks : s.world.db.paymentLinkEvents = [])
    (hrun : (platform env n m).run s run = some t) :
    AllOrNothing (insertions env s run) (postings env s run) t.world.db := by
  have hnone : ∀ k, s.stages k = .none := fun k => by
    rw [Sys.stages, Function.comp_apply, hidle.calls k]
    rfl
  have hinit : LoggedInv env s [] s :=
    { sound := hidle.sound
      rows :=
        { posted :=
            { ledger := by
                rw [hledger]
                exact .nil
              conversions := by
                rw [Reconciler.conversions, hlinks]
                rfl
              deliveries := by
                rw [paidDeliveries, hdeliveries]
                rfl }
          calls := fun k => by
            rw [hnone k]
            trivial
          apart := fun j k _ eventId heq => by
            rw [hnone j] at heq
            cases heq
          known := fun p hp => nomatch hp
          insertedOnce := .nil
          postedOnce := .nil
          wasInserted := fun p hp => nomatch hp } }
  exact ((platform env n m).inv_of_history hinit (fun _ _ _ _ => loggedInv_step)
    hrun).rows.allOrNothing

end Steps

/-- A call crashes after its event, another payment is credited, and the webhook is
deactivated between the `INSERT` and the `COMMIT`. -/
def creditedRequests : List (Request 1 1) :=
  .trackView 1 ::
    ((.deliver 0 (fullPayment "token_happy_001") :: execs 5 ++ .abort 0 ::
      .deliver 0 (fullPayment "token_happy_002") :: execs 8).map .system ++
    .deactivateWebhook 1 7 :: .trackAttempt 1 :: (execs 4).map .system)

theorem allOrNothing_of_run_deactivated :
    ∃ t, (platform testEnv 1 1).run (subscribedTo ["invoice.paid"]) creditedRequests = some t ∧
      (t.world.db.ledgerEntries.rows.map LedgerEntry.eventId = [2] ∧
        t.world.db.webhookDeliveries.length = 1 ∧ t.world.db.paymentLinkEvents.length = 3) ∧
      AllOrNothing (insertions testEnv (subscribedTo ["invoice.paid"]) creditedRequests)
        (postings testEnv (subscribedTo ["invoice.paid"]) creditedRequests) t.world.db := by
  obtain ⟨t, ht, hrows⟩ := (platform testEnv 1 1).exists_of_leadsTo
    (fun t => t.world.db.ledgerEntries.rows.map LedgerEntry.eventId = [2] ∧
      t.world.db.webhookDeliveries.length = 1 ∧ t.world.db.paymentLinkEvents.length = 3)
    (subscribedTo ["invoice.paid"]) creditedRequests (by decide +kernel)
  exact ⟨t, ht, hrows, allOrNothing_of_run ⟨fun _ => rfl, fun _ => rfl⟩ rfl rfl rfl ht⟩

end Stargate.Reconciler
