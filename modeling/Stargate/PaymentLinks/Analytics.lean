import Stargate.Base.Grouping
import Stargate.Database.OffsetLists
import Stargate.Reconciler.Postings

/-!
# Analytics of payment links (`PaymentLinksService`)

A merchant has two reports about its payment links: one invoice, counted by `GROUP BY` over its
events, and a page of all invoices, summed over a `LEFT JOIN`. The events are written by the
public payment page and, for a conversion, by the reconciler.

- `getAnalytics`, `listAnalytics`: the two reports;
- `overview_eq_reports`: the rows of the page have the counts of the single reports, invoice by
  invoice;
- `analytics_of_run`: over every run of the platform, the report counts the requests of the
  payment page, and the credits in the ledger.
-/

namespace Stargate.PaymentLinks

open Base Invoices OffsetLists

/-! ## One invoice -/

structure Analytics where
  invoiceId : Uuid
  views : Nat
  attempts : Nat
  conversions : Nat
  conversionRate : String
  deriving DecidableEq

/-- `counts['view'] > 0 ? (counts['conversion'] / counts['view']).toFixed(4) : '0.0000'`. -/
def conversionRate (views conversions : Nat) : String :=
  if 0 < views then
    .ofList (fixedText 4 (roundHalfUp (toBinary64 (conversions / views) * 10 ^ 4)).toNat)
  else "0.0000"

/-- Counts that fit into the type `int`. -/
def Fits (n : Nat) : Prop := n < 2 ^ 31

instance : DecidablePred Fits := fun n => inferInstanceAs (Decidable (n < 2 ^ 31))

/-- `SELECT event_type, COUNT(*)::int AS count ... GROUP BY event_type`; `none` is the error
"integer out of range". -/
def countByType (db : Db) (invoiceId : Uuid) : Option (List (LinkEventType × Nat)) :=
  let groups := groupBy PaymentLinkEvent.eventType
    (db.paymentLinkEvents.filter fun e => e.invoiceId == invoiceId)
  if ∀ g ∈ groups, Fits g.length then
    some (groups.filterMap fun g => g.head?.map fun e => (e.eventType, g.length))
  else none

/-- `for (const row of result.rows) counts[row.event_type] = row.count`, from zeros. -/
def countsOf (rows : List (LinkEventType × Nat)) : LinkEventType → Nat :=
  rows.foldl (fun counts row => Function.update counts row.1 row.2) fun _ => 0

/-- `getAnalytics(merchantId, invoiceId)`. -/
def getAnalytics (db : Db) (merchantId invoiceId : Uuid) : Except ApiError Analytics :=
  match db.invoices.find? fun i => i.id == invoiceId && i.merchantId == merchantId with
  | none => .error (.notFound "Invoice not found")
  | some _ =>
    match countByType db invoiceId with
    | none => .error .database
    | some rows =>
      let counts := countsOf rows
      .ok
        { invoiceId
          views := counts .view
          attempts := counts .attempt
          conversions := counts .conversion
          conversionRate := conversionRate (counts .view) (counts .conversion) }

/-! ## All invoices -/

structure AnalyticsRow where
  invoiceId : Uuid
  description : Option String
  status : InvoiceStatus
  createdAt : Timestamp
  views : Nat
  attempts : Nat
  conversions : Nat
  deriving DecidableEq

/-- `SUM(CASE WHEN e.event_type=... THEN 1 ELSE 0 END)` over a group. -/
def sumOfType (eventType : LinkEventType) (g : List (Invoice × Option PaymentLinkEvent)) : Nat :=
  g.countP fun x => x.2.any fun e => e.eventType == eventType

/-- The groups of `invoices i LEFT JOIN payment_link_events e ON e.invoice_id=i.id
WHERE i.merchant_id=$1 GROUP BY i.id`. -/
def groups (db : Db) (merchantId : Uuid) : List (List (Invoice × Option PaymentLinkEvent)) :=
  groupBy (fun x => x.1.id)
    ((leftJoin (fun i e => e.invoiceId == i.id) db.invoices.rows db.paymentLinkEvents).filter
      fun x => x.1.merchantId == merchantId)

/-- The row of a group. -/
def groupRow (g : List (Invoice × Option PaymentLinkEvent)) : Option AnalyticsRow :=
  g.head?.map fun x =>
    { invoiceId := x.1.id
      description := x.1.description
      status := x.1.status
      createdAt := x.1.createdAt
      views := sumOfType .view g
      attempts := sumOfType .attempt g
      conversions := sumOfType .conversion g }

/-- The rows of the query, before their order and the page. -/
def overview (db : Db) (merchantId : Uuid) : Except ApiError (List AnalyticsRow) :=
  if ∀ g ∈ groups db merchantId, ∀ eventType ∈ [LinkEventType.view, .attempt, .conversion],
      Fits (sumOfType eventType g) then
    .ok ((groups db merchantId).filterMap groupRow)
  else .error .database

structure AnalyticsPage where
  page : JsNumber
  limit : JsNumber
  total : Nat
  items : List AnalyticsRow
  deriving DecidableEq

/-- `listAnalytics(merchantId, query)`. -/
def listAnalytics (orderBy : List AnalyticsRow → List AnalyticsRow) (db : Db) (merchantId : Uuid)
    (q : PageQuery) : Except ApiError AnalyticsPage := do
  let rows ← overview db merchantId
  let result ← queryPage (orderBy rows) q
  .ok
    { page := result.page
      limit := result.limit
      total := result.total
      items := result.rows.map Prod.fst }

/-! ## The reports agree -/

/-- The invoices of a merchant. -/
def owned (db : Db) (merchantId : Uuid) : List Invoice :=
  db.invoices.rows.filter fun i => i.merchantId == merchantId

/-- The events of an invoice of one type. -/
def count (db : Db) (invoiceId : Uuid) (eventType : LinkEventType) : Nat :=
  db.paymentLinkEvents.countP fun e => e.invoiceId == invoiceId && e.eventType == eventType

/-- The counts of an invoice fit. -/
def CountsFit (db : Db) (invoiceId : Uuid) : Prop := ∀ eventType, Fits (count db invoiceId eventType)

instance (db : Db) (invoiceId : Uuid) : Decidable (CountsFit db invoiceId) :=
  decidable_of_iff (∀ eventType ∈ [LinkEventType.view, .attempt, .conversion],
      Fits (count db invoiceId eventType))
    ⟨fun h eventType => h eventType (by cases eventType <;> decide), fun h e _ => h e⟩

section Reports

variable {db : Db} {merchantId invoiceId : Uuid}

theorem length_filter_type (eventType : LinkEventType) :
    ((db.paymentLinkEvents.filter fun e => e.invoiceId == invoiceId).filter
      fun e => decide (e.eventType = eventType)).length = count db invoiceId eventType := by
  rw [List.filter_filter, ← List.countP_eq_length_filter, count]
  exact List.countP_congr fun e _ => by simp [and_comm]

/-- The statement fails exactly where some count does not fit. -/
theorem countByType_eq : countByType db invoiceId =
    if CountsFit db invoiceId then
      some ((groupBy PaymentLinkEvent.eventType
        (db.paymentLinkEvents.filter fun e => e.invoiceId == invoiceId)).filterMap
          fun g => g.head?.map fun e => (e.eventType, g.length))
    else none := by
  have hiff : (∀ g ∈ groupBy PaymentLinkEvent.eventType
      (db.paymentLinkEvents.filter fun e => e.invoiceId == invoiceId), Fits g.length) ↔
      CountsFit db invoiceId := by
    constructor
    · intro hall eventType
      rw [← length_filter_type]
      by_cases hmem : eventType ∈ (db.paymentLinkEvents.filter
          fun e => e.invoiceId == invoiceId).map PaymentLinkEvent.eventType
      · exact hall _ (List.mem_map.mpr ⟨eventType, List.mem_dedup.mpr hmem, rfl⟩)
      · have hnone : (db.paymentLinkEvents.filter fun e => e.invoiceId == invoiceId).filter
            (fun e => decide (e.eventType = eventType)) = [] :=
          List.filter_eq_nil_iff.mpr fun e he heq =>
            hmem (List.mem_map.mpr ⟨e, he, of_decide_eq_true heq⟩)
        rw [hnone]
        decide
    · intro hfit g hg
      obtain ⟨eventType, -, rfl⟩ := List.mem_map.mp hg
      rw [length_filter_type]
      exact hfit eventType
  rw [countByType]
  simp only [hiff]

/-- **The single report.** -/
theorem getAnalytics_eq {i : Invoice} (hi : i ∈ db.invoices) :
    getAnalytics db i.merchantId i.id =
      if CountsFit db i.id then .ok
        { invoiceId := i.id
          views := count db i.id .view
          attempts := count db i.id .attempt
          conversions := count db i.id .conversion
          conversionRate := conversionRate (count db i.id .view) (count db i.id .conversion) }
      else .error .database := by
  have hfound : ∃ j, (db.invoices.find?
      fun j => j.id == i.id && j.merchantId == i.merchantId) = some j := by
    rw [← Option.isSome_iff_exists, Table.find?, List.find?_isSome]
    exact ⟨i, hi, by simp⟩
  obtain ⟨j, hj⟩ := hfound
  have hcounts : ∀ eventType, countsOf ((groupBy PaymentLinkEvent.eventType
      (db.paymentLinkEvents.filter fun e => e.invoiceId == i.id)).filterMap
        fun g => g.head?.map fun e => (e.eventType, g.length)) eventType
      = count db i.id eventType := by
    intro eventType
    rw [countsOf, foldl_groupBy, List.countP_eq_length_filter, length_filter_type]
  rw [getAnalytics, hj, countByType_eq]
  by_cases hfit : CountsFit db i.id
  · simp only [if_pos hfit, hcounts]
  · simp only [if_neg hfit]

/-- **The groups of the join** are the invoices of the merchant, each with its events. -/
theorem groups_eq (db : Db) (merchantId : Uuid) : groups db merchantId =
    (owned db merchantId).map
      (matching (fun i e => e.invoiceId == i.id) db.paymentLinkEvents) := by
  have hids : ((owned db merchantId).map Invoice.id).Nodup := by
    rw [List.Nodup, List.pairwise_map]
    exact (db.invoices.unique.sublist List.filter_sublist).imp fun hne heq =>
      hne (.inl heq)
  rw [groups, filter_leftJoin fun i : Invoice => i.merchantId == merchantId, ← owned,
    groupBy_leftJoin hids]

theorem sumOfType_matching (db : Db) (i : Invoice) (eventType : LinkEventType) :
    sumOfType eventType (matching (fun i e => e.invoiceId == i.id) db.paymentLinkEvents i)
      = count db i.id eventType :=
  countP_matching (fun e : Option PaymentLinkEvent =>
    e.any fun e : PaymentLinkEvent => e.eventType == eventType) rfl

/-- The row that an invoice has on the page, by its own report. -/
def Analytics.row (i : Invoice) (report : Analytics) : AnalyticsRow where
  invoiceId := i.id
  description := i.description
  status := i.status
  createdAt := i.createdAt
  views := report.views
  attempts := report.attempts
  conversions := report.conversions

/-- What the overview is for: the merchant's invoices, each with its own report. -/
def reports (db : Db) (merchantId : Uuid) : Except ApiError (List AnalyticsRow) :=
  (owned db merchantId).mapM fun i => do
    let report ← getAnalytics db i.merchantId i.id
    .ok (report.row i)

/-- A loop whose steps fail in one way only. -/
theorem mapM_eq_ite {α β ε : Type} {P : α → Prop} [DecidablePred P] {f : α → β} {e : ε}
    {g : α → Except ε β} {l : List α}
    (h : ∀ a ∈ l, g a = if P a then .ok (f a) else .error e) :
    l.mapM g = if ∀ a ∈ l, P a then .ok (l.map f) else .error e := by
  induction l with
  | nil => rfl
  | cons a l ih =>
    rw [List.mapM_cons, h a List.mem_cons_self, ih fun b hb => h b (List.mem_cons_of_mem a hb)]
    by_cases ha : P a
    · rw [if_pos ha]
      by_cases hl : ∀ b ∈ l, P b
      · rw [if_pos hl, if_pos (List.forall_mem_cons.mpr ⟨ha, hl⟩)]
        rfl
      · rw [if_neg hl, if_neg fun h => hl (List.forall_mem_cons.mp h).2]
        rfl
    · rw [if_neg ha, if_neg fun h => ha (List.forall_mem_cons.mp h).1]
      rfl

/-- The row of an invoice, by its events. -/
def countedRow (db : Db) (i : Invoice) : AnalyticsRow where
  invoiceId := i.id
  description := i.description
  status := i.status
  createdAt := i.createdAt
  views := count db i.id .view
  attempts := count db i.id .attempt
  conversions := count db i.id .conversion

theorem groupRow_matching (db : Db) (i : Invoice) :
    groupRow (matching (fun i e => e.invoiceId == i.id) db.paymentLinkEvents i)
      = some (countedRow db i) := by
  obtain ⟨x, xs, hx⟩ := List.exists_cons_of_ne_nil
    (matching_ne_nil (fun i e => e.invoiceId == i.id) db.paymentLinkEvents i)
  obtain rfl : x.1 = i := fst_of_mem_matching (hx ▸ List.mem_cons_self)
  rw [groupRow, sumOfType_matching, sumOfType_matching, sumOfType_matching, hx]
  rfl

/-- **The reports agree**: the query of the overview is the single reports, invoice by invoice,
also where one of them fails. -/
theorem overview_eq_reports (db : Db) (merchantId : Uuid) :
    overview db merchantId = reports db merchantId := by
  have hreports : reports db merchantId =
      if ∀ i ∈ owned db merchantId, CountsFit db i.id then
        .ok ((owned db merchantId).map (countedRow db))
      else .error .database := by
    refine mapM_eq_ite fun i hi => ?_
    rw [getAnalytics_eq (List.mem_of_mem_filter hi)]
    split <;> rfl
  have hfits : (∀ g ∈ groups db merchantId,
        ∀ eventType ∈ [LinkEventType.view, .attempt, .conversion], Fits (sumOfType eventType g)) ↔
      ∀ i ∈ owned db merchantId, CountsFit db i.id := by
    rw [groups_eq, List.forall_mem_map]
    refine forall_congr' fun i => forall_congr' fun _ => ?_
    simp only [sumOfType_matching]
    exact ⟨fun h eventType => h eventType (by cases eventType <;> decide), fun h e _ => h e⟩
  have hrows : (groups db merchantId).filterMap groupRow
      = (owned db merchantId).map (countedRow db) := by
    rw [groups_eq, List.filterMap_map, ← List.filterMap_eq_map]
    exact List.filterMap_congr fun i _ => groupRow_matching db i
  rw [hreports, overview, hrows]
  simp only [hfits]

end Reports

/-! ## Over a run -/

open Reconciler

section Run

variable {n m : Nat} {env : Env} {s s' t : Sys n m}

/-- The events that the payment page tracks. -/
def tracked (db : Db) : List PaymentLinkEvent :=
  db.paymentLinkEvents.filter fun e => e.eventType != .conversion

/-- A request of the payment page of an invoice, as an event of this type. -/
def tracks (eventType : LinkEventType) (invoiceId : Uuid) : Request n m → Bool
  | .trackView id => id == invoiceId && .view == eventType
  | .trackAttempt id => id == invoiceId && .attempt == eventType
  | _ => false

theorem tracked_of_links {db db' : Db} (h : db'.paymentLinkEvents = db.paymentLinkEvents) :
    tracked db' = tracked db := by
  rw [tracked, h, tracked]

/-- A statement of an API call writes no event. -/
theorem apiLinks {now : Timestamp} {locked : Uuid → Bool} {call call' : ApiCall} {db db' : Db}
    (h : call.exec now locked db = some (db', call')) :
    db'.paymentLinkEvents = db.paymentLinkEvents := by
  cases call with
  | idle => cases h
  | selectHooks todo => cases todo <;> cases h <;> rfl
  | insertDelivery d hooks todo => cases hooks <;> cases h <;> rfl
  | partialSelect invoiceId paidAmount =>
    simp only [ApiCall.exec] at h
    repeat' split at h
    all_goals
      cases h
      try rfl
  | partialUpdate invoice paidAmount remaining start =>
    simp only [ApiCall.exec] at h
    split at h <;> cases h <;> rfl
  | partialCommit row =>
    cases h
    rfl

/-- The reconciler and the API write no tracked event. -/
theorem tracked_system {a : Label n m} (h : (system env n m).step s a = some s') :
    tracked s'.world.db = tracked s.world.db := by
  have hupdate : ∀ {self : Option (Fin n ⊕ Fin m)} {p : Invoice → Bool} {status : InvoiceStatus}
      {w : World}, s.update self p status = some w →
      tracked w.db = tracked s.world.db := by
    intro self p status w hw
    unfold Sys.update at hw
    split at hw
    · cases hw
      rfl
    · cases hw
  cases step_spec h with
  | @exec _ _ _ _ _ next hrun hexec =>
    have hstage := exec_stageStep hexec
    generalize next.stage = stage at hstage
    cases hstage with
    | clear hsame | record _ hsame => exact tracked_of_links hsame.links
    | keep _ hw | insert _ hw => rw [hw]
    | commit _ hdb =>
      rw [hdb]
      simp [tracked, commitCredit, List.filter_append]
  | deliver | abort | redis | applyPartial | apiAbort | create => rfl
  | cancel hupd => exact hupdate hupd
  | expire _ hupd => exact hupdate hupd
  | autoCancel _ hupd => exact hupdate hupd
  | api hexec => exact tracked_of_links (apiLinks hexec)

/-- The events of one type, of an invoice, are tracked ones. -/
theorem count_of_tracked {db : Db} {invoiceId : Uuid} {eventType : LinkEventType}
    (htype : eventType ≠ .conversion) : count db invoiceId eventType
      = (tracked db).countP fun e => e.invoiceId == invoiceId && e.eventType == eventType := by
  rw [count, tracked, List.countP_filter]
  refine List.countP_congr fun e _ => ?_
  simp only [Bool.and_eq_true, beq_iff_eq, bne_iff_ne]
  exact ⟨fun h => ⟨h, h.2 ▸ htype⟩, fun h => h.1⟩

theorem count_trackEvent {db db' : Db} {id invoiceId : Uuid} {type eventType : LinkEventType}
    (h : trackEvent db id type = some db') :
    count db' invoiceId eventType = count db invoiceId eventType +
      if (id == invoiceId && type == eventType) = true then 1 else 0 := by
  obtain ⟨i, -, rfl⟩ := Option.map_eq_some_iff.mp h
  rw [count, List.countP_append, List.countP_singleton, count]

/-- **What a request adds to the counts.** -/
theorem count_step {a : Request n m} {invoiceId : Uuid} {eventType : LinkEventType}
    (htype : eventType ≠ .conversion) (h : (platform env n m).step s a = some s') :
    count s'.world.db invoiceId eventType
      = count s.world.db invoiceId eventType + if tracks eventType invoiceId a then 1 else 0 := by
  have hsame : tracked s'.world.db = tracked s.world.db →
      tracks eventType invoiceId a = false → count s'.world.db invoiceId eventType
        = count s.world.db invoiceId eventType + if tracks eventType invoiceId a then 1 else 0 := by
    intro htracked hno
    rw [count_of_tracked htype, htracked, ← count_of_tracked htype, hno]
    rfl
  cases a with
  | system b => exact hsame (tracked_system h) rfl
  | createWebhook merchantId events =>
    cases h
    exact hsame rfl rfl
  | storeWebhook id merchantId events =>
    obtain ⟨db, hins, rfl⟩ := Option.map_eq_some_iff.mp h
    unfold Webhooks.store at hins
    split at hins
    · obtain ⟨webhooks, -, rfl⟩ := Option.map_eq_some_iff.mp hins
      exact hsame rfl rfl
    · cases hins
  | deactivateWebhook merchantId id =>
    cases h
    exact hsame rfl rfl
  | trackView id | trackAttempt id =>
    obtain ⟨db, hdb, rfl⟩ := Option.map_eq_some_iff.mp h
    exact count_trackEvent hdb

/-- The counts after a run. -/
theorem count_run {run : List (Request n m)} {invoiceId : Uuid} {eventType : LinkEventType}
    (htype : eventType ≠ .conversion) (hlinks : s.world.db.paymentLinkEvents = [])
    (hrun : (platform env n m).run s run = some t) :
    count t.world.db invoiceId eventType = run.countP (tracks eventType invoiceId) := by
  refine (platform env n m).inv_of_history
    (I := fun done u => count u.world.db invoiceId eventType
      = done.countP (tracks eventType invoiceId)) ?_ ?_ hrun
  · rw [count, hlinks]
    rfl
  · intro done u a u' _ hcount hstep
    rw [count_step htype hstep, hcount, List.countP_append, List.countP_singleton]

/-- The conversions of an invoice are its credits in the ledger. -/
theorem count_conversion {db : Db} {inserted log : List Posting} (h : AllOrNothing inserted log db)
    (invoiceId : Uuid) : count db invoiceId .conversion
      = db.ledgerEntries.rows.countP fun l => l.invoiceId == invoiceId && l.type == .payment := by
  rw [← h.counted, conversions, List.countP_filter]
  rfl

/-- A step commits one credit at most. -/
theorem length_postings_le (env : Env) (s : Sys n m) (run : List (Request n m)) :
    (postings env s run).length ≤ run.length := by
  refine (platform env n m).length_outputs_le (fun s a => ?_) s run
  unfold posting
  split
  · split <;> simp
  · simp

/-- **What the report counts**: over every run of reconciler processes, API calls and payment
pages, from a database without events and credits, the report of an invoice counts the requests
of its page, and as conversions the credits that the ledger has for it. -/
theorem analytics_of_run {run : List (Request n m)} (hidle : s.Idle)
    (hledger : s.world.db.ledgerEntries = .empty) (hdeliveries : s.world.db.webhookDeliveries = [])
    (hlinks : s.world.db.paymentLinkEvents = [])
    (hrun : (platform env n m).run s run = some t) (hshort : run.length < 2 ^ 31)
    {i : Invoice} (hi : i ∈ t.world.db.invoices) :
    ∃ report, getAnalytics t.world.db i.merchantId i.id = .ok report ∧
      report.views = run.countP (tracks .view i.id) ∧
      report.attempts = run.countP (tracks .attempt i.id) ∧
      report.conversions = t.world.db.ledgerEntries.rows.countP fun l =>
        l.invoiceId == i.id && l.type == .payment := by
  have hlogged := (platform env n m).inv_of_history
    (loggedInv_of_idle hidle hledger hdeliveries hlinks) (fun _ _ _ _ => loggedInv_step) hrun
  have hall := hlogged.rows.allOrNothing
  have hviews : count t.world.db i.id .view = run.countP (tracks .view i.id) :=
    count_run (by decide) hlinks hrun
  have hattempts : count t.world.db i.id .attempt = run.countP (tracks .attempt i.id) :=
    count_run (by decide) hlinks hrun
  have hconversions : count t.world.db i.id .conversion ≤ run.length := by
    calc count t.world.db i.id .conversion
        = (conversions t.world.db).countP fun e => e.invoiceId == i.id := by
          rw [count_conversion hall, hall.counted]
      _ ≤ (conversions t.world.db).length := List.countP_le_length
      _ = (postings env s run).length := by rw [hall.conversions, List.length_map]
      _ ≤ run.length := length_postings_le env s run
  have hfit : CountsFit t.world.db i.id := by
    intro eventType
    refine Nat.lt_of_le_of_lt ?_ hshort
    cases eventType with
    | view => exact hviews ▸ List.countP_le_length
    | attempt => exact hattempts ▸ List.countP_le_length
    | conversion => exact hconversions
  rw [getAnalytics_eq hi, if_pos hfit]
  exact ⟨_, rfl, hviews, hattempts, count_conversion hall i.id⟩

/-- Two views, an attempt and the credit that follows it. -/
def payingRequests : List (Request 1 1) :=
  .trackView 1 :: .trackView 1 :: .trackAttempt 1 :: creditedRequests

/-- Of three views and two attempts, one payment came. -/
theorem analytics_of_run_paying :
    ∃ t i report, (platform testEnv 1 1).run onePending payingRequests = some t ∧
      i ∈ t.world.db.invoices ∧ getAnalytics t.world.db i.merchantId i.id = .ok report ∧
      report.views = 3 ∧ report.attempts = 2 ∧ report.conversions = 1 := by
  obtain ⟨t, ht, i, hi, hid, hledger⟩ := (platform testEnv 1 1).exists_of_leadsTo
    (fun t => ∃ i ∈ t.world.db.invoices.rows, i.id = 1 ∧ (t.world.db.ledgerEntries.rows.countP
      fun l => l.invoiceId == i.id && l.type == .payment) = 1)
    onePending payingRequests (by decide +kernel)
  obtain ⟨report, hreport, hviews, hattempts, hconversions⟩ :=
    analytics_of_run ⟨fun _ => rfl, fun _ => rfl⟩ rfl rfl rfl ht (by decide) hi
  rw [hid] at hviews hattempts
  exact ⟨t, i, report, ht, hi, hreport, hviews.trans (by decide +kernel),
    hattempts.trans (by decide +kernel), hconversions.trans hledger⟩

end Run

end Stargate.PaymentLinks
