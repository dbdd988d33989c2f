import Stargate.Base.JsonText
import Stargate.Reconciler.Evidence
import Stargate.Webhooks.OverlappingTicks
import Stargate.Webhooks.Secrets

/-!
# From the ledger to the merchant's endpoint

The reconciler and the cron jobs write `webhook_deliveries`, the delivery worker reads it. Here
they run side by side, with everything else that touches the two tables of webhooks: any
interleaving of their statements, with ticks that may overlap.

- `payloadText`: what is sent, and `parse_payloadText`, what it says;
- `site`: the composed system, and `platform_step`, what it does of the reconciler and the API;
- `Traced`: every row, every selected row and every `POST` goes back to an `INSERT`;
- `posts_backed`: every `POST` is to a webhook of the merchant whom it is about, and what it says
  is in the tables.
-/

namespace Stargate.Notifications

open Base Reconciler Webhooks Ticks

/-! ## Payloads -/

/-- The texts of ids and of times. -/
structure Format where
  uuid : Uuid → String
  iso : Timestamp → String

def textField (name value : String) : List Char × Json := (name.toList, .string value.toList)

/-- A payload, with its number written like this; `JSONB` puts shorter names first. -/
def payloadJson (fmt : Format) (number : Nat → List Char) : Payload → Json
  | .invoicePaid invoiceId eventId =>
    .object [("event_id".toList, .number (number eventId)),
      textField "invoice_id" (fmt.uuid invoiceId)]
  | .expired invoiceId expiredAt reason =>
    .object [textField "reason" reason, textField "expired_at" (fmt.iso expiredAt),
      textField "invoice_id" (fmt.uuid invoiceId)]
  | .cancelled invoiceId cancelledAt reason =>
    .object [textField "reason" reason, textField "invoice_id" (fmt.uuid invoiceId),
      textField "cancelled_at" (fmt.iso cancelledAt)]

/-- The column `payload`. -/
def stored (fmt : Format) : Payload → Json := payloadJson fmt (Nat.toDigits 10)

/-- `JSON.stringify(delivery.payload)`. The driver has read the column with `JSON.parse`, which
makes a double of a `BIGSERIAL`. -/
def payloadText (fmt : Format) (payload : Payload) : String :=
  String.ofList (payloadJson fmt (fun n => doubleText (toBinary64 n)) payload).print

/-- The payload has no number that a double would round. -/
def Exact : Payload → Prop
  | .invoicePaid _ eventId => eventId < 2 ^ 53
  | .expired _ _ _ | .cancelled _ _ _ => True

theorem printable_stored (fmt : Format) (payload : Payload) : (stored fmt payload).Printable := by
  cases payload with
  | invoicePaid invoiceId eventId => exact ⟨Json.isNumber_toDigits eventId, trivial, trivial⟩
  | expired | cancelled => exact ⟨trivial, trivial, trivial, trivial⟩

theorem payloadText_of_exact {fmt : Format} {payload : Payload} (h : Exact payload) :
    payloadText fmt payload = String.ofList (stored fmt payload).print := by
  cases payload with
  | invoicePaid invoiceId eventId =>
    have hnumber : doubleText (toBinary64 eventId) = Nat.toDigits 10 eventId := by
      rw [toBinary64_natCast h, doubleText_natCast h]
    rw [payloadText, stored, payloadJson, payloadJson, hnumber]
  | expired | cancelled => rfl

/-- A merchant reads the payload back as it is stored. -/
theorem parse_payloadText {fmt : Format} {payload : Payload} (h : Exact payload) :
    Json.parse (payloadText fmt payload).toList = some (stored fmt payload) := by
  rw [payloadText_of_exact h, String.toList_ofList]
  exact Json.parse_print (printable_stored fmt payload)

/-! ## The system -/

/-- The reconciler and the API, the whole rows of the two tables, the ticks of the worker, and
the `POST`s so far. -/
structure Site (n m t : Nat) where
  sys : Sys n m
  hooks : Table Hook
  rows : Table Delivery := .empty
  ticks : Fin t → Tick := fun _ => .next []
  sent : List Webhooks.Request := []

inductive KycStatus where
  | approved | rejected
  deriving DecidableEq

inductive Action (n m t : Nat) where
  | system (a : Reconciler.Label n m) (now : Timestamp)
  | createWebhook (merchantId : Uuid) (events : List String)
  | deactivateWebhook (merchantId id : Uuid)
  /-- Its `UPDATE`; that the webhook is active was read a statement earlier. -/
  | rotateSecret (merchantId id : Uuid) (newSecret : String) (now : Timestamp)
  | emitKycEvent (merchantId : Uuid) (status : KycStatus)
  | retry (merchantId : Uuid) (deliveryId : Nat) (now : Timestamp)
  | replay (merchantId webhookId : Uuid) (deliveryId : Nat) (now : Timestamp)
  | tick (k : Fin t) (i : Ticks.Input) (now : Timestamp)

/-- `INSERT INTO webhook_deliveries`. -/
def enqueue (fmt : Format) (now : Timestamp) (rows : Table Delivery) :
    List WebhookDelivery → Table Delivery
  | [] => rows
  | d :: ds => enqueue fmt now
      (rows.append (newDelivery d.webhookId d.eventType (payloadText fmt d.payload) now)
        (serial_newDelivery d.webhookId d.eventType (payloadText fmt d.payload) now)) ds

/-- The deliveries that a step of the reconciler or the API has queued. -/
def queued {n m : Nat} (s s' : Sys n m) : List WebhookDelivery :=
  s'.world.db.webhookDeliveries.drop s.world.db.webhookDeliveries.length

/-- `emitKycEvent(merchantId, status)`: nothing tells the type of the parameter `$3`, an argument
of `jsonb_build_object`, and the `INSERT` is refused. -/
def emitKycEvent (rows : Table Delivery) (_merchantId : Uuid) (_status : KycStatus) :
    Except ApiError Unit × Table Delivery :=
  (.error .database, rows)

/-- The `POST` of a statement of a tick. -/
def post (env : WorkerEnv) (now : Timestamp) : Ticks.Input → Tick → List Webhooks.Request
  | .post, .next (x :: _) => [request env now x.1 x.2]
  | _, _ => []

def isOwnHook (merchantId id : Uuid) (h : Hook) : Bool := h.id == id && h.merchantId == merchantId

theorem key_inactive (h : Hook) :
    Keyed.key ({ h with active := false } : Hook) = Keyed.key h := rfl

theorem key_rotateSecret (env : SecretEnv) (newSecret : String) (now : Timestamp) (h : Hook) :
    Keyed.key (Webhooks.rotateSecret env h newSecret now) = Keyed.key h := rfl

/-- The worker beside the reconciler and the API. -/
def site (env : Env) (secrets : SecretEnv) (fmt : Format) (n m t : Nat) :
    Lts (Site n m t) (Action n m t) where
  step s
    | .system a now => ((platform env n m).step s.sys (.system a)).map fun sys =>
      { s with sys, rows := enqueue fmt now s.rows (queued s.sys sys) }
    | .createWebhook merchantId events =>
      ((platform env n m).step s.sys (.createWebhook merchantId events)).map fun sys =>
        { s with sys }
    | .deactivateWebhook merchantId id =>
      ((platform env n m).step s.sys (.deactivateWebhook merchantId id)).map fun sys =>
        { s with
          sys
          hooks := s.hooks.modify (isOwnHook merchantId id) (fun h => { h with active := false })
            key_inactive }
    | .rotateSecret merchantId id newSecret now => some
      { s with
        hooks := s.hooks.modify (isOwnHook merchantId id)
          (fun h => Webhooks.rotateSecret secrets h newSecret now)
          (key_rotateSecret secrets newSecret now) }
    | .emitKycEvent merchantId status => some
      { s with rows := (emitKycEvent s.rows merchantId status).2 }
    | .retry merchantId deliveryId now => some
      { s with rows := (Webhooks.retry ⟨s.hooks, s.rows⟩ merchantId deliveryId now).deliveries }
    | .replay merchantId webhookId deliveryId now => some
      { s with
        rows := (Webhooks.replay ⟨s.hooks, s.rows⟩ merchantId webhookId deliveryId now).deliveries }
    | .tick k i now => (program.exec [] i ⟨⟨s.hooks, s.rows⟩, []⟩ (s.ticks k)).map fun (w, c) =>
      { s with
        rows := w.store.deliveries
        ticks := Function.update s.ticks k c
        sent := s.sent ++ post secrets.toWorkerEnv now i (s.ticks k) }

/-! ## Where a row comes from -/

/-- The webhook was sent this text under this event by an `INSERT`. -/
def Inserted (fmt : Format) (db : Db) (webhookId : Uuid) (eventType text : String) : Prop :=
  ∃ payload, text = payloadText fmt payload ∧
    ⟨webhookId, eventType, payload⟩ ∈ db.webhookDeliveries

/-- The row is of such an `INSERT`. -/
def FromInsert (fmt : Format) (db : Db) (r : Delivery) : Prop :=
  Inserted fmt db r.webhookId r.eventType r.payload

/-- The columns that no `UPDATE` sets. -/
structure SameColumns (r r₀ : Delivery) : Prop where
  webhookId : r.webhookId = r₀.webhookId
  eventType : r.eventType = r₀.eventType
  payload : r.payload = r₀.payload

/-- The webhook has this URL. -/
def HasUrl (hooks : Table Hook) (webhookId : Uuid) (url : String) : Prop :=
  ∃ h ∈ hooks, h.id = webhookId ∧ h.url = url

/-- The rows that a tick has selected and not yet recorded. -/
def selected : Tick → List Selected
  | .next rest => rest
  | .posting x rest | .caught x rest => x :: rest

/-- The rows that are stored, selected or posted go back to an `INSERT`, and those selected or
posted are for the URL of their webhook. -/
structure Traced {n m t : Nat} (fmt : Format) (s : Site n m t) : Prop where
  hooks : ∀ h ∈ s.hooks, h.toWebhook ∈ s.sys.world.db.webhooks
  rows : ∀ r ∈ s.rows, FromInsert fmt s.sys.world.db r
  ticks : ∀ k, ∀ x ∈ selected (s.ticks k), FromInsert fmt s.sys.world.db x.1 ∧
    HasUrl s.hooks x.1.webhookId x.2.url
  sent : ∀ q ∈ s.sent, ∃ webhookId, Inserted fmt s.sys.world.db webhookId q.event q.body ∧
    HasUrl s.hooks webhookId q.url

/-- What no step takes away. -/
structure Grows {n m t : Nat} (s s' : Site n m t) : Prop where
  deliveries : s.sys.world.db.webhookDeliveries <+: s'.sys.world.db.webhookDeliveries
  urls : ∀ webhookId url, HasUrl s.hooks webhookId url → HasUrl s'.hooks webhookId url

section Steps

variable {n m t : Nat} {env : Env} {secrets : SecretEnv} {fmt : Format} {s s' : Site n m t}
  {db db' : Db} {webhookId : Uuid} {eventType url text : String}

theorem Inserted.mono (h : Inserted fmt db webhookId eventType text)
    (hdeliveries : db.webhookDeliveries <+: db'.webhookDeliveries) :
    Inserted fmt db' webhookId eventType text := by
  obtain ⟨payload, htext, hmem⟩ := h
  exact ⟨payload, htext, hdeliveries.subset hmem⟩

theorem FromInsert.of_same {r r₀ : Delivery} (h : FromInsert fmt db r₀)
    (hsame : SameColumns r r₀) : FromInsert fmt db r := by
  rw [FromInsert, hsame.webhookId, hsame.eventType, hsame.payload]
  exact h

/-- The reconciler and the API only add deliveries. -/
theorem deliveries_step {s s' : Sys n m} {a : Request n m}
    (hstep : (platform env n m).step s a = some s') :
    s.world.db.webhookDeliveries <+: s'.world.db.webhookDeliveries := by
  rcases platform_cases hstep with ⟨b, rfl, hsys⟩ | ⟨-, haside⟩
  · cases step_spec hsys with
    | exec _ hexec =>
      rcases exec_commits hexec with ⟨-, hsame⟩ | ⟨c, updated, hooks, -, hdb⟩
      · rw [hsame]
      · rw [hdb]
        exact List.prefix_append _ _
    | @api k now db call hexec =>
      have hmoves := apiMoves_of_exec hexec
      generalize s.apis k = call at hmoves
      cases hmoves with
      | insert => exact List.prefix_append _ _
      | select | next | commit | quiet => exact List.prefix_rfl
    | cancel hupd | expire _ hupd | autoCancel _ hupd =>
      obtain rfl := Sys.update_eq hupd
      exact List.prefix_rfl
    | deliver | abort | redis | create | applyPartial | apiAbort => exact List.prefix_rfl
  · rw [haside.deliveries]

theorem Traced.grows (h : Traced fmt s) (hgrows : Grows s s') :
    (∀ r ∈ s.rows, FromInsert fmt s'.sys.world.db r) ∧
    (∀ k, ∀ x ∈ selected (s.ticks k), FromInsert fmt s'.sys.world.db x.1 ∧
      HasUrl s'.hooks x.1.webhookId x.2.url) ∧
    ∀ q ∈ s.sent, ∃ webhookId, Inserted fmt s'.sys.world.db webhookId q.event q.body ∧
      HasUrl s'.hooks webhookId q.url := by
  refine ⟨fun r hr => Inserted.mono (h.rows r hr) hgrows.deliveries, fun k x hx => ?_,
    fun q hq => ?_⟩
  · obtain ⟨hfrom, hurl⟩ := h.ticks k x hx
    exact ⟨Inserted.mono hfrom hgrows.deliveries, hgrows.urls _ _ hurl⟩
  · obtain ⟨webhookId, hins, hurl⟩ := h.sent q hq
    exact ⟨webhookId, hins.mono hgrows.deliveries, hgrows.urls _ _ hurl⟩

/-- New rows beside the old ones. -/
theorem mem_enqueue {now : Timestamp} {ds : List WebhookDelivery} {rows : Table Delivery}
    {r : Delivery} (hr : r ∈ enqueue fmt now rows ds) :
    r ∈ rows ∨ ∃ d ∈ ds, r.webhookId = d.webhookId ∧ r.eventType = d.eventType ∧
      r.payload = payloadText fmt d.payload := by
  induction ds generalizing rows with
  | nil => exact .inl hr
  | cons d ds ih =>
    rcases ih hr with hmem | ⟨d', hd', hrest⟩
    · rcases (Table.mem_append _).mp hmem with hold | rfl
      · exact .inl hold
      · exact .inr ⟨d, List.mem_cons_self, rfl, rfl, rfl⟩
    · exact .inr ⟨d', List.mem_cons_of_mem _ hd', hrest⟩

/-- A step that inserts deliveries, and leaves ticks and requests alone. -/
theorem Traced.insert {now : Timestamp} {ds : List WebhookDelivery} (h : Traced fmt s)
    (hgrows : Grows s s') (hhooks : ∀ h ∈ s'.hooks, h.toWebhook ∈ s'.sys.world.db.webhooks)
    (hrows : s'.rows = enqueue fmt now s.rows ds)
    (hnew : ∀ d ∈ ds, d ∈ s'.sys.world.db.webhookDeliveries)
    (hticks : s'.ticks = s.ticks) (hsent : s'.sent = s.sent) : Traced fmt s' := by
  obtain ⟨hold, hselected, hposted⟩ := h.grows hgrows
  refine ⟨hhooks, fun r hr => ?_, hticks ▸ hselected, hsent ▸ hposted⟩
  rw [hrows] at hr
  rcases mem_enqueue hr with hr | ⟨d, hmem, hwebhook, htype, hpayload⟩
  · exact hold r hr
  · exact ⟨d.payload, hpayload, hwebhook ▸ htype ▸ hnew d hmem⟩

/-- A step that inserts nothing. -/
theorem Traced.same (h : Traced fmt s) (hgrows : Grows s s')
    (hhooks : ∀ h ∈ s'.hooks, h.toWebhook ∈ s'.sys.world.db.webhooks)
    (hrows : ∀ r ∈ s'.rows, ∃ r₀ ∈ s.rows, SameColumns r r₀)
    (hticks : s'.ticks = s.ticks) (hsent : s'.sent = s.sent) : Traced fmt s' := by
  obtain ⟨hold, hselected, hposted⟩ := h.grows hgrows
  refine ⟨hhooks, fun r hr => ?_, hticks ▸ hselected, hsent ▸ hposted⟩
  obtain ⟨r₀, hr₀, hsame⟩ := hrows r hr
  exact (hold r₀ hr₀).of_same hsame

/-- An `UPDATE` that leaves the columns of the `INSERT` alone. -/
theorem columns_modify {rows : Table Delivery} {p : Delivery → Bool} {f : Delivery → Delivery}
    (hf : ∀ r, Keyed.key (f r) = Keyed.key r)
    (hsame : ∀ r, SameColumns (f r) r) {r : Delivery} (hr : r ∈ rows.modify p f hf) :
    ∃ r₀ ∈ rows, SameColumns r r₀ := by
  rcases Table.of_mem_modify hr with ⟨hr, -⟩ | ⟨r₀, hr₀, -, rfl⟩
  · exact ⟨r, hr, rfl, rfl, rfl⟩
  · exact ⟨r₀, hr₀, hsame r₀⟩

/-- A row that a tick selects, with its webhook. -/
theorem stored_of_select {store : Store} {now : Timestamp} {order rows : List Selected}
    (hselect : selectPending store now order = some rows) :
    ∀ x ∈ rows, x.1 ∈ store.deliveries ∧ x.2 ∈ store.webhooks ∧ x.2.id = x.1.webhookId := by
  intro x hx
  unfold selectPending at hselect
  split at hselect
  · next hok =>
    cases hselect
    obtain ⟨d, hd, hsome⟩ :=
      List.mem_filterMap.mp (hok.1.mem_iff.mp (List.mem_of_mem_take hx))
    unfold select? at hsome
    split at hsome
    · obtain ⟨h, hfind, rfl⟩ := Option.map_eq_some_iff.mp hsome
      obtain ⟨hmem, hp⟩ := Table.find?_some hfind
      simp only [Bool.and_eq_true, beq_iff_eq] at hp
      exact ⟨hd, hmem, hp.1⟩
    · cases hsome
  · cases hselect

/-- What a statement of a tick does. -/
theorem tick_exec {i : Ticks.Input} {w w' : Ticks.World} {c c' : Tick}
    (h : program.exec [] i w c = some (w', c')) :
    (∀ r ∈ w'.store.deliveries, ∃ r₀ ∈ w.store.deliveries, SameColumns r r₀) ∧
    (selected c' ⊆ selected c ∨ ∀ x ∈ selected c', x.1 ∈ w.store.deliveries ∧
      x.2 ∈ w.store.webhooks ∧ x.2.id = x.1.webhookId) := by
  have hself : ∀ r ∈ w.store.deliveries, ∃ r₀ ∈ w.store.deliveries, SameColumns r r₀ :=
    fun r hr => ⟨r, hr, rfl, rfl, rfl⟩
  cases i with
  | start now order =>
    cases c with
    | next rest =>
      cases rest with
      | nil =>
        obtain ⟨rows, hselect, heq⟩ := Option.map_eq_some_iff.mp h
        cases heq
        exact ⟨hself, .inr (stored_of_select hselect)⟩
      | cons x rest => cases h
    | _ => cases h
  | post =>
    cases c with
    | next rest =>
      cases rest with
      | nil => cases h
      | cons x rest =>
        cases h
        exact ⟨hself, .inl (List.Subset.refl _)⟩
    | _ => cases h
  | respond code now jitter =>
    cases c with
    | posting x rest =>
      cases h
      exact ⟨fun r hr => columns_modify (key_answered x.1 code now jitter)
        (fun _ => ⟨rfl, rfl, rfl⟩) hr,
        .inl (List.subset_cons_self x rest)⟩
    | _ => cases h
  | throw =>
    cases c with
    | posting x rest =>
      cases h
      exact ⟨hself, .inl (List.Subset.refl _)⟩
    | _ => cases h
  | recordError now jitter =>
    cases c with
    | caught x rest =>
      cases h
      exact ⟨fun r hr => columns_modify (key_failedOn x.1 now jitter)
        (fun _ => ⟨rfl, rfl, rfl⟩) hr,
        .inl (List.subset_cons_self x rest)⟩
    | _ => cases h
  | crash =>
    cases h
    exact ⟨hself, .inl (List.nil_subset _)⟩

/-- A tick posts what it has selected. -/
theorem mem_post {workers : WorkerEnv} {now : Timestamp} {i : Ticks.Input} {c : Tick}
    {q : Webhooks.Request} (hq : q ∈ post workers now i c) :
    ∃ x ∈ selected c, q = request workers now x.1 x.2 := by
  unfold post at hq
  split at hq
  · exact ⟨_, List.mem_cons_self, List.mem_singleton.mp hq⟩
  · cases hq

/-- **A statement of a tick.** -/
theorem traced_tick {k : Fin t} {i : Ticks.Input} {now : Timestamp} {w : Ticks.World} {c : Tick}
    (h : Traced fmt s)
    (hexec : program.exec [] i ⟨⟨s.hooks, s.rows⟩, []⟩ (s.ticks k) = some (w, c)) :
    Traced fmt { s with
      rows := w.store.deliveries
      ticks := Function.update s.ticks k c
      sent := s.sent ++ post secrets.toWorkerEnv now i (s.ticks k) } := by
  obtain ⟨hrows, hselected⟩ := tick_exec hexec
  refine ⟨h.hooks, fun r hr => ?_, ?_, fun q hq => ?_⟩
  · obtain ⟨r₀, hr₀, hsame⟩ := hrows r hr
    exact (h.rows r₀ hr₀).of_same hsame
  · refine forall_update (P := fun _ c => ∀ x ∈ selected c, FromInsert fmt s.sys.world.db x.1 ∧
      HasUrl s.hooks x.1.webhookId x.2.url) (fun x hx => ?_) fun j _ => h.ticks j
    rcases hselected with hsub | hstored
    · exact h.ticks k x (hsub hx)
    · obtain ⟨hmem, hhook, hid⟩ := hstored x hx
      exact ⟨h.rows x.1 hmem, x.2, hhook, hid, rfl⟩
  · rcases List.mem_append.mp hq with hq | hq
    · exact h.sent q hq
    · obtain ⟨x, hx, rfl⟩ := mem_post hq
      exact ⟨x.1.webhookId, h.ticks k x hx⟩

/-- The step of the reconciler and the API, and what becomes of the URLs. -/
theorem Grows.of_step {a : Request n m} (hstep : (platform env n m).step s.sys a = some s'.sys)
    (hurls : ∀ webhookId url, HasUrl s.hooks webhookId url → HasUrl s'.hooks webhookId url) :
    Grows s s' :=
  ⟨deliveries_step hstep, hurls⟩

/-- An `UPDATE` of a webhook leaves its URL alone. -/
theorem hasUrl_modify {hooks : Table Hook} {p : Hook → Bool} {f : Hook → Hook}
    (hf : ∀ h, Keyed.key (f h) = Keyed.key h) (hsame : ∀ h, (f h).id = h.id ∧ (f h).url = h.url)
    (hurl : HasUrl hooks webhookId url) : HasUrl (hooks.modify p f hf) webhookId url := by
  obtain ⟨h, hmem, hid, heq⟩ := hurl
  refine ⟨_, List.mem_map.mpr ⟨h, hmem, rfl⟩, ?_⟩
  split
  · exact ⟨(hsame h).1.trans hid, (hsame h).2.trans heq⟩
  · exact ⟨hid, heq⟩

/-- Where the reconciler and the API do not step. -/
theorem Grows.of_sys (hsys : s'.sys = s.sys)
    (hurls : ∀ webhookId url, HasUrl s.hooks webhookId url → HasUrl s'.hooks webhookId url) :
    Grows s s' :=
  ⟨hsys ▸ List.prefix_rfl, hurls⟩

/-- **Every step keeps rows traced.** -/
theorem traced_step {a : Action n m t} (h : Traced fmt s)
    (hstep : (site env secrets fmt n m t).step s a = some s') : Traced fmt s' := by
  have hself : ∀ r ∈ s.rows, ∃ r₀ ∈ s.rows, SameColumns r r₀ :=
    fun r hr => ⟨r, hr, rfl, rfl, rfl⟩
  cases a with
  | system a now =>
    obtain ⟨sys, hsys, rfl⟩ := Option.map_eq_some_iff.mp hstep
    refine h.insert (.of_step hsys fun _ _ => id) (fun hook hmem => ?_) rfl
      (fun d hd => List.mem_of_mem_drop hd) rfl rfl
    rw [(still_step hsys).webhooks]
    exact h.hooks hook hmem
  | createWebhook merchantId events =>
    cases hstep
    exact h.same (.of_sys rfl fun _ _ => id) h.hooks hself rfl rfl
  | deactivateWebhook merchantId id =>
    cases hstep
    have hsys : (platform env n m).step s.sys (.deactivateWebhook merchantId id) = some _ := rfl
    refine h.same (.of_step hsys fun _ _ => hasUrl_modify key_inactive fun _ => ⟨rfl, rfl⟩)
      (fun hook (hmem : hook ∈ s.hooks.modify _ _ key_inactive) => ?_) hself rfl rfl
    rcases Table.of_mem_modify hmem with ⟨hold, hp⟩ | ⟨hook₀, hold, hp, rfl⟩
    · refine List.mem_map.mpr ⟨hook.toWebhook, h.hooks hook hold, if_neg ?_⟩
      exact Bool.not_eq_true _ ▸ hp
    · exact List.mem_map.mpr ⟨hook₀.toWebhook, h.hooks hook₀ hold, if_pos hp⟩
  | rotateSecret merchantId id newSecret now =>
    cases hstep
    refine h.same (.of_sys rfl fun _ _ =>
      hasUrl_modify (key_rotateSecret secrets newSecret now) fun _ => ⟨rfl, rfl⟩)
      (fun hook (hmem : hook ∈ s.hooks.modify _ _ (key_rotateSecret secrets newSecret now)) => ?_)
      hself rfl rfl
    rcases Table.of_mem_modify hmem with ⟨hold, -⟩ | ⟨hook₀, hold, -, rfl⟩
    · exact h.hooks hook hold
    · exact h.hooks hook₀ hold
  | emitKycEvent merchantId status =>
    cases hstep
    exact h.same (.of_sys rfl fun _ _ => id) h.hooks hself rfl rfl
  | retry merchantId deliveryId now =>
    cases hstep
    exact h.same (.of_sys rfl fun _ _ => id) h.hooks
      (fun r hr => columns_modify (key_retried now) (fun _ => ⟨rfl, rfl, rfl⟩) hr) rfl rfl
  | replay merchantId webhookId deliveryId now =>
    cases hstep
    exact h.same (.of_sys rfl fun _ _ => id) h.hooks
      (fun r hr => columns_modify (key_replayed now) (fun _ => ⟨rfl, rfl, rfl⟩) hr) rfl rfl
  | tick k i now =>
    obtain ⟨⟨w, c⟩, hexec, rfl⟩ := Option.map_eq_some_iff.mp hstep
    exact traced_tick h hexec

/-- The reconciler and the API step, or they stay as they are. -/
theorem platform_step {a : Action n m t} (hstep : (site env secrets fmt n m t).step s a = some s') :
    s'.sys = s.sys ∨ ∃ b, (platform env n m).step s.sys b = some s'.sys := by
  cases a with
  | system a now =>
    obtain ⟨sys, hsys, rfl⟩ := Option.map_eq_some_iff.mp hstep
    exact .inr ⟨_, hsys⟩
  | createWebhook merchantId events =>
    cases hstep
    exact .inr ⟨.createWebhook merchantId events, rfl⟩
  | deactivateWebhook merchantId id =>
    cases hstep
    exact .inr ⟨.deactivateWebhook merchantId id, rfl⟩
  | rotateSecret | emitKycEvent | retry | replay =>
    cases hstep
    exact .inl rfl
  | tick k i now =>
    obtain ⟨⟨w, c⟩, -, rfl⟩ := Option.map_eq_some_iff.mp hstep
    exact .inl rfl

end Steps

/-! ## What merchants are sent -/

/-- The payload is about the merchant, and what it says can be read in the tables. -/
def Backed (db : Db) (merchantId : Uuid) (payload : Payload) : Prop :=
  Owns db merchantId (invoiceOf payload) ∧ Evident db payload

/-- Nothing runs, and nothing has been queued or sent. -/
structure Fresh {n m t : Nat} (s : Site n m t) : Prop where
  idle : s.sys.Idle
  deliveries : s.sys.world.db.webhookDeliveries = []
  hooks : ∀ h ∈ s.hooks, h.toWebhook ∈ s.sys.world.db.webhooks
  rows : s.rows = .empty
  ticks : ∀ k, s.ticks k = .next []
  sent : s.sent = []

section Runs

variable {n m t : Nat} {env : Env} {secrets : SecretEnv} {fmt : Format} {s s' : Site n m t}

/-- What was inserted for a webhook is backed for its merchant. -/
theorem backed_of_mem {db : Db} {webhook : Webhook} {eventType : String} {payload : Payload}
    (haimed : ∀ d ∈ db.webhookDeliveries, Aimed db d)
    (hevident : ∀ d ∈ db.webhookDeliveries, Evident db d.payload)
    (hwebhook : webhook ∈ db.webhooks)
    (hmem : ⟨webhook.id, eventType, payload⟩ ∈ db.webhookDeliveries) :
    eventType = eventOf payload ∧ eventType ∈ webhook.events ∧
      Backed db webhook.merchantId payload := by
  obtain ⟨htype, merchantId, ⟨x, hx, hid, rfl, hevents⟩, howns⟩ := haimed _ hmem
  -- ids of webhooks are unique
  obtain rfl := Table.eq_of_conflict hx hwebhook hid
  exact ⟨htype, hevents, howns, hevident _ hmem⟩

theorem Fresh.traced (h : Fresh s) : Traced fmt s where
  hooks := h.hooks
  rows r hr := by
    rw [h.rows] at hr
    cases hr
  ticks k x hx := by
    rw [h.ticks k] at hx
    cases hx
  sent q hq := by
    rw [h.sent] at hq
    cases hq

/-- **Every `POST` is backed.** Over every interleaving of reconciler processes, cron jobs, API
calls, changes of webhooks, KYC decisions and ticks that may overlap: a request goes to the URL of
a webhook that has asked for its event, and its body is a payload about the merchant of that
webhook which the tables bear out. It reads back as it is stored if it has no number that a double
would round. -/
theorem posts_backed {run : List (Action n m t)} (hfresh : Fresh s)
    (hrun : (site env secrets fmt n m t).run s run = some s') :
    ∀ q ∈ s'.sent, ∃ h ∈ s'.hooks, h.url = q.url ∧ q.event ∈ h.events ∧
      ∃ payload, q.event = eventOf payload ∧ q.body = payloadText fmt payload ∧
        (Exact payload → Json.parse q.body.toList = some (stored fmt payload)) ∧
        Backed s'.sys.world.db h.merchantId payload := by
  have hinit : Traced fmt s ∧ Evidence s.sys :=
    ⟨hfresh.traced, evidence_of_idle hfresh.idle hfresh.deliveries⟩
  obtain ⟨htraced, hevidence⟩ := (site env secrets fmt n m t).inv_of_run
    (I := fun s => Traced fmt s ∧ Evidence s.sys) (fun s a s' h hstep =>
      ⟨traced_step h.1 hstep, (platform_step hstep).elim (fun heq => heq ▸ h.2)
        fun ⟨_, hb⟩ => evidence_step h.2 hb⟩) hinit hrun
  intro q hq
  obtain ⟨webhookId, ⟨payload, hbody, hmem⟩, h, hh, rfl, hurl⟩ := htraced.sent q hq
  obtain ⟨htype, hevents, hbacked⟩ := backed_of_mem hevidence.aims.deliveries
    hevidence.deliveries (htraced.hooks h hh) hmem
  exact ⟨h, hh, hurl, hevents, payload, htype, hbody, fun hexact => hbody ▸ parse_payloadText hexact,
    hbacked⟩

end Runs

/-- Ids and times as numbers. -/
def testFormat : Format := ⟨fun id => toString id, fun time => toString time⟩

/-- The hook of the merchant, and the row of its first delivery. -/
def paidHook : Hook := ⟨⟨7, 1, ["invoice.paid"], true⟩, "https://example.test", "key", none, none⟩

def paidRow : Delivery :=
  newDelivery 7 "invoice.paid" (payloadText testFormat (.invoicePaid 1 1)) 0 1

def testSite : Site 1 1 1 where
  sys := subscribedTo ["invoice.paid"]
  hooks := ⟨[paidHook], List.pairwise_singleton _ _⟩

/-- A payment is credited, a webhook and a KYC event are refused, and a tick posts the delivery. -/
def paidAndPosted : List (Action 1 1 1) :=
  (.deliver 0 (fullPayment "token_happy_001") :: execs 12).map (.system · 0) ++
    [.createWebhook 1 ["invoice.paid"], .emitKycEvent 1 .approved,
      .tick 0 (.start 0 [(paidRow, paidHook)]) 0, .tick 0 .post 0]

theorem posts_backed_paid :
    ∃ t, (site testEnv testSecretEnv testFormat 1 1 1).run testSite paidAndPosted = some t ∧
      t.sent.length = 1 ∧
      ∀ q ∈ t.sent, ∃ h ∈ t.hooks, h.url = q.url ∧ q.event ∈ h.events ∧
        ∃ payload, q.event = eventOf payload ∧ q.body = payloadText testFormat payload ∧
          (Exact payload → Json.parse q.body.toList = some (stored testFormat payload)) ∧
          Backed t.sys.world.db h.merchantId payload := by
  have hfresh : Fresh testSite := by
    refine ⟨⟨fun _ => rfl, fun _ => rfl⟩, rfl, fun hook hmem => ?_, rfl, fun _ => rfl, rfl⟩
    obtain rfl := List.mem_singleton.mp hmem
    exact List.mem_singleton.mpr rfl
  obtain ⟨t, ht, hsent⟩ := (site testEnv testSecretEnv testFormat 1 1 1).exists_of_leadsTo
    (fun t => t.sent.length = 1) testSite paidAndPosted (by decide +kernel)
  exact ⟨t, ht, hsent, posts_backed hfresh ht⟩

end Stargate.Notifications
