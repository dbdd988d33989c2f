import Stargate.Base.Transition
import Stargate.Webhooks.Deliveries

/-!
# The attempts of a delivery

Whole ticks, retries and replays in any order. The columns of a delivery are compared with the
`POST`s of it since it was created, or last retried or replayed.

- `deliverPending`: a tick as a whole;
- `system`: ticks, retries, replays and new deliveries, with the history of `POST`s;
- `Accounted`: the columns that the `POST`s of a delivery leave behind;
- `Inv`, `inv_step`: every step accounts for its `POST`s.
-/

namespace Stargate.Webhooks

open Base

/-! ## Ticks -/

/-- How a `POST` ends: with a response, or with an exception. -/
inductive Answer where
  | status (code : Nat)
  | error
  deriving DecidableEq

def Answer.ok : Answer → Bool
  | .status code => isOk code
  | .error => false

/-- The end of a `POST`, with the clock and the jitter of what is written. -/
structure Outcome where
  answer : Answer
  now : Timestamp
  jitter : Nat
  deriving DecidableEq

/-- What has happened to a delivery. -/
inductive Event where
  | posted (id : Nat) (ok : Bool)
  /-- A retry or a replay. -/
  | reset (id : Nat)
  deriving DecidableEq

structure World where
  store : Store
  history : List Event
  deriving DecidableEq

/-- The `UPDATE` of a delivery. -/
def Outcome.write (o : Outcome) (store : Store) (d : Delivery) : Store :=
  match o.answer with
  | .status code => record store d code o.now o.jitter
  | .error => recordError store d o.now o.jitter

/-- `deliver(delivery)`. -/
def deliver (w : World) (d : Delivery) (o : Outcome) : World where
  store := o.write w.store d
  history := w.history ++ [.posted d.id o.answer.ok]

def deliverAll (w : World) : List (Selected × Outcome) → World
  | [] => w
  | (x, o) :: rest => deliverAll (deliver w x.1 o) rest

/-- `deliverPending()`, where every `POST` ends as `outcomes` says. -/
def deliverPending (w : World) (now : Timestamp) (order : List Selected)
    (outcomes : List Outcome) : Option World := do
  let rows ← selectPending w.store now order
  if rows.length = outcomes.length then some (deliverAll w (rows.zip outcomes)) else none

/-! ## Runs -/

inductive Label where
  | tick (now : Timestamp) (order : List Selected) (outcomes : List Outcome)
  | retry (merchantId : Uuid) (deliveryId : Nat) (now : Timestamp)
  | replay (merchantId webhookId : Uuid) (deliveryId : Nat) (now : Timestamp)
  | insert (webhookId : Uuid) (eventType payload : String) (now : Timestamp)
  /-- Webhooks are stored, deactivated and given new secrets. -/
  | webhooks (webhooks : Table Hook)

/-- The reset of a delivery, if the `UPDATE` has a row. -/
def resets (store : Store) (p : Delivery → Bool) (id : Nat) : List Event :=
  if store.deliveries.rows.any p then [.reset id] else []

/-- Ticks one after the other, with all else in between: each of them is one step. Other statements
may also come inside a tick, as in `Ticks.program`. -/
def system : Lts World Label where
  step w
    | .tick now order outcomes => deliverPending w now order outcomes
    | .retry merchantId deliveryId now => some {
        store := retry w.store merchantId deliveryId now
        history := w.history
          ++ resets w.store (canRetry w.store merchantId deliveryId) deliveryId }
    | .replay merchantId webhookId deliveryId now => some {
        store := replay w.store merchantId webhookId deliveryId now
        history := w.history
          ++ resets w.store (canReplay w.store merchantId webhookId deliveryId) deliveryId }
    | .insert webhookId eventType payload now => some {
        w with store := insertDelivery w.store webhookId eventType payload now }
    | .webhooks webhooks => some { w with store := { w.store with webhooks } }

/-! ## The `POST`s of a delivery -/

/-- The results of the `POST`s of a delivery, after one more event. -/
def Event.results (id : Nat) (results : List Bool) : Event → List Bool
  | .posted i ok => if i = id then results ++ [ok] else results
  | .reset i => if i = id then [] else results

/-- The results of the `POST`s of a delivery since it was created, or last retried or
replayed. -/
def postsOf (history : List Event) (id : Nat) : List Bool :=
  history.foldl (Event.results id) []

/-- The columns of a delivery after these `POST`s. -/
structure Accounted (d : Delivery) (posts : List Bool) : Prop where
  attempts : d.attempts = posts.length
  atMost : posts.length ≤ 5
  pending : d.status = .pending → posts.length ≤ 4 ∧ ∀ ok ∈ posts, ok = false
  dead : d.status = .dead → posts.length = 5 ∧ ∀ ok ∈ posts, ok = false
  delivered : d.status = .delivered →
    ∃ before, posts = before ++ [true] ∧ ∀ ok ∈ before, ok = false
  deliveredAt : d.status = .delivered ↔ d.deliveredAt ≠ none
  nextRetryAt : d.status = .delivered ∨ d.status = .dead → d.nextRetryAt = none
  notFailed : d.status ≠ .failed

section

variable {w w' : World} {d r : Delivery} {posts : List Bool} {now : Timestamp} {jitter : Nat}
  {o : Outcome} {a : Label}

theorem postsOf_append (history : List Event) (e : Event) (id : Nat) :
    postsOf (history ++ [e]) id = e.results id (postsOf history id) := by
  rw [postsOf, List.foldl_append]
  rfl

theorem accounted_newDelivery (webhookId : Uuid) (eventType payload : String)
    (now : Timestamp) (id : Nat) :
    Accounted (newDelivery webhookId eventType payload now id) [] where
  attempts := rfl
  atMost := Nat.zero_le 5
  pending _ := ⟨Nat.zero_le 4, nofun⟩
  dead := nofun
  delivered := nofun
  deliveredAt := iff_of_false nofun (fun h => h rfl)
  nextRetryAt := by
    rintro (h | h)
    · cases h
    · cases h
  notFailed := nofun

theorem forall_append_false {posts : List Bool} (h : ∀ ok ∈ posts, ok = false) :
    ∀ ok ∈ posts ++ [false], ok = false := by
  intro ok hok
  rcases List.mem_append.mp hok with hok | hok
  · exact h ok hok
  · exact List.mem_singleton.mp hok

/-- A `POST` that succeeds. -/
theorem Accounted.succeeded (h : Accounted d posts) (hpending : d.status = .pending) {code : Nat}
    (hok : isOk code = true) : Accounted (d.answered code now jitter d) (posts ++ [true]) := by
  obtain ⟨hlen, hall⟩ := h.pending hpending
  have hstatus : (d.answered code now jitter d).status = .delivered := by
    simp only [Delivery.answered, hok, if_true]
  refine ⟨?_, ?_, ?_, ?_, fun _ => ⟨posts, rfl, hall⟩, ?_, fun _ => ?_, ?_⟩
  · rw [List.length_append, ← h.attempts]
    rfl
  · rw [List.length_append]
    exact Nat.succ_le_succ hlen
  · rw [hstatus]
    rintro ⟨⟩
  · rw [hstatus]
    rintro ⟨⟩
  · refine iff_of_true hstatus ?_
    simp only [Delivery.answered, hok, if_true]
    exact Option.some_ne_none now
  · simp only [Delivery.answered, hok, Bool.true_or, if_true]
  · rw [hstatus]
    rintro ⟨⟩

/-- The columns after a `POST` that fails: the row is dead from the fifth one on. -/
theorem Accounted.failed (h : Accounted d posts) (hpending : d.status = .pending)
    (hattempts : r.attempts = d.attempts + 1)
    (hstatus : r.status = if 5 ≤ d.attempts + 1 then .dead else .pending)
    (hdelivered : r.deliveredAt = none)
    (hnext : 5 ≤ d.attempts + 1 → r.nextRetryAt = none) : Accounted r (posts ++ [false]) := by
  obtain ⟨hlen, hall⟩ := h.pending hpending
  have hposts := forall_append_false hall
  have hlen' : (posts ++ [false]).length = posts.length + 1 := List.length_append
  have hne : r.status ≠ .delivered := by
    rw [hstatus]
    split
    · rintro ⟨⟩
    · rintro ⟨⟩
  refine ⟨?_, ?_, fun hp => ⟨?_, hposts⟩, fun hd => ⟨?_, hposts⟩, fun hd => absurd hd hne,
    iff_of_false hne fun hsome => hsome hdelivered, ?_, ?_⟩
  · rw [hattempts, hlen', h.attempts]
  · omega
  · rw [hstatus, h.attempts] at hp
    split at hp
    · cases hp
    · omega
  · rw [hstatus, h.attempts] at hd
    split at hd
    · omega
    · cases hd
  · rintro (hd | hd)
    · exact absurd hd hne
    · rw [hstatus] at hd
      split at hd
      · next hdead => exact hnext hdead
      · cases hd
  · rw [hstatus]
    split
    · rintro ⟨⟩
    · rintro ⟨⟩

/-- The columns after the `UPDATE` of a `POST`. -/
theorem Accounted.written (h : Accounted d posts) (hpending : d.status = .pending)
    (hr : match o.answer with
      | .status code => r = d.answered code o.now o.jitter d
      | .error => r = d.failedOn o.now o.jitter d) :
    Accounted r (posts ++ [o.answer.ok]) := by
  have hnone : d.deliveredAt = none := by
    by_contra hsome
    rw [h.deliveredAt.mpr hsome] at hpending
    cases hpending
  cases ho : o.answer with
  | status code =>
    rw [ho] at hr
    cases hr
    cases hok : isOk code with
    | true =>
      rw [Answer.ok, hok]
      exact h.succeeded hpending hok
    | false =>
      rw [Answer.ok, hok]
      refine h.failed hpending rfl ?_ ?_ fun hdead => ?_
      · simp [Delivery.answered, hok]
      · simp [Delivery.answered, hok]
      · simp [Delivery.answered, hok, hdead]
  | error =>
    rw [ho] at hr
    cases hr
    refine h.failed hpending rfl ?_ hnone fun hdead => ?_
    · simp [Delivery.failedOn]
    · simp [Delivery.failedOn, hdead]

theorem accounted_reset (hattempts : r.attempts = 0) (hstatus : r.status = .pending)
    (hdelivered : r.deliveredAt = none) : Accounted r [] where
  attempts := hattempts
  atMost := Nat.zero_le 5
  pending _ := ⟨Nat.zero_le 4, nofun⟩
  dead h := by
    rw [hstatus] at h
    cases h
  delivered h := by
    rw [hstatus] at h
    cases h
  deliveredAt := by
    refine iff_of_false ?_ fun h => h hdelivered
    rw [hstatus]
    rintro ⟨⟩
  nextRetryAt h := by
    rw [hstatus] at h
    rcases h with h | h
    · cases h
    · cases h
  notFailed := by
    rw [hstatus]
    rintro ⟨⟩

/-! ## The invariant -/

/-- Every delivery is accounted for, and nothing was posted under a free id. -/
structure Inv (w : World) : Prop where
  rows : ∀ d ∈ w.store.deliveries, Accounted d (postsOf w.history d.id)
  unused : ∀ id, (∀ d ∈ w.store.deliveries, d.id ≠ id) → postsOf w.history id = []

/-- An `UPDATE`, with what is added to the history. -/
theorem Inv.modify (h : Inv w) {p : Delivery → Bool} {f : Delivery → Delivery}
    (hf : ∀ r, Keyed.key (f r) = Keyed.key r) {es : List Event}
    (hyes : ∀ r ∈ w.store.deliveries, p r = true →
      Accounted (f r) (postsOf (w.history ++ es) r.id))
    (hno : ∀ r ∈ w.store.deliveries, p r = false →
      postsOf (w.history ++ es) r.id = postsOf w.history r.id)
    (hunused : ∀ id, (∀ d ∈ w.store.deliveries, d.id ≠ id) →
      postsOf (w.history ++ es) id = postsOf w.history id) :
    Inv ⟨{ w.store with deliveries := w.store.deliveries.modify p f hf }, w.history ++ es⟩ where
  rows d hd := by
    obtain ⟨r, hr, rfl⟩ := (Table.mem_modify hf).mp hd
    cases hp : p r with
    | true =>
      have hid : (f r).id = r.id := hf r
      rw [if_pos rfl, hid]
      exact hyes r hr hp
    | false =>
      rw [if_neg Bool.false_ne_true]
      show Accounted r (postsOf (w.history ++ es) r.id)
      rw [hno r hr hp]
      exact h.rows r hr
  unused id hid := by
    have hfree : ∀ d ∈ w.store.deliveries, d.id ≠ id := by
      intro d hd
      have hmem := (Table.mem_modify (p := p) hf).mpr ⟨d, hd, rfl⟩
      refine fun heq => hid _ hmem ?_
      split
      · exact (hf d).trans heq
      · exact heq
    show postsOf (w.history ++ es) id = []
    rw [hunused id hfree]
    exact h.unused id hfree

/-- **A `POST` and its `UPDATE`.** -/
theorem Inv.deliver (h : Inv w) (hd : d ∈ w.store.deliveries) (hpending : d.status = .pending)
    (o : Outcome) : Inv (deliver w d o) := by
  have hposts : ∀ id, postsOf (w.history ++ [.posted d.id o.answer.ok]) id
      = if d.id = id then postsOf w.history id ++ [o.answer.ok] else postsOf w.history id :=
    fun id => postsOf_append w.history _ id
  have hwritten := fun r hr => (h.rows d hd).written (r := r) (o := o) hpending hr
  have hsame : ∀ r ∈ w.store.deliveries, (r.id == d.id) = true → r = d := fun r hr hid =>
    Table.eq_of_conflict hr hd (beq_iff_eq.mp hid)
  unfold Webhooks.deliver Outcome.write
  split
  · next code ho =>
    refine h.modify (key_answered d code o.now o.jitter) (fun r hr hid => ?_) (fun r _ hid => ?_)
      fun id hid => ?_
    · cases hsame r hr hid
      rw [hposts, if_pos rfl]
      exact hwritten _ (by rw [ho])
    · rw [hposts, if_neg fun heq => beq_eq_false_iff_ne.mp hid heq.symm]
    · rw [hposts, if_neg (hid d hd)]
  · next ho =>
    refine h.modify (key_failedOn d o.now o.jitter) (fun r hr hid => ?_) (fun r _ hid => ?_)
      fun id hid => ?_
    · cases hsame r hr hid
      rw [hposts, if_pos rfl]
      exact hwritten _ (by rw [ho])
    · rw [hposts, if_neg fun heq => beq_eq_false_iff_ne.mp hid heq.symm]
    · rw [hposts, if_neg (hid d hd)]

/-- Another delivery is left alone. -/
theorem mem_deliver (hr : r ∈ w.store.deliveries) (hne : r.id ≠ d.id) :
    r ∈ (deliver w d o).store.deliveries := by
  unfold deliver Outcome.write
  split
  · exact mem_update_of_ne _ hr hne
  · exact mem_update_of_ne _ hr hne

/-- **A tick**: what is left of the selection is still stored as it was selected. -/
theorem Inv.deliverAll {xs : List (Selected × Outcome)} (h : Inv w)
    (hmem : ∀ x ∈ xs, x.1.1 ∈ w.store.deliveries ∧ x.1.1.status = .pending)
    (hnodup : (xs.map fun x => x.1.1.id).Nodup) : Inv (deliverAll w xs) := by
  induction xs generalizing w with
  | nil => exact h
  | cons x xs ih =>
    obtain ⟨hnot, hrest⟩ := List.nodup_cons.mp hnodup
    obtain ⟨hd, hpending⟩ := hmem x List.mem_cons_self
    refine ih (h.deliver hd hpending x.2) (fun y hy => ?_) hrest
    obtain ⟨hy₁, hy₂⟩ := hmem y (List.mem_cons_of_mem x hy)
    refine ⟨mem_deliver hy₁ fun heq => hnot ?_, hy₂⟩
    exact List.mem_map.mpr ⟨y, hy, heq⟩

theorem Inv.deliverPending {order : List Selected} {outcomes : List Outcome} (h : Inv w)
    (htick : deliverPending w now order outcomes = some w') : Inv w' := by
  obtain ⟨rows, hselect, htick⟩ := Option.bind_eq_some_iff.mp htick
  split at htick
  · next hlen =>
    cases htick
    refine h.deliverAll (fun x hx => ?_) ?_
    · exact mem_selectPending hselect (List.of_mem_zip hx).1
    · have hmap : (rows.zip outcomes).map (fun x => x.1.1.id) = rows.map fun x => x.1.id := by
        have hfst := List.map_fst_zip (Nat.le_of_eq hlen)
        calc (rows.zip outcomes).map (fun x => x.1.1.id)
            = ((rows.zip outcomes).map Prod.fst).map fun x => x.1.id := by rw [List.map_map]; rfl
          _ = rows.map fun x => x.1.id := by rw [hfst]
      rw [hmap]
      exact nodup_selectPending hselect
  · cases htick

/-- A retry or a replay: the row that it resets starts again. -/
theorem Inv.reset (h : Inv w) {p : Delivery → Bool} {f : Delivery → Delivery} {id : Nat}
    (hf : ∀ r, Keyed.key (f r) = Keyed.key r) (hid : ∀ r, p r = true → r.id = id)
    (hreset : ∀ r ∈ w.store.deliveries, p r = true → Accounted (f r) []) :
    Inv ⟨{ w.store with deliveries := w.store.deliveries.modify p f hf },
      w.history ++ resets w.store p id⟩ := by
  unfold resets
  split
  · next hany =>
    obtain ⟨r₀, hr₀, hp₀⟩ := List.any_eq_true.mp hany
    have hposts : ∀ i, postsOf (w.history ++ [.reset id]) i
        = if id = i then [] else postsOf w.history i := fun i => postsOf_append w.history _ i
    refine h.modify hf (fun r hr hp => ?_) (fun r hr hp => ?_) fun i hi => ?_
    · rw [hposts, if_pos (hid r hp).symm]
      exact hreset r hr hp
    · rw [hposts, if_neg]
      rintro rfl
      rw [Table.eq_of_conflict hr₀ hr (hid r₀ hp₀), hp] at hp₀
      cases hp₀
    · rw [hposts, if_neg fun heq => hi r₀ hr₀ ((hid r₀ hp₀).trans heq)]
  · next hnone =>
    refine h.modify hf (fun r hr hp => ?_) (fun r _ _ => ?_) fun i _ => ?_
    · exact absurd (List.any_eq_true.mpr ⟨r, hr, hp⟩) hnone
    · rw [List.append_nil]
    · rw [List.append_nil]

theorem Inv.insert (h : Inv w) (webhookId : Uuid) (eventType payload : String)
    (now : Timestamp) :
    Inv { w with store := insertDelivery w.store webhookId eventType payload now } where
  rows d hd := by
    rcases mem_insertDelivery.mp hd with hd | rfl
    · exact h.rows d hd
    · have hfree := h.unused w.store.deliveries.nextId fun d hd =>
        Nat.ne_of_lt (Table.lt_nextId hd)
      show Accounted _ (postsOf w.history w.store.deliveries.nextId)
      rw [hfree]
      exact accounted_newDelivery _ _ _ _ _
  unused id hid := h.unused id fun d hd => hid d (mem_insertDelivery.mpr (.inl hd))

/-- **Every step** accounts for its `POST`s. -/
theorem inv_step (h : Inv w) (hstep : system.step w a = some w') : Inv w' := by
  cases a with
  | tick now order outcomes => exact h.deliverPending hstep
  | retry merchantId deliveryId now =>
    cases hstep
    refine h.reset (key_retried now) (fun r hp => ?_) fun r hr hp => ?_
    · simp only [canRetry, Bool.and_eq_true, beq_iff_eq] at hp
      exact hp.1.2
    · refine accounted_reset rfl rfl ?_
      -- a dead row was not delivered
      have hd := h.rows r hr
      by_contra hsome
      have hdelivered := hd.deliveredAt.mpr hsome
      simp [canRetry, hdelivered] at hp
  | replay merchantId webhookId deliveryId now =>
    cases hstep
    refine h.reset (key_replayed now) (fun r hp => ?_) fun r _ _ => accounted_reset rfl rfl rfl
    simp only [canReplay, Bool.and_eq_true, beq_iff_eq] at hp
    exact hp.1.2
  | insert webhookId eventType payload now =>
    cases hstep
    exact h.insert webhookId eventType payload now
  | webhooks webhooks =>
    cases hstep
    exact ⟨h.rows, h.unused⟩

end

/-- No deliveries yet. -/
def start (webhooks : Table Hook) : World := ⟨{ webhooks }, []⟩

/-! ## A webhook with one delivery -/

/-- Webhook 5 of merchant 1. -/
def testHook : Hook where
  id := 5
  merchantId := 1
  events := ["invoice.paid"]
  active := true
  url := "https://example.com/hook"
  hashedSecret := "key"
  previousHashedSecret := none
  secretRotatedAt := none

def testHooks : Table Hook := ⟨[testHook], List.pairwise_singleton _ _⟩

/-- Its first delivery. -/
def firstDelivery : Delivery := newDelivery 5 "invoice.paid" "[]" 0 1

end Stargate.Webhooks
