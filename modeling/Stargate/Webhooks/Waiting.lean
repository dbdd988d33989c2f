import Stargate.Base.Potential
import Stargate.Webhooks.Attempts

/-!
# How long a delivery waits

A tick takes the fifty oldest deliveries that are due, also those that have failed before. So a
delivery may be passed over, but not for long: whoever is taken in its place is older, and is
taken five times at most before it is dead, unless a merchant retries or replays it.

- `passesOver`: the ticks that leave a delivery behind which is due;
- `served`: the attempts of the older deliveries, with five for each reset;
- `passed_over_le`: a tenth of the older deliveries and resets bounds those ticks.
-/

namespace Stargate.Webhooks

open Base

/-- The tick leaves a delivery behind which is due; with its time. -/
def passesOver (id : Nat) (w : World) : Label → List Timestamp
  | .tick now order _ =>
    if id ∈ (due w.store now).map (fun x => x.1.id) ∧ id ∉ (order.take 50).map (fun x => x.1.id)
    then [now] else []
  | _ => []

/-- Another delivery that `ORDER BY d.created_at` may put in front. -/
def older (d x : Delivery) : Bool := x.id != d.id && decide (x.createdAt ≤ d.createdAt)

/-- A retry or a replay that had a row. -/
def Event.isReset : Event → Bool
  | .reset _ => true
  | .posted _ _ => false

/-- The attempts of the older deliveries, and five for each reset. -/
def served (d : Delivery) (w : World) : Int :=
  w.store.deliveries.sumOf (older d) (fun x => x.attempts) + 5 * w.history.countP Event.isReset

section Steps

variable {d x y : Delivery} {w w' : World} {o : Outcome} {now : Timestamp}
  {order rows : List Selected} {outcomes : List Outcome}

/-- The `UPDATE` after a `POST` counts the attempt. -/
theorem deliver_update (w : World) (x : Delivery) (o : Outcome) :
    ∃ f, ∃ hf : ∀ r, Keyed.key (f r) = Keyed.key r,
      (deliver w x o).store = w.store.update x.id f hf ∧ (f x).attempts = x.attempts + 1 ∧
        ∀ r, (f r).createdAt = r.createdAt := by
  unfold deliver Outcome.write
  cases o.answer with
  | status code =>
    exact ⟨_, key_answered x code o.now o.jitter, rfl, rfl, fun _ => rfl⟩
  | error => exact ⟨_, key_failedOn x o.now o.jitter, rfl, rfl, fun _ => rfl⟩

theorem older_congr (hid : y.id = x.id) (hcreated : y.createdAt = x.createdAt) :
    older d y = older d x := by
  rw [older, older, hid, hcreated]

/-- **A `POST`** of an older delivery counts once. -/
theorem served_deliver (hx : x ∈ w.store.deliveries) :
    served d (deliver w x o) = served d w + if older d x then 1 else 0 := by
  obtain ⟨f, hf, hstore, hattempts, hcreated⟩ := deliver_update w x o
  have hone := Table.sumOf_modify_one (p := older d) (u := fun r => r.id == x.id)
    (f := fun r => (r.attempts : Int)) hf (fun _ => rfl) hx fun r hr =>
      ⟨fun hid => Table.eq_of_conflict hr hx (beq_iff_eq.mp hid), fun heq => by simp [heq]⟩
  have hsame : older d (f x) = older d x := older_congr (hf x) (hcreated x)
  have hresets : (deliver w x o).history.countP Event.isReset
      = w.history.countP Event.isReset := by
    rw [deliver, List.countP_append]
    rfl
  rw [served, hstore, hresets, served, Store.update]
  simp only [hsame, hattempts] at hone
  cases hold : older d x
  · simp only [hold, Bool.false_eq_true, if_false] at hone ⊢
    omega
  · simp only [hold, if_true, Nat.cast_add, Nat.cast_one] at hone ⊢
    omega

/-- **The `POST`s of a tick.** -/
theorem served_deliverAll {xs : List (Selected × Outcome)}
    (hmem : ∀ x ∈ xs, x.1.1 ∈ w.store.deliveries) (hnodup : (xs.map fun x => x.1.1.id).Nodup) :
    served d (deliverAll w xs) = served d w + xs.countP fun x => older d x.1.1 := by
  induction xs generalizing w with
  | nil => simp [deliverAll]
  | cons x xs ih =>
    obtain ⟨hnot, hrest⟩ := List.nodup_cons.mp hnodup
    have hlater : ∀ y ∈ xs, y.1.1 ∈ (deliver w x.1.1 x.2).store.deliveries := fun y hy =>
      mem_deliver (hmem y (List.mem_cons_of_mem x hy)) fun heq =>
        hnot (List.mem_map.mpr ⟨y, hy, heq⟩)
    rw [deliverAll, ih hlater hrest, served_deliver (hmem x List.mem_cons_self), List.countP_cons,
      Nat.cast_add]
    cases older d x.1.1 with
    | false => simp
    | true =>
      simp only [if_true, Nat.cast_one]
      ring

theorem served_deliverPending (h : deliverPending w now order outcomes = some w') :
    served d w' = served d w + (order.take 50).countP fun x => older d x.1 := by
  obtain ⟨rows, hselect, h⟩ := Option.bind_eq_some_iff.mp h
  split at h
  · next hlen =>
    cases h
    have hfst : (rows.zip outcomes).map Prod.fst = rows := List.map_fst_zip (Nat.le_of_eq hlen)
    have hids : (rows.zip outcomes).map (fun x => x.1.1.id) = rows.map fun x => x.1.id := by
      rw [← hfst, List.map_map, hfst]
      rfl
    rw [served_deliverAll (fun x hx => (mem_selectPending hselect (List.of_mem_zip hx).1).1)
      (hids ▸ nodup_selectPending hselect)]
    have hcount : (rows.zip outcomes).countP (fun x => older d x.1.1)
        = rows.countP fun x => older d x.1 := by
      rw [← hfst, List.countP_map, hfst]
      rfl
    rw [hcount]
    unfold selectPending at hselect
    split at hselect
    · cases hselect
      rfl
    · cases hselect
  · cases h

/-- **Who is passed over** leaves the room to fifty older ones. -/
theorem countP_older (hd : d ∈ w.store.deliveries)
    (h : deliverPending w now order outcomes = some w')
    (hdue : d.id ∈ (due w.store now).map (fun x => x.1.id))
    (hnot : d.id ∉ (order.take 50).map (fun x => x.1.id)) :
    (order.take 50).countP (fun x => older d x.1) = 50 := by
  obtain ⟨rows, hselect, -⟩ := Option.bind_eq_some_iff.mp h
  unfold selectPending at hselect
  split at hselect
  · next hok =>
    obtain ⟨hperm, hsorted⟩ := hok
    obtain ⟨x, hx, hid⟩ := List.mem_map.mp hdue
    have hrow : x.1 = d := by
      obtain ⟨r, hr, hsome⟩ := List.mem_filterMap.mp hx
      rw [(select?_eq_some hsome).1] at hid ⊢
      exact Table.eq_of_conflict hr hd hid
    -- it stands behind the first fifty
    have hbehind : x ∈ order.drop 50 := by
      have hmem := hperm.mem_iff.mpr hx
      rw [← List.take_append_drop 50 order] at hmem
      refine (List.mem_append.mp hmem).resolve_left fun hfront => hnot ?_
      exact List.mem_map.mpr ⟨x, hfront, hid⟩
    have hlong : 50 ≤ order.length := by
      have hpos := List.length_pos_of_mem hbehind
      rw [List.length_drop] at hpos
      omega
    rw [← List.take_append_drop 50 order, List.pairwise_append] at hsorted
    have hall : ∀ y ∈ order.take 50, older d y.1 = true := by
      intro y hy
      have hle := hsorted.2.2 y hy x hbehind
      rw [hrow] at hle
      have hne : y.1.id ≠ d.id := fun heq => hnot (List.mem_map.mpr ⟨y, hy, heq⟩)
      simp [older, hne, hle]
    rw [List.countP_eq_length.mpr hall, List.length_take, Nat.min_eq_left hlong]
  · cases hselect

/-- A reset takes five attempts at most, and is one more. -/
theorem served_reset (h : Inv w) {p : Delivery → Bool} {f : Delivery → Delivery} {id : Nat}
    (hf : ∀ r, Keyed.key (f r) = Keyed.key r) (hid : ∀ r, p r = true → r.id = id) :
    served d w ≤ served d
      ⟨{ w.store with deliveries := w.store.deliveries.modify p f hf },
        w.history ++ resets w.store p id⟩ := by
  unfold resets
  split
  · next hany =>
    obtain ⟨x, hx, hp⟩ := List.any_eq_true.mp hany
    have hone := Table.sumOf_modify_one (p := older d) (u := p)
      (f := fun r => (r.attempts : Int)) hf (fun _ => rfl) hx fun r hr =>
        ⟨fun hr' => Table.eq_of_conflict hr hx ((hid r hr').trans (hid x hp).symm),
          fun heq => heq ▸ hp⟩
    have hacc := h.rows x hx
    have hfive : x.attempts ≤ 5 := hacc.attempts.trans_le hacc.atMost
    simp only [served, List.countP_append, List.countP_singleton, Event.isReset, if_true,
      Nat.cast_add, Nat.cast_one]
    split at hone <;> split at hone <;> omega
  · next hnone =>
    have hsame : w.store.deliveries.modify p f hf = w.store.deliveries := by
      refine Table.ext ((List.map_congr_left fun r hr => ?_).trans (List.map_id _))
      exact if_neg fun hp => hnone (List.any_eq_true.mpr ⟨r, hr, hp⟩)
    rw [hsame, List.append_nil]

/-- An `UPDATE` leaves ids and times of creation alone. -/
theorem created_modify {t : Table Delivery} {p : Delivery → Bool} {f : Delivery → Delivery}
    (hf : ∀ r, Keyed.key (f r) = Keyed.key r) (hcreated : ∀ r, (f r).createdAt = r.createdAt)
    (hx : x ∈ t) : ∃ y ∈ t.modify p f hf, y.id = x.id ∧ y.createdAt = x.createdAt := by
  refine ⟨_, (Table.mem_modify hf).mpr ⟨x, hx, rfl⟩, ?_⟩
  split
  · exact ⟨hf x, hcreated x⟩
  · exact ⟨rfl, rfl⟩

theorem created_deliverAll {xs : List (Selected × Outcome)} (hx : x ∈ w.store.deliveries) :
    ∃ y ∈ (deliverAll w xs).store.deliveries, y.id = x.id ∧ y.createdAt = x.createdAt := by
  induction xs generalizing w x with
  | nil => exact ⟨x, hx, rfl, rfl⟩
  | cons z xs ih =>
    obtain ⟨f, hf, hstore, -, hcreated⟩ := deliver_update w z.1.1 z.2
    obtain ⟨y, hy, hid, htime⟩ := created_modify (p := fun r => r.id == z.1.1.id) hf hcreated hx
    obtain ⟨y', hy', hid', htime'⟩ := ih (w := deliver w z.1.1 z.2) (by rw [hstore]; exact hy)
    exact ⟨y', hy', hid'.trans hid, htime'.trans htime⟩

theorem created_step {a : Label} (hx : x ∈ w.store.deliveries)
    (hstep : system.step w a = some w') :
    ∃ y ∈ w'.store.deliveries, y.id = x.id ∧ y.createdAt = x.createdAt := by
  cases a with
  | tick now order outcomes =>
    obtain ⟨rows, -, htick⟩ := Option.bind_eq_some_iff.mp hstep
    split at htick <;> cases htick
    exact created_deliverAll hx
  | retry merchantId deliveryId now =>
    cases hstep
    exact created_modify (key_retried now) (fun _ => rfl) hx
  | replay merchantId webhookId deliveryId now =>
    cases hstep
    exact created_modify (key_replayed now) (fun _ => rfl) hx
  | insert webhookId eventType payload now =>
    cases hstep
    exact ⟨x, mem_insertDelivery.mpr (.inl hx), rfl, rfl⟩
  | webhooks webhooks =>
    cases hstep
    exact ⟨x, hx, rfl, rfl⟩

/-- A row that is stored in the end was created as it is then. -/
theorem created_of_run {steps : List Label} (hrun : system.run w steps = some w')
    (hd : d ∈ w'.store.deliveries) (hx : x ∈ w.store.deliveries) (hid : x.id = d.id) :
    x.createdAt = d.createdAt := by
  obtain ⟨y, hy, hyid, hcreated⟩ := system.inv_of_run
    (I := fun u => ∃ y ∈ u.store.deliveries, y.id = x.id ∧ y.createdAt = x.createdAt)
    (fun u a u' ⟨y, hy, hyid, hcreated⟩ hs => by
      obtain ⟨z, hz, hzid, hzcreated⟩ := created_step hy hs
      exact ⟨z, hz, hzid.trans hyid, hzcreated.trans hcreated⟩) ⟨x, hx, rfl, rfl⟩ hrun
  rw [← hcreated, Table.eq_of_conflict hy hd (hyid.trans hid)]

/-- **Each step** counts for what it serves before the delivery. -/
theorem served_step {a : Label} {last : World} (h : Inv w) (hstep : system.step w a = some w')
    (hd : d ∈ last.store.deliveries) (hlast : ∃ rest, system.run w' rest = some last) :
    served d w + 50 * (passesOver d.id w a).length ≤ served d w' := by
  obtain ⟨rest, hrest⟩ := hlast
  cases a with
  | tick now order outcomes =>
    rw [served_deliverPending hstep, passesOver]
    split
    · next hpassed =>
      obtain ⟨hdue, hnot⟩ := hpassed
      obtain ⟨x, hx, hid⟩ := List.mem_map.mp hdue
      obtain ⟨r, hr, hsome⟩ := List.mem_filterMap.mp hx
      rw [(select?_eq_some hsome).1] at hid
      have hcreated := created_of_run (system.run_cons.mpr ⟨w', hstep, hrest⟩) hd hr hid
      have hsame : older r = older d := by
        funext y
        rw [older, older, hid, hcreated]
      have hfifty := countP_older hr hstep (hid ▸ hdue) (hid ▸ hnot)
      rw [hsame] at hfifty
      rw [hfifty]
      exact Int.le_refl _
    · simp
  | retry merchantId deliveryId now =>
    cases hstep
    simp only [passesOver, List.length_nil, Nat.cast_zero, mul_zero, add_zero]
    refine served_reset h (key_retried now) fun r hp => ?_
    simp only [canRetry, Bool.and_eq_true, beq_iff_eq] at hp
    exact hp.1.2
  | replay merchantId webhookId deliveryId now =>
    cases hstep
    simp only [passesOver, List.length_nil, Nat.cast_zero, mul_zero, add_zero]
    refine served_reset h (key_replayed now) fun r hp => ?_
    simp only [canReplay, Bool.and_eq_true, beq_iff_eq] at hp
    exact hp.1.2
  | insert webhookId eventType payload now =>
    cases hstep
    -- a new delivery has no attempts
    simp [passesOver, served, insertDelivery, Table.sumOf_append, newDelivery]
  | webhooks webhooks =>
    cases hstep
    simp [passesOver, served]

/-- What has been served is bounded. -/
theorem served_le (h : Inv w) : served d w ≤ 5 * w.store.deliveries.rows.countP (older d)
    + 5 * w.history.countP Event.isReset := by
  have hrows : ∀ l : List Delivery, (∀ x ∈ l, x ∈ w.store.deliveries) →
      ((l.filter (older d)).map fun x => (x.attempts : Int)).sum ≤ 5 * l.countP (older d) := by
    intro l
    induction l with
    | nil => intro _; simp
    | cons x l ih =>
      intro hmem
      obtain ⟨hx, hl⟩ := List.forall_mem_cons.mp hmem
      have hacc := h.rows x hx
      have hfive : x.attempts ≤ 5 := hacc.attempts.trans_le hacc.atMost
      have := ih hl
      cases hold : older d x <;> simp [hold] <;> omega
  have := hrows w.store.deliveries.rows fun _ => id
  rw [served, Table.sumOf]
  omega

/-- **No delivery starves**: in every run, ten times the ticks that leave a delivery behind while
it is due are no more than the deliveries that are as old and the retries and replays of the run,
whatever the endpoints answer. -/
theorem passed_over_le {webhooks : Table Hook} {steps : List Label}
    (hrun : system.run (start webhooks) steps = some w) (hd : d ∈ w.store.deliveries) :
    10 * (system.outputs (passesOver d.id) (start webhooks) steps).length
      ≤ w.store.deliveries.rows.countP (older d) + w.history.countP Event.isReset := by
  have hinit : Inv (start webhooks) := ⟨nofun, fun _ _ => rfl⟩
  have hinv := system.inv_of_run (I := Inv) (fun _ _ _ => inv_step) hinit hrun
  have hgain := system.mul_length_outputs_le (I := Inv) (Φ := served d) (f := passesOver d.id)
    (fun _ _ _ => inv_step) (fun _ _ _ h hs hlast => served_step h hs hd hlast) hinit hrun
  have hzero : served d (start webhooks) = 0 := rfl
  rw [hzero] at hgain
  have hbound := hgain.trans (served_le hinv)
  omega

end Steps

/-- Fifty-one deliveries, a second apart. -/
def backlog : List Delivery :=
  (List.range 51).map fun k => newDelivery 5 "invoice.paid" "[]" (1000000 * k) (k + 1)

/-- They are queued, and a tick finds an endpoint that answers 500. -/
def busyMinute : List Label :=
  (List.range 51).map (fun k => .insert 5 "invoice.paid" "[]" (1000000 * k)) ++
    [.tick 60000000 (backlog.map fun d => (d, testHook))
      (List.replicate 50 ⟨.status 500, 60000000, 0⟩)]

theorem passed_over_le_busyMinute : ∃ w, system.run (start testHooks) busyMinute = some w ∧
    ∃ d ∈ w.store.deliveries, d.id = 51 ∧
      (system.outputs (passesOver 51) (start testHooks) busyMinute).length = 1 ∧
      10 * (system.outputs (passesOver d.id) (start testHooks) busyMinute).length
        ≤ w.store.deliveries.rows.countP (older d) + w.history.countP Event.isReset := by
  obtain ⟨w, hrun, d, hd, hid⟩ := system.exists_of_leadsTo
    (fun w => ∃ d ∈ w.store.deliveries.rows, d.id = 51) (start testHooks) busyMinute
    (by decide +kernel)
  exact ⟨w, hrun, d, hd, hid, by decide +kernel, passed_over_le hrun hd⟩

end Stargate.Webhooks
