import Stargate.Base.Sessions
import Stargate.Webhooks.Attempts

/-!
# Ticks that overlap

A tick does not claim the rows that it selects. Another tick, of this process or of another
one, may select and post them as well, and each `UPDATE` is computed from what its own tick
has selected.

- `Tick`, `program`: any number of ticks, statement by statement, beside the endpoints;
- `heldOnce`: the tick that selects a delivery is the only one that has it on its list;
- `delivered_stays`: then a delivery stays as it was recorded, and is not posted again;
- `delivered_overwritten`: with two ticks, it may not.
-/

namespace Stargate.Ticks

open Base Webhooks

/-! ## The statements -/

/-- Where a tick stands; `rest` are the selected rows that are still to be posted. -/
inductive Tick where
  /-- At the head of the loop. Without rows, the tick is over. -/
  | next (rest : List Selected)
  /-- The `POST` is under way. -/
  | posting (x : Selected) (rest : List Selected)
  /-- In the `catch`. -/
  | caught (x : Selected) (rest : List Selected)
  deriving DecidableEq

/-- The tables, and the deliveries whose `POST` was started, in order. -/
structure World where
  store : Store
  posts : List Nat
  deriving DecidableEq

inductive Input where
  /-- The query, with the order of its rows. -/
  | start (now : Timestamp) (order : List Selected)
  | post
  /-- A response arrives, and is recorded. -/
  | respond (code : Nat) (now : Timestamp) (jitter : Nat)
  /-- The request fails or runs out of time, or the `UPDATE` fails. -/
  | throw
  | recordError (now : Timestamp) (jitter : Nat)
  /-- The process dies, or the `UPDATE` in the `catch` fails. -/
  | crash
  deriving DecidableEq

/-- The endpoints, and the writers of events and webhooks. -/
inductive Request where
  | retry (merchantId : Uuid) (deliveryId : Nat) (now : Timestamp)
  | replay (merchantId webhookId : Uuid) (deliveryId : Nat) (now : Timestamp)
  | insert (webhookId : Uuid) (eventType payload : String) (now : Timestamp)
  | webhooks (hooks : Table Hook)

def Request.exec (store : Store) : Request → Store
  | .retry merchantId deliveryId now => Webhooks.retry store merchantId deliveryId now
  | .replay merchantId webhookId deliveryId now =>
    Webhooks.replay store merchantId webhookId deliveryId now
  | .insert webhookId eventType payload now => insertDelivery store webhookId eventType payload now
  | .webhooks hooks => { store with webhooks := hooks }

/-- Any number of ticks, beside the endpoints. -/
def program : Program World Tick Input Request where
  exec _
    | .start now order, w, .next [] =>
      (selectPending w.store now order).map fun rows => (w, .next rows)
    | .post, w, .next (x :: rest) => some ({ w with posts := w.posts ++ [x.1.id] }, .posting x rest)
    | .respond code now jitter, w, .posting x rest =>
      some ({ w with store := record w.store x.1 code now jitter }, .next rest)
    | .throw, w, .posting x rest => some (w, .caught x rest)
    | .recordError now jitter, w, .caught x rest =>
      some ({ w with store := recordError w.store x.1 now jitter }, .next rest)
    | .crash, w, _ => some (w, .next [])
    | _, _, _ => none
  env r w := some { w with store := r.exec w.store }

/-- No tick runs. -/
def idle (store : Store) (n : Nat) : Program.Sys World Tick n where
  db := ⟨store, []⟩
  calls _ := .next []

/-! ## A lone tick -/

/-- Statements of a tick that nothing interleaves with. -/
def Alone : World × Tick → World × Tick → Prop :=
  Relation.ReflTransGen fun s s' => ∃ i, program.exec [] i s.1 s.2 = some s'

/-- The statements of a lone tick write what `deliverPending` does. -/
theorem alone_deliverAll {xs : List (Selected × Outcome)} {w : World} {v : Webhooks.World}
    (hstore : v.store = w.store) : ∃ posts,
    Alone (w, .next (xs.map Prod.fst)) (⟨(deliverAll v xs).store, posts⟩, .next []) := by
  induction xs generalizing w v with
  | nil => exact ⟨w.posts, hstore ▸ .refl⟩
  | cons x xs ih =>
    obtain ⟨⟨d, h⟩, o⟩ := x
    have hposted : Alone (w, .next ((d, h) :: xs.map Prod.fst))
        ({ w with posts := w.posts ++ [d.id] }, .posting (d, h) (xs.map Prod.fst)) :=
      .single ⟨.post, rfl⟩
    have hwritten : Alone ({ w with posts := w.posts ++ [d.id] }, .posting (d, h) (xs.map Prod.fst))
        (⟨o.write w.store d, w.posts ++ [d.id]⟩, .next (xs.map Prod.fst)) := by
      unfold Outcome.write
      split
      · next code ho => exact .single ⟨.respond code o.now o.jitter, rfl⟩
      · next ho =>
        exact .tail (.single ⟨.throw, rfl⟩) ⟨.recordError o.now o.jitter, rfl⟩
    obtain ⟨posts, hrest⟩ := ih (w := ⟨o.write w.store d, w.posts ++ [d.id]⟩)
      (v := deliver v d o) (by rw [← hstore]; rfl)
    exact ⟨posts, (hposted.trans hwritten).trans hrest⟩

/-! ## What a step can do -/

/-- The deliveries that are on the list of a tick. -/
def Tick.held : Tick → List Nat
  | .next rest => rest.map fun x => x.1.id
  | .posting x rest | .caught x rest => x.1.id :: rest.map fun x => x.1.id

section Moves

variable {others : List Tick} {i : Input} {w w' : World} {c c' : Tick} {r : Request} {id : Nat}

/-- The steps of a tick. -/
inductive Moves : Input → World → Tick → World → Tick → Prop
  | started {now : Timestamp} {order rows : List Selected} {w : World}
      (hselect : selectPending w.store now order = some rows) :
      Moves (.start now order) w (.next []) w (.next rows)
  | posted {x : Selected} {rest : List Selected} {w : World} :
      Moves .post w (.next (x :: rest)) { w with posts := w.posts ++ [x.1.id] } (.posting x rest)
  | recorded {i : Input} {x : Selected} {rest : List Selected} {w : World} {c : Tick}
      {f : Delivery → Delivery} (hf : ∀ r, Keyed.key (f r) = Keyed.key r)
      (hheld : c.held = x.1.id :: rest.map fun x => x.1.id) :
      Moves i w c { w with store := w.store.update x.1.id f hf } (.next rest)
  | moved {i : Input} {w : World} {c c' : Tick} (hheld : c'.held.Sublist c.held) :
      Moves i w c w c'

theorem moves_of_exec (h : program.exec others i w c = some (w', c')) : Moves i w c w' c' := by
  cases i with
  | start now order =>
    cases c with
    | next rest =>
      cases rest with
      | nil =>
        obtain ⟨rows, hselect, heq⟩ := Option.map_eq_some_iff.mp h
        cases heq
        exact .started hselect
      | cons x rest => cases h
    | _ => cases h
  | post =>
    cases c with
    | next rest =>
      cases rest with
      | nil => cases h
      | cons x rest =>
        cases h
        exact .posted
    | _ => cases h
  | respond code now jitter =>
    cases c with
    | posting x rest =>
      cases h
      exact .recorded (key_answered x.1 code now jitter) rfl
    | _ => cases h
  | throw =>
    cases c with
    | posting x rest =>
      cases h
      exact .moved (.refl _)
    | _ => cases h
  | recordError now jitter =>
    cases c with
    | caught x rest =>
      cases h
      exact .recorded (key_failedOn x.1 now jitter) rfl
    | _ => cases h
  | crash =>
    cases h
    exact .moved (List.nil_sublist _)

/-- The request is not a retry or a replay of the delivery. -/
def Request.spares (id : Nat) : Request → Bool
  | .retry _ deliveryId _ => deliveryId != id
  | .replay _ _ deliveryId _ => deliveryId != id
  | _ => true

/-- A delivery that is spared stays as it is. -/
theorem mem_request {d : Delivery} (hspares : r.spares d.id = true)
    (hd : d ∈ w.store.deliveries) : d ∈ (r.exec w.store).deliveries := by
  cases r with
  | retry merchantId deliveryId now =>
    refine (Table.mem_modify (key_retried now)).mpr ⟨d, hd, if_neg fun hp => ?_⟩
    simp only [canRetry, Bool.and_eq_true, beq_iff_eq] at hp
    exact bne_iff_ne.mp hspares hp.1.2.symm
  | replay merchantId webhookId deliveryId now =>
    refine (Table.mem_modify (key_replayed now)).mpr ⟨d, hd, if_neg fun hp => ?_⟩
    simp only [canReplay, Bool.and_eq_true, beq_iff_eq] at hp
    exact bne_iff_ne.mp hspares hp.1.2.symm
  | insert webhookId eventType payload now => exact mem_insertDelivery.mpr (.inl hd)
  | webhooks hooks => exact hd

end Moves

/-! ## The condition -/

/-- The tick that selects the delivery is the only one that has it on its list; and nobody
retries or replays it. -/
def heldOnce (id : Nat) : Program.Guard World Tick Input Request where
  call others i w _ :=
    match i with
    | .start now order => ∀ rows ∈ selectPending w.store now order,
        id ∈ rows.map (fun x => x.1.id) → ∀ o ∈ others, id ∉ o.held
    | _ => True
  env _ r _ := r.spares id = true

/-- Nobody retries or replays the delivery. -/
def spared (id : Nat) : Program.Guard World Tick Input Request where
  call _ _ _ _ := True
  env _ r _ := r.spares id = true

instance decidableHeldOnceCall (id : Nat) (cs : List Tick) (i : Input) (w : World) (c : Tick) :
    Decidable ((heldOnce id).call cs i w c) :=
  match i with
  | .start now order => inferInstanceAs (Decidable (∀ rows ∈ selectPending w.store now order,
      id ∈ rows.map (fun x => x.1.id) → ∀ o ∈ cs, id ∉ o.held))
  | .post | .respond _ _ _ | .throw | .recordError _ _ | .crash => isTrue trivial

instance decidableHeldOnceEnv (id : Nat) (cs : List Tick) (r : Request) (w : World) :
    Decidable ((heldOnce id).env cs r w) := inferInstanceAs (Decidable (_ = true))

section Runs

variable {others : List Tick} {i : Input} {w w' : World} {c c' : Tick} {id : Nat} {d : Delivery}

/-- The delivery is pending. -/
def Pending (id : Nat) (w : World) : Prop :=
  ∃ d ∈ w.store.deliveries, d.id = id ∧ d.status = .pending

/-- A tick has the delivery on its list at most once, and while it is pending. -/
structure Holds (id : Nat) (w : World) (c : Tick) : Prop where
  once : c.held.count id ≤ 1
  pending : id ∈ c.held → Pending id w

theorem Pending.update (h : Pending id w) {x : Nat} {f : Delivery → Delivery}
    (hf : ∀ r, Keyed.key (f r) = Keyed.key r) (hne : x ≠ id) :
    Pending id { w with store := w.store.update x f hf } := by
  obtain ⟨d, hd, hid, hpending⟩ := h
  exact ⟨d, mem_update_of_ne hf hd fun heq => hne (heq.symm.trans hid), hid, hpending⟩

theorem holds_moves (h : Moves i w c w' c') (hc : Holds id w c) : Holds id w' c' := by
  cases h with
  | @started now order rows w hselect =>
    refine ⟨List.nodup_iff_count_le_one.mp (nodup_selectPending hselect) id, fun hmem => ?_⟩
    obtain ⟨x, hx, hid⟩ := List.mem_map.mp hmem
    obtain ⟨hd, hpending⟩ := mem_selectPending hselect hx
    exact ⟨x.1, hd, hid, hpending⟩
  | posted => exact ⟨hc.once, hc.pending⟩
  | @recorded i x rest w c f hf hheld =>
    have honce := hc.once
    have hpending := hc.pending
    rw [hheld] at honce hpending
    by_cases hx : x.1.id = id
    · -- it was there once, and is done
      rw [hx, List.count_cons_self] at honce
      have hzero : (Tick.next rest).held.count id = 0 :=
        Nat.le_zero.mp (Nat.le_of_succ_le_succ honce)
      exact ⟨hzero ▸ Nat.zero_le 1, fun hmem => absurd hmem (List.count_eq_zero.mp hzero)⟩
    · rw [List.count_cons_of_ne hx] at honce
      exact ⟨honce, fun hmem => (hpending (List.mem_cons_of_mem _ hmem)).update hf hx⟩
  | moved hheld =>
    exact ⟨Nat.le_trans (hheld.count_le id) hc.once, fun hmem => hc.pending (hheld.subset hmem)⟩

/-- A step of another tick leaves a delivery alone that it does not have on its list. -/
theorem Holds.other {o : Tick} (h : Moves i w c w' c') (ho : Holds id w o)
    (hapart : id ∈ c.held → id ∉ o.held) : Holds id w' o := by
  cases h with
  | @recorded i x rest w c f hf hheld =>
    refine ⟨ho.once, fun hmem => (ho.pending hmem).update hf fun hx => ?_⟩
    refine hapart ?_ hmem
    rw [hheld, hx]
    exact List.mem_cons_self
  | _ => exact ⟨ho.once, ho.pending⟩

/-- **The lists of two ticks stay apart.** -/
theorem holds_local (id : Nat) :
    program.Local (heldOnce id) (fun _ => True) (Holds id)
      fun a b => id ∈ a.held → id ∉ b.held where
  symm a b h hb ha := h ha hb
  seq := by
    intro cs i w c w' c' hexec _ _ hc _
    exact ⟨trivial, holds_moves (moves_of_exec hexec) hc⟩
  free := by
    intro cs i w c w' c' hexec hguard _ hc o hmem ho hapart
    have hmoves := moves_of_exec hexec
    refine ⟨ho.other hmoves hapart, fun hid => ?_⟩
    cases hmoves with
    | @started now order rows w hselect => exact hguard rows hselect hid o hmem
    | posted => exact hapart hid
    | recorded hf hheld =>
      refine hapart ?_
      rw [hheld]
      exact List.mem_cons_of_mem _ hid
    | moved hheld => exact hapart (hheld.subset hid)
  env := by
    intro cs r w w' henv hspares _ hcs
    cases henv
    refine ⟨trivial, fun o ho => ⟨(hcs o ho).once, fun hmem => ?_⟩⟩
    obtain ⟨d, hd, rfl, hpending⟩ := (hcs o ho).pending hmem
    exact ⟨d, mem_request hspares hd, rfl, hpending⟩

/-- **A recorded delivery is left alone** where no tick has it on its list. -/
theorem recorded_local {m : Nat} (hdelivered : d.status = .delivered) :
    program.Local (spared d.id) (fun w => d ∈ w.store.deliveries ∧ w.posts.count d.id = m)
      (fun _ c => d.id ∉ c.held) fun _ _ => True where
  symm _ _ _ := trivial
  seq := by
    intro cs i w c w' c' hexec _ hw hc _
    cases moves_of_exec hexec with
    | started hselect =>
      refine ⟨hw, fun hmem => ?_⟩
      -- what is selected is pending
      obtain ⟨x, hx, hid⟩ := List.mem_map.mp hmem
      obtain ⟨hd, hpending⟩ := mem_selectPending hselect hx
      rw [Table.eq_of_conflict hd hw.1 hid, hdelivered] at hpending
      cases hpending
    | @posted x rest w =>
      refine ⟨⟨hw.1, ?_⟩, hc⟩
      have hne : d.id ∉ [x.1.id] := fun hmem => hc (by
        rw [List.mem_singleton.mp hmem]
        exact List.mem_cons_self)
      rw [List.count_append, hw.2, List.count_eq_zero.mpr hne]
      rfl
    | @recorded i x rest w c f hf hheld =>
      rw [hheld] at hc
      obtain ⟨hne, hrest⟩ := List.ne_and_not_mem_of_not_mem_cons hc
      exact ⟨⟨mem_update_of_ne hf hw.1 hne, hw.2⟩, hrest⟩
    | moved hheld => exact ⟨hw, fun hmem => hc (hheld.subset hmem)⟩
  free := by
    intro cs i w c w' c' _ _ _ _ o _ ho _
    exact ⟨ho, trivial⟩
  env := by
    intro cs r w w' henv hspares hw hcs
    cases henv
    exact ⟨⟨mem_request hspares hw.1, hw.2⟩, hcs⟩

/-- **A delivered webhook stays delivered.** In every run in which the tick that selects the
delivery is the only one that has it on its list, a delivery that is recorded as delivered
keeps its row, whatever happens later, and is not posted again. -/
theorem delivered_stays {store : Store} {n : Nat} {t t' : Program.Sys World Tick n}
    {as as' : List (Program.Label Input Request n)}
    (hguard : (program.interleave n).Guarded (heldOnce d.id).admits (idle store n) as)
    (hrun : (program.interleave n).run (idle store n) as = some t)
    (hspared : (program.interleave n).Guarded (spared d.id).admits t as')
    (hrun' : (program.interleave n).run t as' = some t')
    (hd : d ∈ t.db.store.deliveries) (hdelivered : d.status = .delivered) :
    d ∈ t'.db.store.deliveries ∧ t'.db.posts.count d.id = t.db.posts.count d.id := by
  have hidle : Program.Inv (fun _ => True) (Holds d.id)
      (fun a b => d.id ∈ a.held → d.id ∉ b.held) (idle store n) :=
    ⟨trivial, fun _ => ⟨Nat.zero_le 1, nofun⟩, fun _ _ _ => nofun⟩
  have hholds := (holds_local d.id).inv_of_guarded_run hidle hguard hrun
  have hfree : ∀ k, d.id ∉ (t.calls k).held := by
    intro k hmem
    obtain ⟨d', hd', hid, hpending⟩ := (hholds.calls k).pending hmem
    rw [Table.eq_of_conflict hd' hd hid, hdelivered] at hpending
    cases hpending
  have hnow : Program.Inv (fun w => d ∈ w.store.deliveries ∧
      w.posts.count d.id = t.db.posts.count d.id) (fun _ c => d.id ∉ c.held)
      (fun _ _ => True) t := ⟨⟨hd, rfl⟩, hfree, fun _ _ _ => trivial⟩
  exact ((recorded_local hdelivered).inv_of_guarded_run hnow hspared hrun').db

end Runs

/-! ## Two ticks with one delivery -/

/-- The first delivery of webhook 5 is due. -/
def dueStore : Store where
  webhooks := testHooks
  deliveries := ⟨[firstDelivery], List.pairwise_singleton _ _⟩

def selects (k : Fin 2) : Program.Label Input Request 2 :=
  .call k (.start 0 [(firstDelivery, testHook)])

/-- The endpoint answers 200. -/
def succeeds (k : Fin 2) : List (Program.Label Input Request 2) :=
  [.call k .post, .call k (.respond 200 0 0)]

/-- The endpoint answers 500. -/
def fails (k : Fin 2) : List (Program.Label Input Request 2) :=
  [.call k .post, .call k (.respond 500 0 0)]

/-- Two ticks select the delivery. The first one delivers it. The second one posts it again,
and is told that it failed. -/
theorem delivered_overwritten : ∃ t t' : Program.Sys World Tick 2,
    (program.interleave 2).run (idle dueStore 2) (selects 0 :: selects 1 :: succeeds 0) = some t ∧
    (program.interleave 2).run t (fails 1) = some t' ∧
    (∃ d ∈ t.db.store.deliveries, d.id = 1 ∧ d.status = .delivered) ∧
    (∃ d ∈ t'.db.store.deliveries, d.id = 1 ∧ d.status = .pending ∧ d.deliveredAt = none) ∧
    t.db.posts = [1] ∧ t'.db.posts = [1, 1] := by
  obtain ⟨t, hrun, hd, hposts, hnext⟩ := (program.interleave 2).exists_of_leadsTo
    (fun t => (∃ d ∈ t.db.store.deliveries.rows, d.id = 1 ∧ d.status = .delivered) ∧
      t.db.posts = [1] ∧ (program.interleave 2).leadsTo
        (fun t' => (∃ d ∈ t'.db.store.deliveries.rows, d.id = 1 ∧ d.status = .pending ∧
          d.deliveredAt = none) ∧ t'.db.posts = [1, 1]) t (fails 1) = true)
    (idle dueStore 2) (selects 0 :: selects 1 :: succeeds 0) (by decide +kernel)
  obtain ⟨t', hrun', hd', hposts'⟩ := (program.interleave 2).exists_of_leadsTo _ t (fails 1) hnext
  exact ⟨t, t', hrun, hrun', hd, hd', hposts, hposts'⟩

/-- A tick delivers it, and a second one finds nothing to do. -/
theorem delivered_stays_in_turn : ∃ t t' : Program.Sys World Tick 2, ∃ d,
    (program.interleave 2).run (idle dueStore 2) (selects 0 :: succeeds 0) = some t ∧
    (program.interleave 2).run t [.call 1 (.start 0 [])] = some t' ∧
    d ∈ t.db.store.deliveries ∧ d.status = .delivered ∧ d ∈ t'.db.store.deliveries := by
  obtain ⟨t, hrun, ⟨d, hd, hid, hdelivered⟩, hnext⟩ := (program.interleave 2).exists_of_leadsTo
    (fun t => (∃ d ∈ t.db.store.deliveries.rows, d.id = 1 ∧ d.status = .delivered) ∧
      (program.interleave 2).leadsTo (fun t' => t'.db.posts = [1]) t [.call 1 (.start 0 [])] = true)
    (idle dueStore 2) (selects 0 :: succeeds 0) (by decide +kernel)
  obtain ⟨t', hrun', -⟩ :=
    (program.interleave 2).exists_of_leadsTo _ t [.call 1 (.start 0 [])] hnext
  have hguard : (program.interleave 2).Guarded (heldOnce d.id).admits (idle dueStore 2)
      (selects 0 :: succeeds 0) := by
    rw [hid]
    decide +kernel
  have hspared : (program.interleave 2).Guarded (spared d.id).admits t
      [.call 1 (.start 0 [])] := by
    refine (program.interleave 2).guarded_of_forall fun s a ha => ?_
    cases List.mem_singleton.mp ha
    trivial
  exact ⟨t, t', d, hrun, hrun', hd, hdelivered,
    (delivered_stays hguard hrun hspared hrun' hd hdelivered).1⟩

end Stargate.Ticks
