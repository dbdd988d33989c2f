import Stargate.Webhooks.OverlappingTicks

/-!
# The attempts of a delivery, statement by statement

One tick runs at a time, but the endpoints do not wait for it: a retry or a replay may come
between the query of a tick, a `POST` and its `UPDATE`, which is computed from what the query
has returned.

- `happens`: what a step adds to the history of the deliveries;
- `uncrossed`: no delivery is reset that the tick has selected and not yet recorded;
- `accounted_of_guarded_run`: then in every reachable state every delivery is accounted for;
- `replay_crossed`: with one such replay, a delivery is dead after a single `POST`.

The invariant is `Attended`: what the tick has on its list is stored as it was selected.
-/

namespace Stargate.Ticks

open Base Webhooks

/-! ## Histories -/

/-- A `POST` counts when its end is recorded. -/
def ended : Input → Tick → List Event
  | .respond code _ _, .posting x _ => [.posted x.1.id (isOk code)]
  | .recordError _ _, .caught x _ => [.posted x.1.id false]
  | _, _ => []

/-- The delivery that a request resets. -/
def Request.resets (store : Store) : Request → List Event
  | .retry merchantId deliveryId _ =>
    Webhooks.resets store (canRetry store merchantId deliveryId) deliveryId
  | .replay merchantId webhookId deliveryId _ =>
    Webhooks.resets store (canReplay store merchantId webhookId deliveryId) deliveryId
  | .insert _ _ _ _ | .webhooks _ => []

/-- What a step adds to the history. -/
def happens (s : Program.Sys World Tick 1) : Program.Label Input Request 1 → List Event
  | .call k i => ended i (s.calls k)
  | .env r => r.resets s.db.store

/-- The history of a run. -/
def historyOf (store : Store) (as : List (Program.Label Input Request 1)) : List Event :=
  (program.interleave 1).outputs happens (idle store 1) as

/-- No request resets a delivery that the tick has selected and not yet recorded. -/
def uncrossed : Program.Guard World Tick Input Request where
  call _ _ _ _ := True
  env cs r w := ∀ c ∈ cs, ∀ id ∈ c.held, .reset id ∉ r.resets w.store

instance decidableUncrossedCall (cs : List Tick) (i : Input) (w : World) (c : Tick) :
    Decidable (uncrossed.call cs i w c) := isTrue trivial

instance decidableUncrossedEnv (cs : List Tick) (r : Request) (w : World) :
    Decidable (uncrossed.env cs r w) :=
  inferInstanceAs (Decidable (∀ c ∈ cs, ∀ id ∈ c.held, _))

/-! ## The invariant -/

/-- The selected rows that are still to be recorded. -/
def Tick.rows : Tick → List Selected
  | .next rest => rest
  | .posting x rest | .caught x rest => x :: rest

theorem Tick.held_eq (c : Tick) : c.held = c.rows.map fun x => x.1.id := by
  cases c <;> rfl

/-- Every delivery is accounted for, and what the tick has on its list is stored as it was
selected. -/
structure Attended (history : List Event) (w : World) (c : Tick) : Prop where
  inv : Inv ⟨w.store, history⟩
  stored : ∀ x ∈ c.rows, x.1 ∈ w.store.deliveries ∧ x.1.status = .pending
  nodup : (c.rows.map fun x => x.1.id).Nodup

section Steps

variable {history : List Event} {w w' : World} {c c' : Tick} {others : List Tick} {i : Input}
  {r : Request} {x : Selected} {rest : List Selected}

/-- **The end of a `POST` is recorded**: the row is the one that was selected. -/
theorem Attended.recorded (h : Attended history w c) (hrows : c.rows = x :: rest)
    (o : Outcome) :
    Attended (history ++ [.posted x.1.id o.answer.ok]) { w with store := o.write w.store x.1 }
      (.next rest) := by
  have hstored := h.stored
  have hnodup := h.nodup
  rw [hrows] at hstored hnodup
  obtain ⟨hx, hpending⟩ := hstored x List.mem_cons_self
  obtain ⟨hnot, hrest⟩ := List.nodup_cons.mp hnodup
  refine ⟨h.inv.deliver hx hpending o, fun y hy => ?_, hrest⟩
  obtain ⟨hy₁, hy₂⟩ := hstored y (List.mem_cons_of_mem x hy)
  -- the `UPDATE` is by id, so it leaves the rest of the list alone
  have hne : y.1.id ≠ x.1.id := fun heq => hnot (List.mem_map.mpr ⟨y, hy, heq⟩)
  exact ⟨mem_deliver (w := ⟨w.store, history⟩) hy₁ hne, hy₂⟩

/-- A statement of the tick. -/
theorem Attended.call (h : Attended history w c)
    (hexec : program.exec others i w c = some (w', c')) :
    Attended (history ++ ended i c) w' c' := by
  cases i with
  | start now order =>
    cases c with
    | next rest =>
      cases rest with
      | nil =>
        obtain ⟨rows, hselect, heq⟩ := Option.map_eq_some_iff.mp hexec
        cases heq
        -- the query returns pending rows as they are, each once
        show Attended (history ++ []) _ _
        rw [List.append_nil]
        exact ⟨h.inv, fun x hx => mem_selectPending hselect hx, nodup_selectPending hselect⟩
      | cons x rest => cases hexec
    | _ => cases hexec
  | post =>
    cases c with
    | next rest =>
      cases rest with
      | nil => cases hexec
      | cons x rest =>
        cases hexec
        show Attended (history ++ []) _ _
        rw [List.append_nil]
        exact ⟨h.inv, h.stored, h.nodup⟩
    | _ => cases hexec
  | respond code now jitter =>
    cases c with
    | posting x rest =>
      cases hexec
      exact h.recorded rfl ⟨.status code, now, jitter⟩
    | _ => cases hexec
  | throw =>
    cases c with
    | posting x rest =>
      cases hexec
      -- the row stays on the list until the failure is recorded
      show Attended (history ++ []) _ _
      rw [List.append_nil]
      exact ⟨h.inv, h.stored, h.nodup⟩
    | _ => cases hexec
  | recordError now jitter =>
    cases c with
    | caught x rest =>
      cases hexec
      exact h.recorded rfl ⟨.error, now, jitter⟩
    | _ => cases hexec
  | crash =>
    cases hexec
    show Attended (history ++ []) _ _
    rw [List.append_nil]
    exact ⟨h.inv, nofun, .nil⟩

/-- A reset of other deliveries leaves the list of the tick as it was selected. -/
theorem Attended.stored_reset (h : Attended history w c) {p : Delivery → Bool}
    {f : Delivery → Delivery} (hf : ∀ r, Keyed.key (f r) = Keyed.key r) {id : Nat}
    (hid : ∀ r, p r = true → r.id = id)
    (hcrossed : ∀ i ∈ c.held, .reset i ∉ Webhooks.resets w.store p id) :
    ∀ x ∈ c.rows, x.1 ∈ w.store.deliveries.modify p f hf ∧ x.1.status = .pending := by
  intro x hx
  obtain ⟨hstored, hpending⟩ := h.stored x hx
  refine ⟨(Table.mem_modify hf).mpr ⟨x.1, hstored, if_neg fun hp => ?_⟩, hpending⟩
  -- the row would be on the list, and this request reset it
  have hheld : id ∈ c.held := by
    rw [c.held_eq]
    exact List.mem_map.mpr ⟨x, hx, hid x.1 hp⟩
  refine hcrossed id hheld ?_
  rw [Webhooks.resets, if_pos (List.any_eq_true.mpr ⟨x.1, hstored, hp⟩)]
  exact List.mem_singleton_self _

/-- A request between two statements. -/
theorem Attended.env (h : Attended history w c)
    (hcrossed : ∀ id ∈ c.held, .reset id ∉ r.resets w.store) :
    Attended (history ++ r.resets w.store) { w with store := r.exec w.store } c := by
  cases r with
  | retry merchantId deliveryId now =>
    refine ⟨inv_step h.inv (a := .retry merchantId deliveryId now) rfl,
      h.stored_reset (key_retried now) (fun r hp => ?_) hcrossed, h.nodup⟩
    simp only [canRetry, Bool.and_eq_true, beq_iff_eq] at hp
    exact hp.1.2
  | replay merchantId webhookId deliveryId now =>
    refine ⟨inv_step h.inv (a := .replay merchantId webhookId deliveryId now) rfl,
      h.stored_reset (key_replayed now) (fun r hp => ?_) hcrossed, h.nodup⟩
    simp only [canReplay, Bool.and_eq_true, beq_iff_eq] at hp
    exact hp.1.2
  | insert webhookId eventType payload now =>
    rw [Request.resets, List.append_nil]
    refine ⟨h.inv.insert webhookId eventType payload now, fun x hx => ?_, h.nodup⟩
    exact ⟨mem_insertDelivery.mpr (.inl (h.stored x hx).1), (h.stored x hx).2⟩
  | webhooks hooks =>
    rw [Request.resets, List.append_nil]
    exact ⟨⟨h.inv.rows, h.inv.unused⟩, h.stored, h.nodup⟩

/-- **Every step** of a run without crossing requests. -/
theorem attended_step {s s' : Program.Sys World Tick 1} {a : Program.Label Input Request 1}
    (h : Attended history s.db (s.calls 0)) (hok : uncrossed.admits s a)
    (hstep : (program.interleave 1).step s a = some s') :
    Attended (history ++ happens s a) s'.db (s'.calls 0) := by
  cases a with
  | call k i =>
    obtain ⟨w, c, hexec, rfl⟩ := program.step_call.mp hstep
    obtain rfl : k = 0 := Subsingleton.elim k 0
    show Attended _ w (Function.update s.calls 0 c 0)
    rw [Function.update_self]
    exact h.call hexec
  | env r =>
    obtain ⟨w, henv, rfl⟩ := program.step_env.mp hstep
    cases henv
    exact h.env (hok _ (Program.Sys.mem_all.mpr ⟨0, rfl⟩))

end Steps

/-! ## Runs -/

/-- **Attempts are accounted exactly**, from an empty table on, if no retry or replay resets a
delivery that the tick has selected and not yet recorded: in every reachable state the columns
of every delivery are those that its `POST`s since its creation or its last reset leave behind. -/
theorem accounted_of_guarded_run {webhooks : Table Hook} {t : Program.Sys World Tick 1}
    {as : List (Program.Label Input Request 1)}
    (hguard : (program.interleave 1).Guarded uncrossed.admits (idle { webhooks } 1) as)
    (hrun : (program.interleave 1).run (idle { webhooks } 1) as = some t) :
    ∀ d ∈ t.db.store.deliveries, Accounted d (postsOf (historyOf { webhooks } as) d.id) := by
  have hinit : Attended (historyOf { webhooks } []) (idle { webhooks } 1).db
      ((idle { webhooks } 1).calls 0) := ⟨⟨nofun, fun _ _ => rfl⟩, nofun, .nil⟩
  have h := (program.interleave 1).inv_of_guarded_history
    (I := fun done u => Attended (historyOf { webhooks } done) u.db (u.calls 0)) hinit
    (fun done u a u' hdone hI hok hstep => by
      rw [historyOf, Lts.outputs_concat _ a hdone]
      exact attended_step hI hok hstep) hguard hrun
  exact h.inv.rows

/-- The delivery after `n` failures, at times far apart. -/
def afterFails : Nat → Delivery
  | 0 => firstDelivery
  | n + 1 => (afterFails n).answered 500 (n * 10 ^ 10) 0 (afterFails n)

/-- The next tick selects it. -/
def selectsAgain (n : Nat) : Program.Label Input Request 1 :=
  .call 0 (.start (n * 10 ^ 10) [(afterFails n, testHook)])

/-- The endpoint answers 500. -/
def answers500 (n : Nat) : List (Program.Label Input Request 1) :=
  [.call 0 .post, .call 0 (.respond 500 (n * 10 ^ 10) 0)]

def inserted : Program.Label Input Request 1 := .env (.insert 5 "invoice.paid" "[]" 0)

/-- A replay of the delivery. -/
def replayed (now : Timestamp) : Program.Label Input Request 1 := .env (.replay 1 5 1 now)

/-- A failure, a replay after it, and a request that times out. -/
def replayedBetween : List (Program.Label Input Request 1) :=
  inserted :: selectsAgain 0 :: answers500 0 ++ [replayed 7,
    .call 0 (.start 10 [((afterFails 1).replayed 7, testHook)]), .call 0 .post, .call 0 .throw,
    .call 0 (.recordError 10 0)]

theorem accounted_of_guarded_run_replayed : ∃ t,
    (program.interleave 1).run (idle { webhooks := testHooks } 1) replayedBetween = some t ∧
    (∃ d ∈ t.db.store.deliveries, d.status = .pending ∧ d.attempts = 1) ∧
    ∀ d ∈ t.db.store.deliveries,
      Accounted d (postsOf (historyOf { webhooks := testHooks } replayedBetween) d.id) := by
  obtain ⟨t, hrun, hd⟩ := (program.interleave 1).exists_of_leadsTo
    (fun t => ∃ d ∈ t.db.store.deliveries.rows, d.status = .pending ∧ d.attempts = 1)
    (idle { webhooks := testHooks } 1) replayedBetween (by decide +kernel)
  exact ⟨t, hrun, hd, accounted_of_guarded_run (by decide +kernel) hrun⟩

/-- Four failures; then a replay between the query of the fifth tick and its `POST`. -/
def crossed : List (Program.Label Input Request 1) :=
  inserted :: (List.range 4).flatMap (fun n => selectsAgain n :: answers500 n) ++
    selectsAgain 4 :: replayed (4 * 10 ^ 10) :: answers500 4

/-- **A replay is undone** by the tick that has selected the delivery before it: the delivery is
dead with five attempts, though it was posted once since the replay. -/
theorem replay_crossed : ∃ t,
    (program.interleave 1).run (idle { webhooks := testHooks } 1) crossed = some t ∧
    ∃ d ∈ t.db.store.deliveries, d.status = .dead ∧ d.attempts = 5 ∧
      postsOf (historyOf { webhooks := testHooks } crossed) d.id = [false] ∧
      ¬ Accounted d (postsOf (historyOf { webhooks := testHooks } crossed) d.id) := by
  obtain ⟨t, hrun, d, hd, hdead, hattempts, hposts⟩ := (program.interleave 1).exists_of_leadsTo
    (fun t => ∃ d ∈ t.db.store.deliveries.rows, d.status = .dead ∧ d.attempts = 5 ∧
      postsOf (historyOf { webhooks := testHooks } crossed) d.id = [false])
    (idle { webhooks := testHooks } 1) crossed (by decide +kernel)
  refine ⟨t, hrun, d, hd, hdead, hattempts, hposts, fun h => ?_⟩
  -- five attempts, one `POST`
  have hlength := h.attempts
  rw [hattempts, hposts] at hlength
  cases hlength

end Stargate.Ticks
