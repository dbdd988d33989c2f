import Stargate.Reconciler.Announcements
import Stargate.Reconciler.Postings

/-!
# Every status change is announced once

In a run whose steps announce what they do, a webhook that is subscribed throughout a
call gets exactly one delivery for each invoice that the call takes to `paid`,
`expired` or `cancelled`.

- `Transit`: a step of a call takes an invoice to a status;
- `transit_cases`: there are two ways to do so in front of a subscribed webhook. Either
  the delivery is written with it, or the call still owes it;
- `owed_step`: a call that owes a delivery writes it, if it is not cut short;
- `announced_of_guarded_run`: the result. `cancelled_unannounced` is a call that does not
  announce what it does.
-/

namespace Stargate.Reconciler

open Base Invoices

variable {n m : Nat}

/-- The process that a step belongs to. `none` is a request of one statement. -/
def party : Request n m → Option (Fin n ⊕ Fin m)
  | .system (.deliver k _) | .system (.exec k _) | .system (.abort k) => some (.inl k)
  | .system (.expire k _) | .system (.autoCancel k _) | .system (.applyPartial k _ _)
  | .system (.api k _) | .system (.apiAbort k) => some (.inr k)
  | _ => none

/-- The process is in the middle of a call. -/
def busy (s : Sys n m) : Option (Fin n ⊕ Fin m) → Bool
  | some (.inl k) => (s.calls k).isRunning
  | some (.inr k) => decide (s.apis k ≠ .idle)
  | none => false

/-- A step of the process takes an invoice to a status. -/
def Transit (env : Env) (u : Sys n m) (call : List (Request n m)) (p : Option (Fin n ⊕ Fin m))
    (i : Invoice) (status : InvoiceStatus) : Prop :=
  ∃ before a after w w', call = before ++ a :: after ∧
    (platform env n m).run u before = some w ∧ (platform env n m).step w a = some w' ∧
    party a = p ∧ i ∈ w.world.db.invoices ∧ i.status ≠ status ∧ HasStatus w'.world.db i.id status

section Once

variable {env : Env} {first db db' : Db} {s s' : Sys n m} {webhookId id merchantId : Uuid}
  {eventType : String}

theorem not_hasStatus_of_same {i : Invoice} {status : InvoiceStatus}
    (heq : db'.invoices = db.invoices) (hi : i ∈ db.invoices) (hne : i.status ≠ status) :
    ¬ HasStatus db' i.id status := fun h => hne (h.status_eq (by rwa [heq]))

/-- A guarded `UPDATE` changes the invoices that it takes. -/
theorem affected_of_hasStatus {i : Invoice} {status closed : InvoiceStatus} {p : Invoice → Bool}
    (hi : i ∈ db.invoices) (hne : i.status ≠ status)
    (h : HasStatus (setStatus db p closed) i.id status) :
    i ∈ affected db p ∧ status = closed := by
  obtain ⟨i', hi', hid, rfl⟩ := h
  obtain ⟨j, hj, rfl⟩ := mem_setStatus.mp hi'
  by_cases hp : (j.status.active && p j) = true
  · rw [if_pos hp] at hid hne ⊢
    obtain rfl := Table.eq_of_conflict hj hi (.inl hid)
    exact ⟨List.mem_filter.mpr ⟨hj, hp⟩, rfl⟩
  · rw [if_neg hp] at hid hne
    obtain rfl := Table.eq_of_conflict hj hi (.inl hid)
    exact absurd rfl hne

/-- A `COMMIT` changes the invoice of its credit. -/
theorem paid_of_hasStatus {i : Invoice} {status : InvoiceStatus} {c : Credit} {updated : Bool}
    {hooks : List Uuid} (hi : i ∈ db.invoices) (hne : i.status ≠ status)
    (h : HasStatus (commitCredit db c updated hooks) i.id status) :
    updated = true ∧ c.inv.id = i.id ∧ status = .paid := by
  obtain ⟨i', hi', hid, rfl⟩ := h
  obtain ⟨j, hj, rfl⟩ := mem_invoices_commitCredit.mp hi'
  by_cases hp : updated = true ∧ j.id = c.inv.id
  · rw [if_pos hp] at hid ⊢
    exact ⟨hp.1, hp.2.symm.trans hid, rfl⟩
  · rw [if_neg hp] at hid hne
    obtain rfl := Table.eq_of_conflict hj hi (.inl hid)
    exact absurd rfl hne

/-- **How an invoice changes its status in front of a subscribed webhook.** -/
theorem transit_cases {a : Request n m} {i : Invoice} {status : InvoiceStatus}
    (h : TruthInv first s) (hok : Announces s a) (hplain : Plain a)
    (hstep : (platform env n m).step s a = some s') (hi : i ∈ s.world.db.invoices)
    (hne : i.status ≠ status) (hs : HasStatus s'.world.db i.id status)
    (htype : announcement status = some eventType)
    (hsub : webhookId ∈ subscribers s.world.db i.merchantId eventType) :
    (∃ k now payment c hooks, a = .system (.exec k now) ∧
      s.calls k = .running payment (.commit c true hooks) ∧
      s'.world.db = commitCredit s.world.db c true hooks ∧ status = .paid ∧ c.inv.id = i.id ∧
      c.inv.merchantId = i.merchantId) ∨
    ∃ k now, a = .system (.autoCancel k now) ∧ status = .cancelled ∧
      Owes i.merchantId webhookId i.id (s'.apis k) := by
  have hsame : s'.world.db.invoices ≠ s.world.db.invoices := fun heq =>
    not_hasStatus_of_same heq hi hne hs
  rcases platform_cases hstep with ⟨b, rfl, hsys⟩ | ⟨-, haside⟩
  swap
  · exact absurd haside.invoices hsame
  cases step_spec hsys with
  | deliver | abort | redis | applyPartial | apiAbort => exact absurd rfl hsame
  | create _ hrow =>
    obtain ⟨i', hi', hid, rfl⟩ := hs
    rcases (Table.mem_of_insert? hrow i').mp hi' with hi' | rfl
    · obtain rfl := Table.eq_of_conflict hi' hi (.inl hid)
      exact absurd rfl hne
    · -- a new row has a new id
      exact absurd (.inl hid.symm) ((Table.insert?_eq_some.mp hrow).1 i hi)
  | cancel hupd =>
    obtain rfl := Sys.update_eq hupd
    obtain ⟨haff, rfl⟩ := affected_of_hasStatus hi hne hs
    cases htype
    rw [hok i haff] at hsub
    cases hsub
  | expire _ hupd =>
    obtain rfl := Sys.update_eq hupd
    obtain ⟨haff, rfl⟩ := affected_of_hasStatus hi hne hs
    cases htype
    rw [hok i haff] at hsub
    cases hsub
  | @autoCancel k now _ _ hupd =>
    obtain rfl := Sys.update_eq hupd
    obtain ⟨haff, rfl⟩ := affected_of_hasStatus hi hne hs
    refine .inr ⟨k, now, rfl, rfl, ?_⟩
    simp only [Function.update_self]
    exact ⟨_, List.mem_flatMap.mpr ⟨i, haff, List.mem_cons_of_mem _ List.mem_cons_self⟩, rfl,
      rfl, rfl⟩
  | @api k _ _ _ hexec =>
    exact absurd ((h.told.apis k).exec h.told.truthful hexec).invoices hsame
  | @exec k now payment _ _ _ hrun hexec =>
    rcases exec_commits hexec with ⟨heq, -⟩ | ⟨c, updated, hooks, rfl, hdb⟩
    · exact absurd heq hsame
    · dsimp only at hs
      rw [hdb] at hs
      obtain ⟨rfl, hid, rfl⟩ := paid_of_hasStatus hi hne hs
      have hcall := h.told.calls k
      rw [hrun] at hcall
      obtain ⟨j, hj, hjid, hmerchant⟩ := hcall.belongs c.inv rfl
      obtain rfl := Table.eq_of_conflict hj hi (.inl (hjid.trans hid))
      exact .inl ⟨k, now, payment, c, hooks, rfl, hrun, hdb, rfl, hid, hmerchant.symm⟩

/-! ## Until the call returns -/

/-- Deliveries are never taken back. -/
theorem deliveries_step {a : Request n m} (h : TruthInv first s) (hplain : Plain a)
    (hstep : (platform env n m).step s a = some s') :
    announced s.world.db webhookId eventType id ≤ announced s'.world.db webhookId eventType id := by
  have hsame : s'.world.db.webhookDeliveries = s.world.db.webhookDeliveries →
      announced s.world.db webhookId eventType id ≤
        announced s'.world.db webhookId eventType id := fun heq => by
    rw [announced, announced, heq]
  rcases platform_cases hstep with ⟨b, rfl, hsys⟩ | ⟨-, haside⟩
  swap
  · exact hsame haside.deliveries
  cases step_spec hsys with
  | exec _ hexec =>
    rcases exec_commits hexec with ⟨-, heq⟩ | ⟨c, updated, hooks, rfl, hdb⟩
    · exact hsame heq
    · dsimp only
      rw [hdb, announced, announced, commitCredit, List.countP_append]
      exact Nat.le_add_right _ _
  | @api k _ _ _ hexec =>
    have hcall := h.told.apis k
    cases hapi : s.apis k with
    | idle =>
      rw [hapi] at hexec
      cases hexec
    | selectHooks todo =>
      rw [hapi] at hexec
      cases todo <;> cases hexec <;> exact hsame rfl
    | insertDelivery d hooks todo =>
      rw [hapi] at hexec
      cases hooks <;> cases hexec
      · exact hsame rfl
      · dsimp only
        rw [announced_append]
        exact Nat.le_add_right _ _
    | partialSelect | partialUpdate | partialCommit =>
      rw [hapi] at hcall
      cases hcall.plain
  | deliver | abort | redis | create | applyPartial | apiAbort => exact hsame rfl
  | cancel hupd =>
    obtain rfl := Sys.update_eq hupd
    exact hsame rfl
  | expire _ hupd =>
    obtain rfl := Sys.update_eq hupd
    exact hsame rfl
  | autoCancel _ hupd =>
    obtain rfl := Sys.update_eq hupd
    exact hsame rfl

/-- A statement of a call that owes a delivery to a subscribed webhook writes it, or
owes it still. -/
theorem owed_exec {now : Timestamp} {locked : Uuid → Bool} {call call' : ApiCall}
    (hsub : webhookId ∈ subscribers db merchantId "invoice.cancelled")
    (howes : Owes merchantId webhookId id call)
    (hexec : call.exec now locked db = some (db', call')) :
    1 ≤ announced db' webhookId "invoice.cancelled" id ∨ Owes merchantId webhookId id call' := by
  cases call with
  | selectHooks todo =>
    cases todo with
    | nil =>
      obtain ⟨d, hd, -⟩ := howes
      cases hd
    | cons d todo =>
      cases hexec
      obtain ⟨d', hd', hc⟩ := howes
      rcases List.mem_cons.mp hd' with rfl | hd'
      · refine .inr (.inl ⟨hc, ?_⟩)
        obtain ⟨htype, hmerchant, -⟩ := hc
        rwa [htype, hmerchant]
      · exact .inr (.inr ⟨d', hd', hc⟩)
  | insertDelivery d hooks todo =>
    cases hooks with
    | nil =>
      cases hexec
      rcases howes with ⟨-, hmem⟩ | hrest
      · cases hmem
      · exact .inr hrest
    | cons hook hooks =>
      cases hexec
      rcases howes with ⟨hc, hmem⟩ | hrest
      · rcases List.mem_cons.mp hmem with rfl | hmem
        · left
          obtain ⟨htype, -, rfl⟩ := hc
          rw [announced_append, List.countP_singleton, if_pos (by simp [htype])]
          exact Nat.le_add_left _ _
        · exact .inr (.inl ⟨hc, hmem⟩)
      · exact .inr (.inr hrest)
  | idle | partialSelect | partialUpdate | partialCommit => cases howes

/-- Nobody who is subscribed is owed a delivery when a call is cut short. -/
theorem not_owes_of_nothingLeft {call : ApiCall} (h : NothingLeft db call)
    (hsub : webhookId ∈ subscribers db merchantId "invoice.cancelled") :
    ¬ Owes merchantId webhookId id call := by
  have htodo : ∀ {todo}, NobodyWaits db todo → ¬ ∃ d ∈ todo, Cancels d merchantId id := by
    rintro todo hnone ⟨d, hd, htype, hmerchant, -⟩
    have := hnone d hd htype
    rw [htype, hmerchant] at this
    rw [this] at hsub
    cases hsub
  cases call with
  | selectHooks todo => exact htodo h
  | insertDelivery d hooks todo =>
    rintro (⟨⟨htype, hmerchant, -⟩, hmem⟩ | hrest)
    · refine h.1 htype webhookId hmem ?_
      rwa [htype, hmerchant]
    · exact htodo h.2 hrest
  | idle | partialSelect | partialUpdate | partialCommit => exact fun howes => howes

/-- A call of the API goes on by its own statements, or is cut short. -/
theorem apis_step {a : Request n m} {k : Fin m} (hbusy : s.apis k ≠ .idle) (hplain : Plain a)
    (hstep : (platform env n m).step s a = some s') :
    s'.apis k = s.apis k ∨ a = .system (.apiAbort k) ∨ ∃ now locked, a = .system (.api k now) ∧
      (s.apis k).exec now locked s.world.db = some (s'.world.db, s'.apis k) := by
  have hother : ∀ (j : Fin m) (c : ApiCall), j ≠ k →
      Function.update s.apis j c k = s.apis k := fun j c hj =>
    Function.update_of_ne (Ne.symm hj) _ _
  rcases platform_cases hstep with ⟨b, rfl, hsys⟩ | ⟨-, haside⟩
  swap
  · exact .inl (by rw [haside.apis])
  cases step_spec hsys with
  | @api j now _ call hexec =>
    by_cases hj : j = k
    · subst hj
      refine .inr (.inr ⟨now, s.lockedFor (some (.inr j)), rfl, ?_⟩)
      rw [hexec]
      simp only [Function.update_self]
    · exact .inl (hother j call hj)
  | @apiAbort j =>
    by_cases hj : j = k
    · exact .inr (.inl (by rw [hj]))
    · exact .inl (hother j _ hj)
  | expire hidle => exact .inl (hother _ _ fun heq => hbusy (heq ▸ hidle))
  | autoCancel hidle => exact .inl (hother _ _ fun heq => hbusy (heq ▸ hidle))
  | applyPartial => cases hplain
  | deliver | abort | exec | redis | create | cancel => exact .inl rfl

/-- **A call that owes a delivery writes it before it returns.** -/
theorem owed_step {a : Request n m} {k : Fin m} (h : TruthInv first s) (hok : Announces s a)
    (hplain : Plain a) (hsub : webhookId ∈ subscribers s.world.db merchantId "invoice.cancelled")
    (howed : 1 ≤ announced s.world.db webhookId "invoice.cancelled" id ∨
      Owes merchantId webhookId id (s.apis k))
    (hstep : (platform env n m).step s a = some s') :
    1 ≤ announced s'.world.db webhookId "invoice.cancelled" id ∨
      Owes merchantId webhookId id (s'.apis k) := by
  rcases howed with hdone | howes
  · exact .inl (hdone.trans (deliveries_step h hplain hstep))
  have hbusy : s.apis k ≠ .idle := fun hidle => by
    rw [hidle] at howes
    cases howes
  rcases apis_step hbusy hplain hstep with heq | rfl | ⟨now, locked, -, hexec⟩
  · exact .inr (heq ▸ howes)
  · exact absurd howes (not_owes_of_nothingLeft hok hsub)
  · exact owed_exec hsub howes hexec

/-- The webhooks that a call has selected for a credit include those that have been
subscribed since it began. -/
def Selects (merchantId webhookId : Uuid) (stage : Stage) : Prop :=
  ∀ p, stage = .inserted p → p.credit.inv.merchantId = merchantId → webhookId ∈ p.hooks

theorem selects_step {a : Request n m} {k : Fin n} (hsound : s.Sound)
    (hsub : webhookId ∈ subscribers s.world.db merchantId "invoice.paid")
    (h : Selects merchantId webhookId (s.stages k))
    (hstep : (platform env n m).step s a = some s') :
    Selects merchantId webhookId (s'.stages k) := by
  have hnone : Selects merchantId webhookId .none := by
    rintro p ⟨⟩
  rcases platform_cases hstep with ⟨b, rfl, hsys⟩ | ⟨-, haside⟩
  swap
  · rwa [Sys.stages, haside.calls]
  by_cases hexec : ∃ j now, b = .exec j now
  · obtain ⟨j, now, rfl⟩ := hexec
    cases step_spec hsys with
    | @exec _ _ payment pc world next hrun hexec =>
      rw [Sys.stages, Function.comp_update, Next.stage_call]
      have hj : s.stages j = pc.stage := by
        rw [Sys.stages, Function.comp_apply, hrun]
        rfl
      refine forall_update (P := fun i st => i = k → Selects merchantId webhookId st)
        ?_ (fun i _ heq => heq ▸ h) k rfl
      rintro rfl
      rw [hj] at h
      have hstage := exec_stageStep hexec
      generalize next.stage = stage at hstage ⊢
      cases hstage with
      | clear | commit => exact hnone
      | record =>
        rintro p ⟨⟩
      | keep hpc => exact hpc ▸ h
      | insert =>
        rintro p heq hmerchant
        cases heq
        rwa [hmerchant]
  · have hno : ∀ j now, b ≠ .exec j now := fun j now heq => hexec ⟨j, now, heq⟩
    rcases (quiet_step hsound hno hsys).2 k with heq | heq
    · rwa [heq]
    · rwa [heq]

/-! ## Runs -/

theorem announced_commit {c : Credit} {hooks : List Uuid} (hmem : webhookId ∈ hooks) :
    1 ≤ announced (commitCredit db c true hooks) webhookId "invoice.paid" c.inv.id := by
  rw [announced, commitCredit, List.countP_append]
  refine Nat.le_add_left_of_le (List.countP_pos_iff.mpr ?_)
  exact ⟨c.delivery webhookId, List.mem_map_of_mem hmem, by simp [Credit.delivery, invoiceOf]⟩

/-- What the steps of a run meet that announce. -/
abbrev Announcing (s : Sys n m) (a : Request n m) : Prop := Announces s a ∧ Plain a

/-- What has been queued stays queued, once. -/
theorem announced_of_run {u t : Sys n m} {run : List (Request n m)} {i : Invoice}
    {status : InvoiceStatus} (htype : announcement status = some eventType)
    (h : TruthInv first u) (hqueued : 1 ≤ announced u.world.db webhookId eventType i.id)
    (hguard : (platform env n m).Guarded Announcing u run)
    (hrun : (platform env n m).run u run = some t) :
    announced t.world.db webhookId eventType i.id = 1 := by
  obtain ⟨ht, hqueued'⟩ := (platform env n m).inv_of_guarded_run
    (I := fun s => TruthInv first s ∧ 1 ≤ announced s.world.db webhookId eventType i.id)
    (fun s a s' ⟨hinv, hq⟩ ⟨hok, hplain⟩ hstep => ⟨truthInv_step hinv hok hplain hstep,
      hq.trans (deliveries_step hinv hplain hstep)⟩)
    ⟨h, hqueued⟩ hguard hrun
  exact Nat.le_antisymm (ht.told.truthful.once webhookId status eventType i.id htype) hqueued'

/-- **One delivery for each transition of a call.** -/
theorem announced_of_call {u v : Sys n m} {call : List (Request n m)}
    {p : Option (Fin n ⊕ Fin m)} {i : Invoice} {status : InvoiceStatus}
    (htype : announcement status = some eventType) (h : TruthInv first u)
    (hstart : busy u p = false) (hend : busy v p = false)
    (htransit : Transit env u call p i status)
    (hguard : (platform env n m).Guarded Announcing u call)
    (hsub : (platform env n m).Guarded
      (fun w _ => webhookId ∈ subscribers w.world.db i.merchantId eventType) u call)
    (hrun : (platform env n m).run u call = some v) :
    announced v.world.db webhookId eventType i.id = 1 := by
  obtain ⟨before, a, after, w, w', rfl, hbefore, hstep, hparty, hi, hne, hs⟩ := htransit
  obtain ⟨w₁, hbefore₁, hrest⟩ := (platform env n m).run_append.mp hrun
  obtain rfl := Option.some.inj (hbefore.symm.trans hbefore₁)
  obtain ⟨w₂, hstep₂, hafter⟩ := (platform env n m).run_cons.mp hrest
  obtain rfl := Option.some.inj (hstep.symm.trans hstep₂)
  obtain ⟨hguard₁, hguard₂⟩ := ((platform env n m).guarded_append hbefore).mp hguard
  obtain ⟨hsub₁, hsub₂⟩ := ((platform env n m).guarded_append hbefore).mp hsub
  obtain ⟨⟨hok, hplain⟩, hguard₃⟩ := ((platform env n m).guarded_cons hstep).mp hguard₂
  obtain ⟨hsubw, hsub₃⟩ := ((platform env n m).guarded_cons hstep).mp hsub₂
  have hw : TruthInv first w := (platform env n m).inv_of_guarded_run
    (fun s a s' hinv hgood hstep => truthInv_step hinv hgood.1 hgood.2 hstep) h hguard₁ hbefore
  have hw' := truthInv_step hw hok hplain hstep
  rcases transit_cases hw hok hplain hstep hi hne hs htype hsubw with
    ⟨k, now, payment, c, hooks, rfl, hcall, hdb, rfl, hid, hmerchant⟩ | ⟨k, now, rfl, rfl, howes⟩
  · -- the `INSERT` of the deliveries ran within the call
    cases htype
    subst hparty
    have hidle : Selects i.merchantId webhookId (u.stages k) := by
      intro p hp
      rw [Sys.stages, Function.comp_apply] at hp
      simp only [busy, party] at hstart
      cases hc : u.calls k with
      | running payment pc =>
        rw [hc] at hstart
        cases hstart
      | idle | returned =>
        rw [hc] at hp
        cases hp
    obtain ⟨-, hselects⟩ := (platform env n m).inv_of_guarded_run
      (I := fun s => TruthInv first s ∧ Selects i.merchantId webhookId (s.stages k))
      (fun s a s' hinv hgood hstep =>
        ⟨truthInv_step hinv.1 hgood.1.1 hgood.1.2 hstep,
          selects_step hinv.1.sound hgood.2 hinv.2 hstep⟩)
      ⟨h, hidle⟩ (hguard₁.and _ hsub₁) hbefore
    have hmem : webhookId ∈ hooks := hselects ⟨c, hooks⟩
      (by rw [Sys.stages, Function.comp_apply, hcall]; rfl) hmerchant
    have hpaid : announcement .paid = some "invoice.paid" := rfl
    refine announced_of_run hpaid hw' ?_ hguard₃ hafter
    rw [hdb, ← hid]
    exact announced_commit hmem
  · -- the call has returned, so it owes nothing
    cases htype
    subst hparty
    obtain ⟨hv, hqueued⟩ := (platform env n m).inv_of_guarded_run
      (I := fun s => TruthInv first s ∧
        (1 ≤ announced s.world.db webhookId "invoice.cancelled" i.id ∨
          Owes i.merchantId webhookId i.id (s.apis k)))
      (fun s a s' hinv hgood hstep =>
        ⟨truthInv_step hinv.1 hgood.1.1 hgood.1.2 hstep,
          owed_step hinv.1 hgood.1.1 hgood.1.2 hgood.2 hinv.2 hstep⟩)
      ⟨hw', .inr howes⟩ (hguard₃.and _ hsub₃) hafter
    have hidle : v.apis k = .idle := by simpa [busy, party] using hend
    rw [hidle] at hqueued
    exact Nat.le_antisymm (hv.told.truthful.once webhookId .cancelled _ i.id rfl)
      (hqueued.resolve_right fun howes => howes)

/-- **Every status change is announced exactly once**, in every run whose steps announce
what they do: what has been announced has happened in the run, and a webhook that is
subscribed while a call runs is told once of each invoice that the call takes to a
status. -/
theorem announced_of_guarded_run {s u v t : Sys n m} {before call after : List (Request n m)}
    (hidle : s.Idle) (hempty : s.world.db.webhookDeliveries = [])
    (hplain : ∀ a ∈ before ++ (call ++ after), Plain a)
    (hok : (platform env n m).Guarded Announces s (before ++ (call ++ after)))
    (hbefore : (platform env n m).run s before = some u)
    (hcall : (platform env n m).run u call = some v)
    (hafter : (platform env n m).run v after = some t) :
    Truthful s.world.db t.world.db ∧
      ∀ p i status eventType webhookId, announcement status = some eventType →
        busy u p = false → busy v p = false → Transit env u call p i status →
        (platform env n m).Guarded
          (fun w _ => webhookId ∈ subscribers w.world.db i.merchantId eventType) u call →
        announced t.world.db webhookId eventType i.id = 1 := by
  have hguard : (platform env n m).Guarded Announcing s (before ++ (call ++ after)) :=
    hok.and _ ((platform env n m).guarded_of_forall fun _ a ha => hplain a ha)
  obtain ⟨hguard₁, hguard₂⟩ := ((platform env n m).guarded_append hbefore).mp hguard
  obtain ⟨hguard₂, hguard₃⟩ := ((platform env n m).guarded_append hcall).mp hguard₂
  have hinv : ∀ {u v : Sys n m} {run}, TruthInv s.world.db u →
      (platform env n m).Guarded Announcing u run → (platform env n m).run u run = some v →
      TruthInv s.world.db v := fun h hg hr => (platform env n m).inv_of_guarded_run
    (fun s a s' hinv ⟨hok, hplain⟩ hstep => truthInv_step hinv hok hplain hstep) h hg hr
  have hu := hinv (truthInv_of_idle hidle hempty) hguard₁ hbefore
  have hv := hinv hu hguard₂ hcall
  refine ⟨(hinv hv hguard₃ hafter).told.truthful, ?_⟩
  intro p i status eventType webhookId htype hstart hend htransit hsub
  have hone := announced_of_call htype hu hstart hend htransit hguard₂ hsub hcall
  exact announced_of_run htype hv hone.ge hguard₃ hafter

end Once

/-! ## Runs on the fixtures -/

theorem subscribedTo_idle (events : List String) : (subscribedTo events).Idle :=
  ⟨fun _ => rfl, fun _ => rfl⟩

/-- **A subscribed webhook is not told that the merchant cancels an invoice.** -/
theorem cancelled_unannounced :
    ∃ v, (platform testEnv 1 1).run (subscribedTo ["invoice.cancelled"]) [.system (.cancel 1 1)]
        = some v ∧
      Transit testEnv (subscribedTo ["invoice.cancelled"]) [.system (.cancel 1 1)] none
        (seedInvoice 1 99099) .cancelled ∧
      (platform testEnv 1 1).Guarded
        (fun w _ => 7 ∈ subscribers w.world.db 1 "invoice.cancelled")
        (subscribedTo ["invoice.cancelled"]) [.system (.cancel 1 1)] ∧
      announced v.world.db 7 "invoice.cancelled" 1 = 0 := by
  obtain ⟨v, hv, hstatus, hnone⟩ := (platform testEnv 1 1).exists_of_leadsTo
    (fun v => (∃ i ∈ v.world.db.invoices.rows, i.id = 1 ∧ i.status = .cancelled) ∧
      announced v.world.db 7 "invoice.cancelled" 1 = 0)
    (subscribedTo ["invoice.cancelled"]) [.system (.cancel 1 1)] (by decide +kernel)
  obtain ⟨v', hstep, hv'⟩ := (platform testEnv 1 1).run_cons.mp hv
  cases hv'
  refine ⟨v, hv, ?_, by decide +kernel, hnone⟩
  exact ⟨[], _, [], _, v, rfl, rfl, hstep, rfl, List.mem_singleton.mpr rfl, by decide, hstatus⟩

/-- A call of `autoCancelUnpaidInvoices` on the invoice, to its end. -/
def autoCancelCall : List (Request 1 1) :=
  .system (.autoCancel 0 3600000001) :: List.replicate 6 (.system (.api 0 3600000001))

theorem announced_of_guarded_run_auto_cancel :
    ∃ t, (platform testEnv 1 1).run (subscribedTo ["invoice.cancelled"]) autoCancelCall = some t ∧
      Truthful (subscribedTo ["invoice.cancelled"]).world.db t.world.db ∧
      announced t.world.db 7 "invoice.cancelled" 1 = 1 := by
  obtain ⟨t, ht, hidle⟩ := (platform testEnv 1 1).exists_of_leadsTo
    (fun t => busy t (some (.inr 0)) = false) (subscribedTo ["invoice.cancelled"]) autoCancelCall
    (by decide +kernel)
  obtain ⟨w, hstep, hstatus⟩ : ∃ w, (platform testEnv 1 1).step (subscribedTo ["invoice.cancelled"])
      (.system (.autoCancel 0 3600000001)) = some w ∧ HasStatus w.world.db 1 .cancelled := by
    obtain ⟨w, hw, hstatus⟩ := (platform testEnv 1 1).exists_of_leadsTo
      (fun w => ∃ i ∈ w.world.db.invoices.rows, i.id = 1 ∧ i.status = .cancelled)
      (subscribedTo ["invoice.cancelled"]) [.system (.autoCancel 0 3600000001)]
      (by decide +kernel)
    obtain ⟨w', hstep, hw'⟩ := (platform testEnv 1 1).run_cons.mp hw
    cases hw'
    exact ⟨w, hstep, hstatus⟩
  have hplain : ∀ a ∈ [] ++ (autoCancelCall ++ []), Plain a := by
    simp [autoCancelCall, Plain]
  have hguard : (platform testEnv 1 1).Guarded Announces (subscribedTo ["invoice.cancelled"])
      ([] ++ (autoCancelCall ++ [])) := by decide +kernel
  obtain ⟨htruth, hone⟩ := announced_of_guarded_run (subscribedTo_idle _) rfl hplain hguard rfl ht
    rfl
  refine ⟨t, ht, htruth, hone (some (.inr 0)) (seedInvoice 1 99099) .cancelled "invoice.cancelled" 7
    rfl rfl hidle ?_ (by decide +kernel)⟩
  exact ⟨[], _, _, _, w, rfl, rfl, hstep, rfl, List.mem_singleton.mpr rfl, by decide, hstatus⟩

end Stargate.Reconciler
