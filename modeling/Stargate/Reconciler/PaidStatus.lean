import Stargate.Reconciler.System

/-!
# A credited invoice is paid, unless it is taken away in between

The reconciler matches an invoice while it is pending and credits it several
statements later. Only the `UPDATE` of its status is guarded in the ledger
transaction, the ledger row and the deliveries are not: where the API cancels
or expires the invoice in between, it is credited all the same.

- `NoRace`: the API takes away no invoice that a call has matched and not yet
  committed;
- `paid_of_guarded_run`: every run of such steps keeps credited invoices paid;
- `cancelled_invoice_credited`: one step that is not of this kind is enough to
  break it.
-/

namespace Stargate.Reconciler

open Base Invoices

/-- Ledger rows and queued deliveries announce payments of paid invoices only. -/
structure PaidIfCredited (db : Db) : Prop where
  ledger : ∀ i ∈ db.invoices,
    (∃ l ∈ db.ledgerEntries, l.type = .payment ∧ l.invoiceId = i.id) → i.status = .paid
  deliveries : ∀ i ∈ db.invoices,
    (∃ d ∈ db.webhookDeliveries, ∃ eventId, d.payload = .invoicePaid i.id eventId) →
      i.status = .paid

/-- A statement of the API cancels or expires no active invoice that a call has
matched and not yet committed. -/
def NoRace {n m : Nat} (s : Sys n m) (a : Label n m) : Prop :=
  ∀ i ∈ s.world.db.invoices.rows, s.taken a i = true → i.status.active = true →
    ∀ k, (s.calls k).phase.claim.map InvoiceRow.id ≠ some i.id

instance {n m : Nat} (s : Sys n m) (a : Label n m) : Decidable (NoRace s a) :=
  inferInstanceAs (Decidable (∀ i ∈ s.world.db.invoices.rows, s.taken a i = true →
    i.status.active = true → ∀ k, (s.calls k).phase.claim.map InvoiceRow.id ≠ some i.id))

/-- What a call relies on: the invoice it is about to credit is pending or paid,
and paid if its `UPDATE` has missed. -/
def Claims (db : Db) : Phase → Prop
  | .matched inv | .recorded inv _ => Alive db inv.id
  | .crediting c (some false) => PaidIn db c.inv.id
  | .crediting c _ => Alive db c.inv.id
  | _ => True

/-- The invariant of a run. -/
structure PaidInv {n m : Nat} (s : Sys n m) : Prop where
  sound : s.Sound
  ledger : ∀ l ∈ s.world.db.ledgerEntries, l.type = .payment → PaidIn s.world.db l.invoiceId
  deliveries : ∀ d ∈ s.world.db.webhookDeliveries, ∀ id eventId,
    d.payload = .invoicePaid id eventId → PaidIn s.world.db id
  claims : ∀ k, Claims s.world.db (s.calls k).phase

section Steps

variable {n m : Nat} {env : Env} {db db' : Db}

theorem Claims.follow {relied : Uuid → Prop} (h : Follows db db' relied) {ph : Phase}
    (hrel : ∀ inv, ph.claim = some inv → relied inv.id) (hc : Claims db ph) :
    Claims db' ph := by
  match ph, hc with
  | .matched inv, hc => exact h.alive _ (hrel inv rfl) hc
  | .recorded inv _, hc => exact h.alive _ (hrel inv rfl) hc
  | .crediting c none, hc => exact h.alive _ (hrel c.inv rfl) hc
  | .crediting c (some true), hc => exact h.alive _ (hrel c.inv rfl) hc
  | .crediting c (some false), hc => exact h.paid _ hc
  | .idle, _ => trivial
  | .searching, _ => trivial
  | .logging, _ => trivial
  | .finishing, _ => trivial
  | .returned _, _ => trivial

/-- After the `COMMIT` of a call that relied on its invoice, the invoice is paid. -/
theorem paidIn_commitCredit {c : Credit} {updated : Bool} {hooks : List Uuid}
    (h : Claims db (.crediting c (some updated))) :
    PaidIn (commitCredit db c updated hooks) c.inv.id := by
  cases updated with
  | false => exact (follows_commitCredit fun _ => True).paid _ h
  | true =>
    obtain ⟨i, hi, hid, -⟩ := h
    refine ⟨_, mem_invoices_commitCredit.mpr ⟨i, hi, rfl⟩, ?_⟩
    rw [if_pos ⟨rfl, hid⟩]
    exact ⟨hid, rfl⟩

/-- A statement of a call keeps what the call relies on. -/
theorem claims_phaseStep {now : Timestamp} {locked : Uuid → Bool} {payment : HorizonPayment}
    {w w' : World} {ph ph' : Phase} (hc : Claims w.db ph)
    (hstep : PhaseStep env now locked payment w ph w' ph') : Claims w'.db ph' := by
  cases hstep with
  | found hi hp => exact ⟨_, hi, rfl, .inl hp⟩
  | record hins =>
    have hf : Follows w.db _ fun _ => True := .of_invoices (insertPaymentEvent_same hins).1
    exact hf.alive _ trivial hc
  | begin => exact hc
  | write => exact hc
  | lock => exact hc
  | miss hmiss =>
    -- the `UPDATE` misses only if the invoice is already paid
    obtain ⟨i, hi, hid, hp | hp⟩ := hc
    · exact absurd hp (hmiss i hi hid)
    · exact ⟨i, hi, hid, hp⟩
  | look | reject | skip | log | commit | publish | finish | fail => trivial

/-- Ledger and deliveries grow only by the credit of a call that relies on its
invoice. -/
theorem paid_phaseStep {now : Timestamp} {locked : Uuid → Bool} {payment : HorizonPayment}
    {w w' : World} {ph ph' : Phase} (hc : Claims w.db ph)
    (hstep : PhaseStep env now locked payment w ph w' ph')
    (hledger : ∀ l ∈ w.db.ledgerEntries, l.type = .payment → PaidIn w.db l.invoiceId)
    (hdeliveries : ∀ d ∈ w.db.webhookDeliveries, ∀ id eventId,
      d.payload = .invoicePaid id eventId → PaidIn w.db id) :
    (∀ l ∈ w'.db.ledgerEntries, l.type = .payment → PaidIn w'.db l.invoiceId) ∧
      ∀ d ∈ w'.db.webhookDeliveries, ∀ id eventId,
        d.payload = .invoicePaid id eventId → PaidIn w'.db id := by
  have hfollows := follows_phaseStep (fun _ => True) hstep
  cases hstep with
  | look hdb => rw [hdb]; exact ⟨hledger, hdeliveries⟩
  | reject hdb => rw [hdb]; exact ⟨hledger, hdeliveries⟩
  | log hins =>
    obtain ⟨-, e, -, -, -, -, hdb⟩ := insertPaymentEvent_some hins
    rw [hdb] at hfollows ⊢
    exact ⟨fun l hl ht => hfollows.paid _ (hledger l hl ht),
      fun d hd id ev he => hfollows.paid _ (hdeliveries d hd id ev he)⟩
  | record hins =>
    obtain ⟨-, e, -, -, -, -, hdb⟩ := insertPaymentEvent_some hins
    rw [hdb] at hfollows ⊢
    exact ⟨fun l hl ht => hfollows.paid _ (hledger l hl ht),
      fun d hd id ev he => hfollows.paid _ (hdeliveries d hd id ev he)⟩
  | commit c updated hooks =>
    refine ⟨fun l hl ht => ?_, fun d hd id ev he => ?_⟩
    · rcases mem_ledger_commitCredit.mp hl with hl | rfl
      · exact hfollows.paid _ (hledger l hl ht)
      · exact paidIn_commitCredit hc
    · rcases List.mem_append.mp hd with hd | hd
      · exact hfollows.paid _ (hdeliveries d hd id ev he)
      · obtain ⟨hook, -, rfl⟩ := List.mem_map.mp hd
        cases he
        exact paidIn_commitCredit hc
  | skip | found | begin | write | lock | miss | publish | finish | fail =>
    exact ⟨hledger, hdeliveries⟩

/-- A step that leaves ledger and deliveries, but for honest ones, as they are. -/
theorem PaidInv.of_follows {s s' : Sys n m} {relied : Uuid → Prop} (h : PaidInv s)
    (hsound : s'.Sound) (hf : Follows s.world.db s'.world.db relied)
    (hledger : s'.world.db.ledgerEntries = s.world.db.ledgerEntries)
    (hdeliveries : ∀ d ∈ s'.world.db.webhookDeliveries, d ∈ s.world.db.webhookDeliveries ∨
      ∀ id eventId, d.payload ≠ .invoicePaid id eventId)
    (hclaims : ∀ k, Claims s'.world.db (s'.calls k).phase) : PaidInv s' where
  sound := hsound
  ledger l hl ht := hf.paid _ (h.ledger l (hledger ▸ hl) ht)
  deliveries d hd id ev he := by
    rcases hdeliveries d hd with hd | hd
    · exact hf.paid _ (h.deliveries d hd id ev he)
    · exact absurd he (hd id ev)
  claims := hclaims

theorem PaidInv.of_world {s s' : Sys n m} (h : PaidInv s) (hsound : s'.Sound)
    (hdb : s'.world.db = s.world.db) (hclaims : ∀ k, Claims s'.world.db (s'.calls k).phase) :
    PaidInv s' :=
  ⟨hsound, by rw [hdb]; exact h.ledger, by rw [hdb]; exact h.deliveries, hclaims⟩

/-- One step that is no race keeps the invariant. -/
theorem paidInv_step {s s' : Sys n m} {a : Label n m} (h : PaidInv s) (hno : NoRace s a)
    (hstep : (system env n m).step s a = some s') : PaidInv s' := by
  obtain ⟨heffect, hsound⟩ := step_effect h.sound hstep
  -- a call that moves to a phase without claim relies on nothing
  have hupdate : ∀ (k : Fin n) (c : Call), Claims s'.world.db c.phase →
      (∀ j, Claims s'.world.db (s.calls j).phase) → s'.calls = Function.update s.calls k c →
      ∀ j, Claims s'.world.db (s'.calls j).phase := by
    intro k c hc hold hcalls j
    rw [hcalls]
    by_cases hj : j = k
    · rw [hj, Function.update_self]
      exact hc
    · rw [Function.update_of_ne hj]
      exact hold j
  cases heffect with
  | deliver k payment hidle hw hcalls =>
    exact h.of_world hsound (congrArg World.db hw) (hupdate k (.running payment .eventExists)
      trivial (fun j => hw ▸ h.claims j) hcalls)
  | @abort k payment pc hrun hw hcalls =>
    exact h.of_world hsound (congrArg World.db hw) (hupdate k (.returned payment false)
      trivial (fun j => hw ▸ h.claims j) hcalls)
  | redis key value hdb hredis hcalls =>
    exact h.of_world hsound hdb fun k => by
      rw [hcalls, hdb]
      exact h.claims k
  | exec k now hrun hexec hcalls =>
    have hphase := exec_phaseStep hexec
    have hclaim := h.claims k
    rw [hrun] at hclaim
    obtain ⟨hledger, hdeliveries⟩ := paid_phaseStep hclaim hphase h.ledger h.deliveries
    refine ⟨hsound, hledger, hdeliveries, hupdate k _ ?_ (fun j => ?_) hcalls⟩
    · rw [Next.phase_call]
      exact claims_phaseStep hclaim hphase
    · exact (h.claims j).follow (follows_phaseStep (fun _ => True) hphase) fun _ _ => trivial
  | create hpending hnew hmem hdb hredis hcalls =>
    have hf : Follows s.world.db s'.world.db fun _ => True :=
      ⟨fun id ⟨i, hi, hrest⟩ => ⟨i, (hmem i).mpr (.inl hi), hrest⟩,
        fun id _ ⟨i, hi, hrest⟩ => ⟨i, (hmem i).mpr (.inl hi), hrest⟩⟩
    refine h.of_follows hsound hf (by rw [hdb]) (fun d hd => .inl (by rw [hdb] at hd; exact hd))
      fun k => ?_
    rw [hcalls]
    exact (h.claims k).follow hf fun _ _ => trivial
  | api hsys self hself heff hredis hcalls =>
    -- the invoices that calls rely on
    let relied : Uuid → Prop := fun id =>
      ∃ k, (s.calls k).phase.claim.map InvoiceRow.id = some id
    have hf : Follows s.world.db s'.world.db relied :=
      follows_apiEffect relied heff fun i hi htaken hact ⟨k, hk⟩ => hno i hi htaken hact k hk
    refine h.of_follows hsound hf heff.ledger heff.deliveries fun k => ?_
    rw [hcalls]
    exact (h.claims k).follow hf fun inv hinv => ⟨k, by rw [hinv]; rfl⟩

/-- **No credit without a paid invoice, in runs without races.** From a state
without credits, every run in which the API takes away no invoice that a call
has matched keeps every credited invoice paid. -/
theorem paid_of_guarded_run {s t : Sys n m} {run : List (Label n m)} (hidle : s.Idle)
    (hledger : s.world.db.ledgerEntries = .empty) (hdeliveries : s.world.db.webhookDeliveries = [])
    (hguard : (system env n m).Guarded NoRace s run)
    (hrun : (system env n m).run s run = some t) : PaidIfCredited t.world.db := by
  have hinit : PaidInv s :=
    { sound := hidle.sound
      ledger := fun l hl => by
        rw [hledger] at hl
        cases hl
      deliveries := fun d hd => by
        rw [hdeliveries] at hd
        cases hd
      claims := fun k => by
        rw [hidle.calls]
        trivial }
  have h := (system env n m).inv_of_guarded_run (fun _ _ _ => paidInv_step) hinit hguard hrun
  exact
    { ledger := fun i hi ⟨l, hl, ht, hid⟩ => (hid ▸ h.ledger l hl ht).status hi
      deliveries := fun i hi ⟨d, hd, ev, he⟩ => (h.deliveries d hd i.id ev he).status hi }

end Steps

/-- The API cancels the invoice before statement `k` of the call that credits it. -/
def cancelledBefore (k : Nat) : List (Label 1 1) :=
  .deliver 0 (fullPayment "token_happy_001") :: execs k ++ .cancel 1 1 :: execs (13 - k)

/-- After the call the cancellation finds nothing to cancel. -/
theorem paid_of_guarded_run_late_cancel :
    ∃ t, (system testEnv 1 1).run onePending (cancelledBefore 13) = some t ∧
      t.world.db.ledgerEntries.rows.length = 1 ∧ PaidIfCredited t.world.db := by
  obtain ⟨t, ht, hlen⟩ := (system testEnv 1 1).exists_of_leadsTo
    (fun t => t.world.db.ledgerEntries.rows.length = 1) onePending (cancelledBefore 13)
    (by decide +kernel)
  exact ⟨t, ht, hlen, paid_of_guarded_run ⟨fun _ => rfl, fun _ => rfl⟩ rfl rfl
    (by decide +kernel) ht⟩

/-- **A cancelled invoice is credited** where the cancellation falls between the
match and the ledger transaction. -/
theorem cancelled_invoice_credited :
    ∃ t, (system testEnv 1 1).run onePending (cancelledBefore 4) = some t ∧
      t.calls 0 = .returned (fullPayment "token_happy_001") true ∧
      ¬ PaidIfCredited t.world.db := by
  obtain ⟨t, ht, hdone, i, hi, hs, l, hl, hpays⟩ := (system testEnv 1 1).exists_of_leadsTo
    (fun t => t.calls 0 = .returned (fullPayment "token_happy_001") true ∧
      ∃ i ∈ t.world.db.invoices.rows, i.status = .cancelled ∧
        ∃ l ∈ t.world.db.ledgerEntries.rows, l.type = .payment ∧ l.invoiceId = i.id)
    onePending (cancelledBefore 4) (by decide +kernel)
  refine ⟨t, ht, hdone, fun hpaid => ?_⟩
  have := hpaid.ledger i hi ⟨l, hl, hpays⟩
  rw [hs] at this
  cases this

end Stargate.Reconciler
