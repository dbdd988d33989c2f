import Stargate.Invoices.Refunds
import Stargate.Reconciler.SerialBooks
import Stargate.Settlement.ClaimedRows

/-!
# Refunded money is settled all the same

Payments are credited to the ledger, refunds leave it alone, and settlements pay out
what is in it. `flow` runs whole calls of the three one after the other. A refunded
invoice stays paid, so what the ledger holds of it stays as it was: nothing, if its
net amount is zero, and otherwise money that a settlement pays out.
-/

namespace Stargate.Settlements

open Base

/-- A whole call. -/
inductive Movement where
  | processPayment (now : Timestamp) (payment : Reconciler.HorizonPayment)
  | refund (sent : Option String) (refundId merchantId id : Uuid)
  /-- `createDailySettlements`, by its statements. -/
  | settle (steps : List (Label 1))

def Label.isCredit {n : Nat} : Label n → Bool
  | .credit .. => true
  | _ => false

def Call.isRunning : Call → Bool
  | .running .. => true
  | _ => false

/-- A call of `createDailySettlements`, from its start to its end. -/
def settle (db : Db) (steps : List (Label 1)) : Option Db :=
  if steps.any Label.isCredit then none
  else ((system 1).run { db } steps).bind fun s =>
    if (s.calls 0).isRunning then none else some s.db

/-- One call after the other. -/
def flow (env : Reconciler.Env) (renv : Refunds.RefundEnv) : Lts Reconciler.World Movement where
  step w
    | .processPayment now payment => some (Reconciler.processPayment env now w payment).1
    | .refund sent refundId merchantId id =>
      some { w with db := (Refunds.refund renv sent refundId w.db merchantId id).2 }
    | .settle steps => (settle w.db steps).map fun db => { w with db }

/-- What is settled or awaits settlement of an invoice: `SUM(net_usdc)` over its
ledger rows. -/
def outstanding (db : Db) (invoiceId : Uuid) : Int :=
  db.ledgerEntries.sumOf (fun l => l.invoiceId == invoiceId) net

/-- Ledger rows are of invoices that are no longer pending, one for each. -/
structure OneEntry (db : Db) : Prop where
  stored : ∀ l ∈ db.ledgerEntries, ∃ i ∈ db.invoices, i.id = l.invoiceId ∧ i.status ≠ .pending
  single : ∀ l ∈ db.ledgerEntries, ∀ l' ∈ db.ledgerEntries, l.invoiceId = l'.invoiceId → l = l'

/-! ## What the calls do -/

/-- A ledger row without its claim. -/
def unsettled (l : LedgerEntry) : LedgerEntry := { l with settlementId := none }

/-- But for claims, ledger and invoices are the same. -/
structure SameMoney (db db' : Db) : Prop where
  invoices : db'.invoices = db.invoices
  ledger : db'.ledgerEntries.rows.map unsettled = db.ledgerEntries.rows.map unsettled

theorem SameMoney.refl (db : Db) : SameMoney db db := ⟨rfl, rfl⟩

theorem SameMoney.trans {a b c : Db} (h : SameMoney a b) (h' : SameMoney b c) : SameMoney a c :=
  ⟨h'.invoices.trans h.invoices, h'.ledger.trans h.ledger⟩

section Calls

variable {db db' : Db} {pc : Pc} {call : Call} {rows : List MerchantRow} {id : Uuid}
  {rowCount : Nat} {tx : Tx} {env : Reconciler.Env} {renv : Refunds.RefundEnv}
  {w w' : Reconciler.World}

theorem sameMoney_commit (h : commitSettlement db tx = some db') : SameMoney db db' := by
  have hledger := (commitSettlement_some h).2
  obtain ⟨settlements, -, rfl⟩ := Option.map_eq_some_iff.mp h
  refine ⟨rfl, ?_⟩
  rw [hledger, Table.modify, List.map_map]
  refine List.map_congr_left fun l _ => ?_
  simp only [Function.comp]
  split <;> rfl

theorem sameMoney_exec {l : Locks} (h : exec l rows id db rowCount pc = some (db', call)) :
    SameMoney db db' := by
  by_cases hcommit : ∃ tx rest, pc = .commit tx rest
  · obtain ⟨tx, rest, rfl⟩ := hcommit
    obtain ⟨db₁, hdb, heq⟩ := Option.map_eq_some_iff.mp h
    cases heq
    exact sameMoney_commit hdb
  · by_cases hclaim : ∃ x cleared rest, pc = .claimEntries x cleared rest
    · obtain ⟨x, cleared, rest, rfl⟩ := hclaim
      simp only [exec] at h
      split at h
      · cases h
      · cases h
        exact .refl db
    · obtain ⟨rfl, -⟩ := exec_claims_nothing (fun tx rest heq => hcommit ⟨tx, rest, heq⟩)
        (fun x cleared rest heq => hclaim ⟨x, cleared, rest, heq⟩) h
      exact .refl db'

/-- A settlement moves no money of its own. -/
theorem sameMoney_settle {steps : List (Label 1)} (h : settle db steps = some db') :
    SameMoney db db' := by
  unfold settle at h
  split at h
  · cases h
  · next hcredit =>
    obtain ⟨s, hrun, hs⟩ := Option.bind_eq_some_iff.mp h
    split at hs
    · cases hs
    · cases hs
      have hguard : (system 1).Guarded (fun _ a => Label.isCredit a = false) { db } steps :=
        (system 1).guarded_of_forall fun _ a ha =>
          Bool.not_eq_true _ ▸ fun hc => hcredit (List.any_eq_true.mpr ⟨a, ha, hc⟩)
      refine (system 1).inv_of_guarded_run (I := fun s => SameMoney db s.db) ?_ (.refl db)
        hguard hrun
      intro s a s' hs hok hstep
      cases a with
      | start k =>
        simp only [system] at hstep
        split at hstep
        · cases hstep
        · cases hstep
          exact hs
      | exec k rows id =>
        simp only [system] at hstep
        split at hstep
        · obtain ⟨⟨db₁, call⟩, hexec, hs'⟩ := Option.map_eq_some_iff.mp hstep
          cases hs'
          exact hs.trans (sameMoney_exec hexec)
        · cases hstep
      | abort k =>
        simp only [system] at hstep
        split at hstep
        · cases hstep
          exact hs
        · cases hstep
      | credit c updated hooks => cases hok

/-- A refund writes nothing but its own row. -/
theorem sameMoney_refund (sent : Option String) (refundId merchantId id : Uuid) (db : Db) :
    SameMoney db (Refunds.refund renv sent refundId db merchantId id).2 := by
  unfold Refunds.refund Refunds.insertRefund
  repeat' split
  all_goals exact ⟨rfl, rfl⟩

/-- **What a call does to the money**: it credits a pending invoice, or nothing. -/
theorem flow_cases {a : Movement} (h : (flow env renv).step w a = some w') :
    SameMoney w.db w'.db ∨ ∃ c i, i ∈ w.db.invoices ∧ i.id = c.inv.id ∧ i.status = .pending ∧
      Reconciler.CreditedBy c w w' := by
  cases a with
  | processPayment now payment =>
    cases h
    obtain ⟨-, hbooks, -⟩ :=
      Reconciler.solo_inv (Reconciler.solo_processPayment env now w payment)
    rcases hbooks.returned true with hsame | ⟨c, hcredit, -, hdue⟩
    · exact .inl ⟨hsame.invoices, by rw [hsame.ledger]⟩
    · obtain ⟨i, hi, hof, hp, -⟩ := hdue.exists_pending
      exact .inr ⟨c, i, hi, by rw [hof]; rfl, hp, hcredit⟩
  | refund sent refundId merchantId id =>
    cases h
    exact .inl (sameMoney_refund sent refundId merchantId id w.db)
  | settle steps =>
    obtain ⟨db, hsettle, rfl⟩ := Option.map_eq_some_iff.mp h
    exact .inl (sameMoney_settle hsettle)

end Calls

/-! ## What the ledger holds of an invoice -/

section Ledger

variable {db db' : Db} {id : Uuid} {w w' : Reconciler.World} {env : Reconciler.Env}
  {renv : Refunds.RefundEnv}

theorem outstanding_eq (db : Db) (id : Uuid) :
    outstanding db id = (((db.ledgerEntries.rows.map unsettled).filter fun l =>
      l.invoiceId == id).map net).sum := by
  rw [List.filter_map, List.map_map]
  rfl

theorem SameMoney.outstanding (h : SameMoney db db') : outstanding db' id = outstanding db id := by
  rw [outstanding_eq, h.ledger, ← outstanding_eq]

/-- A ledger row is that of before, but for its claim. -/
theorem SameMoney.exists_row (h : SameMoney db db') {l : LedgerEntry}
    (hl : l ∈ db'.ledgerEntries) :
    ∃ l₀ ∈ db.ledgerEntries, l₀.id = l.id ∧ l₀.invoiceId = l.invoiceId := by
  have hmem : unsettled l ∈ db.ledgerEntries.rows.map unsettled :=
    h.ledger ▸ List.mem_map_of_mem hl
  obtain ⟨l₀, hl₀, heq⟩ := List.mem_map.mp hmem
  have hid := congrArg LedgerEntry.id heq
  have hinvoice := congrArg LedgerEntry.invoiceId heq
  exact ⟨l₀, hl₀, hid, hinvoice⟩

theorem OneEntry.sameMoney (hdb : OneEntry db) (h : SameMoney db db') : OneEntry db' where
  stored l hl := by
    obtain ⟨l₀, hl₀, -, hinvoice⟩ := h.exists_row hl
    obtain ⟨i, hi, hid, hs⟩ := hdb.stored l₀ hl₀
    exact ⟨i, h.invoices ▸ hi, hid.trans hinvoice, hs⟩
  single l hl l' hl' heq := by
    obtain ⟨l₀, hl₀, hid₀, h₀⟩ := h.exists_row hl
    obtain ⟨l₁, hl₁, hid₁, h₁⟩ := h.exists_row hl'
    obtain rfl := hdb.single l₀ hl₀ l₁ hl₁ (h₀.trans (heq.trans h₁.symm))
    exact Table.eq_of_conflict hl hl' (hid₀.symm.trans hid₁)

/-- The credited invoice was pending: it had no row. -/
theorem OneEntry.credited (hw : OneEntry w.db) {c : Reconciler.Credit} {i : Invoice}
    (hi : i ∈ w.db.invoices) (hid : i.id = c.inv.id) (hpending : i.status = .pending)
    (h : Reconciler.CreditedBy c w w') : OneEntry w'.db := by
  have hmem : ∀ l, l ∈ w'.db.ledgerEntries ↔
      l ∈ w.db.ledgerEntries ∨ l = c.entry w.db.ledgerEntries.nextId := fun l => by
    rw [← Table.mem_rows, h.ledger, List.mem_append, List.mem_singleton]
    exact Iff.rfl
  have hpaid : ∀ j ∈ w.db.invoices, j.id = c.inv.id → c.markPaid j ∈ w'.db.invoices :=
    fun j hj hjid => by
      rw [← Table.mem_rows, h.invoices]
      exact List.mem_map.mpr ⟨j, hj, if_pos hjid⟩
  have hnew : ∀ l ∈ w.db.ledgerEntries, l.invoiceId ≠ c.inv.id := fun l hl heq => by
    obtain ⟨j, hj, hjid, hs⟩ := hw.stored l hl
    obtain rfl := Table.eq_of_conflict hj hi (.inl (hjid.trans (heq.trans hid.symm)))
    exact hs hpending
  refine ⟨fun l hl => ?_, fun l hl l' hl' heq => ?_⟩
  · rcases (hmem l).mp hl with hl | rfl
    · obtain ⟨j, hj, hjid, hs⟩ := hw.stored l hl
      refine ⟨j, ?_, hjid, hs⟩
      rw [← Table.mem_rows, h.invoices]
      refine List.mem_map.mpr ⟨j, hj, if_neg fun hc => hnew l hl (hjid.symm.trans hc)⟩
    · exact ⟨c.markPaid i, hpaid i hi hid, hid, nofun⟩
  · rcases (hmem l).mp hl with hl | rfl <;> rcases (hmem l').mp hl' with hl' | rfl
    · exact hw.single l hl l' hl' heq
    · exact absurd heq (hnew l hl)
    · exact absurd heq.symm (hnew l' hl')
    · rfl

theorem oneEntry_of_step {a : Movement} (hw : OneEntry w.db)
    (h : (flow env renv).step w a = some w') : OneEntry w'.db := by
  rcases flow_cases h with hsame | ⟨c, i, hi, hid, hpending, hcredit⟩
  · exact hw.sameMoney hsame
  · exact hw.credited hi hid hpending hcredit

/-- The invoice is paid. -/
def IsPaid (id : Uuid) (db : Db) : Prop := ∃ i ∈ db.invoices, i.id = id ∧ i.status = .paid

/-- **A paid invoice gets no more ledger rows**, and stays paid. -/
theorem outstanding_of_step {a : Movement} (hpaid : IsPaid id w.db)
    (h : (flow env renv).step w a = some w') :
    IsPaid id w'.db ∧ outstanding w'.db id = outstanding w.db id := by
  obtain ⟨i, hi, hid, hs⟩ := hpaid
  rcases flow_cases h with hsame | ⟨c, j, hj, hjid, hpending, hcredit⟩
  · exact ⟨⟨i, hsame.invoices ▸ hi, hid, hs⟩, hsame.outstanding⟩
  · have hne : c.inv.id ≠ id := fun heq => by
      obtain rfl := Table.eq_of_conflict hi hj (.inl (hid.trans (heq.symm.trans hjid.symm)))
      rw [hs] at hpending
      cases hpending
    refine ⟨⟨i, ?_, hid, hs⟩, ?_⟩
    · rw [← Table.mem_rows, hcredit.invoices]
      exact List.mem_map.mpr ⟨i, hi, if_neg fun hc => hne (hc.symm.trans hid)⟩
    · have hentry : ((c.entry w.db.ledgerEntries.nextId).invoiceId == id) = false :=
        beq_eq_false_iff_ne.mpr hne
      rw [outstanding, Table.sumOf, hcredit.ledger, List.filter_append]
      simp [hentry, outstanding, Table.sumOf]

/-- The sum over one row. -/
theorem outstanding_of_mem (hdb : OneEntry db) {l : LedgerEntry} (hl : l ∈ db.ledgerEntries) :
    outstanding db l.invoiceId = l.netUsdc.units := by
  have hnodup : db.ledgerEntries.rows.Nodup :=
    db.ledgerEntries.unique.imp fun hne heq => hne (congrArg LedgerEntry.id heq)
  have hfilter : (db.ledgerEntries.rows.filter fun l' => l'.invoiceId == l.invoiceId)
      = db.ledgerEntries.rows.filter fun l' => l' == l :=
    List.filter_congr fun l' hl' => by
      rw [Bool.eq_iff_iff, beq_iff_eq, beq_iff_eq]
      exact ⟨fun heq => hdb.single l' hl' l hl heq, fun heq => heq ▸ rfl⟩
  rw [outstanding, Table.sumOf, hfilter, List.filter_beq,
    List.count_eq_one_of_mem hnodup (Table.mem_rows.mpr hl)]
  simp [net]

/-- A refund that succeeds is one of a paid invoice. -/
theorem isPaid_of_refund {sent : Option String} {refundId merchantId : Uuid} {r : Refund}
    (h : (Refunds.refund renv sent refundId db merchantId id).1 = .ok r) : IsPaid id db := by
  unfold Refunds.refund Refunds.findInvoice at h
  cases hfind : db.invoices.find? fun i => i.id == id && i.merchantId == merchantId with
  | none =>
    rw [hfind] at h
    cases h
  | some invoice =>
    obtain ⟨hinvoice, hp⟩ := Table.find?_some hfind
    rw [hfind] at h
    simp only [Bool.and_eq_true, beq_iff_eq] at hp
    by_cases hs : invoice.status = .paid
    · exact ⟨invoice, hinvoice, hp.1, hs⟩
    · simp only [ne_eq, hs, not_false_eq_true, if_true] at h
      cases h

/-- **What is settled of a refunded invoice.** In every run of payments, refunds and
settlements: where an invoice with a ledger row is refunded, what is settled or awaits
settlement of it adds up to zero in a later state if and only if its net amount is
zero. -/
theorem outstanding_eq_zero_iff {w s t : Reconciler.World} {as bs : List Movement}
    {sent : Option String} {refundId merchantId : Uuid} {r : Refund} {l : LedgerEntry}
    (hw : OneEntry w.db) (hs : (flow env renv).run w as = some s) (hl : l ∈ s.db.ledgerEntries)
    (hinvoice : l.invoiceId = id)
    (hrefund : (Refunds.refund renv sent refundId s.db merchantId id).1 = .ok r)
    (ht : (flow env renv).run s (.refund sent refundId merchantId id :: bs) = some t) :
    outstanding t.db id = 0 ↔ l.netUsdc.units = 0 := by
  have hone : OneEntry s.db := (flow env renv).inv_of_run (I := fun w => OneEntry w.db)
    (fun _ _ _ => oneEntry_of_step) hw hs
  have hlast := (flow env renv).inv_of_run
    (I := fun u => IsPaid id u.db ∧ outstanding u.db id = outstanding s.db id)
    (fun u a u' hu hstep => by
      obtain ⟨hpaid, heq⟩ := outstanding_of_step hu.1 hstep
      exact ⟨hpaid, heq.trans hu.2⟩)
    ⟨isPaid_of_refund hrefund, rfl⟩ ht
  rw [hlast.2, ← hinvoice, outstanding_of_mem hone hl]

end Ledger

/-! ## A run on the fixtures -/

/-- Merchant 1 with an address, and a pending invoice. -/
def pendingWorld : Reconciler.World where
  db := { Refunds.paidDb with
    invoices := (Reconciler.seedDb (Reconciler.seedInvoice 1 99099)).invoices }

/-- The invoice is paid. -/
def payment : List Movement :=
  [.processPayment 0 (Reconciler.makePayment "token_1" "M99099" "10.5000000")]

/-- It is refunded, and the day is settled. -/
def refundAndSettle : List Movement :=
  [.refund (some "hash") 7 1 1, .settle (.start 0 :: execs 0 8 7)]

/-- Does the refund succeed, and is the ledger row unsettled? -/
def Refundable (w : Reconciler.World) : Prop :=
  (Refunds.refund Refunds.testEnv (some "hash") 7 w.db 1 1).1.toOption.isSome ∧
    ∃ l ∈ w.db.ledgerEntries.rows, l.invoiceId = 1 ∧ l.settlementId = none

instance decidableRefundable : DecidablePred Refundable :=
  fun _ => inferInstanceAs (Decidable (_ ∧ _))

theorem exists_refundable :
    ∃ s r l, (flow Reconciler.testEnv Refunds.testEnv).run pendingWorld payment = some s ∧
      (Refunds.refund Refunds.testEnv (some "hash") 7 s.db 1 1).1 = .ok r ∧
      l ∈ s.db.ledgerEntries ∧ l.invoiceId = 1 ∧ l.settlementId = none := by
  obtain ⟨s, hs, hok, l, hl, hinvoice, hunsettled⟩ :=
    (flow Reconciler.testEnv Refunds.testEnv).exists_of_leadsTo Refundable pendingWorld payment
      (by decide +kernel)
  cases hr : (Refunds.refund Refunds.testEnv (some "hash") 7 s.db 1 1).1 with
  | error e =>
    rw [hr] at hok
    cases hok
  | ok r => exact ⟨s, r, l, hs, hr, hl, hinvoice, hunsettled⟩

theorem outstanding_eq_zero_iff_settled :
    ∃ s t l, (flow Reconciler.testEnv Refunds.testEnv).run pendingWorld payment = some s ∧
      (flow Reconciler.testEnv Refunds.testEnv).run s refundAndSettle = some t ∧
      l ∈ s.db.ledgerEntries ∧ (outstanding t.db 1 = 0 ↔ l.netUsdc.units = 0) := by
  obtain ⟨s, r, l, hs, hr, hl, hinvoice, -⟩ := exists_refundable
  obtain ⟨t, hrun, -⟩ := (flow Reconciler.testEnv Refunds.testEnv).exists_of_leadsTo
    (fun _ => True) pendingWorld (payment ++ refundAndSettle) (by decide +kernel)
  obtain ⟨s', hs', ht⟩ := (Lts.run_append _).mp hrun
  obtain rfl := Option.some.inj (hs.symm.trans hs')
  have hnone : OneEntry pendingWorld.db :=
    ⟨fun l hl => absurd hl List.not_mem_nil, fun l hl => absurd hl List.not_mem_nil⟩
  exact ⟨s, t, l, hs, ht, hl, outstanding_eq_zero_iff hnone hs hl hinvoice hr ht⟩

/-- **A refunded invoice that is paid out**: 9.5 USDC of it are settled to the
merchant after the refund. -/
theorem refund_paid_out :
    ∃ s t r l, (flow Reconciler.testEnv Refunds.testEnv).run pendingWorld payment = some s ∧
      (Refunds.refund Refunds.testEnv (some "hash") 7 s.db 1 1).1 = .ok r ∧
      l ∈ s.db.ledgerEntries ∧ l.invoiceId = 1 ∧ l.settlementId = none ∧
      (flow Reconciler.testEnv Refunds.testEnv).run s refundAndSettle = some t ∧
      outstanding t.db 1 = 95000000 ∧
      ∃ x ∈ t.db.settlements, x.merchantId = 1 ∧ x.amountUsdc.units = 95000000 := by
  obtain ⟨s, r, l, hs, hr, hl, hinvoice, hunsettled⟩ := exists_refundable
  obtain ⟨t, hrun, hout, hx⟩ := (flow Reconciler.testEnv Refunds.testEnv).exists_of_leadsTo
    (fun t => outstanding t.db 1 = 95000000 ∧
      ∃ x ∈ t.db.settlements.rows, x.merchantId = 1 ∧ x.amountUsdc.units = 95000000)
    pendingWorld (payment ++ refundAndSettle) (by decide +kernel)
  obtain ⟨s', hs', ht⟩ := (Lts.run_append _).mp hrun
  obtain rfl := Option.some.inj (hs.symm.trans hs')
  exact ⟨s, t, r, l, hs, hr, hl, hinvoice, hunsettled, ht, hout, hx⟩

end Stargate.Settlements
