import Stargate.Base.Transition
import Stargate.Invoices.Bookkeeping
import Stargate.Invoices.WholeCalls
import Stargate.Reconciler.CreditSoundness

/-!
# The two ways to be paid

An invoice is marked paid by `process_payment`, which writes a ledger row, or by
`applyPartialPayment`, which brings the remaining balance to zero. Neither does what
the other does, even if no two calls ever overlap: `serial` runs whole calls one after
the other, and `agree_of_run` says that status, balance and ledger agree exactly on
the invoices that are not paid.
-/

namespace Stargate.Reconciler

open Base Invoices

/-- A call of one of the services. -/
inductive Operation where
  | create (now : Timestamp) (id merchantId : Uuid) (input : CreateInput) (key : Option String)
  | applyPartialPayment (now : Timestamp) (invoiceId : Uuid) (paidAmount : String)
  | processPayment (now : Timestamp) (payment : HorizonPayment)
  | cancel (merchantId id : Uuid)
  | expireInvoices (now : Timestamp)
  | autoCancelUnpaidInvoices (now : Timestamp)

/-- One call after the other. -/
def serial (env : Env) (cenv : CreateEnv) : Lts World Operation where
  step w
    | .create now id merchantId input key =>
      some { w with db := (Invoices.create cenv now id w.db merchantId input key).2 }
    | .applyPartialPayment now invoiceId paidAmount =>
      some { w with db := (Invoices.applyPartialPayment now w.db invoiceId paidAmount).2 }
    | .processPayment now payment => some (Reconciler.processPayment env now w payment).1
    | .cancel merchantId id => some { w with db := (Invoices.cancel w.db merchantId id).2 }
    | .expireInvoices now => some { w with db := Invoices.expireInvoices now w.db }
    | .autoCancelUnpaidInvoices now =>
      some { w with db := Invoices.autoCancelUnpaidInvoices now w.db }

/-- A ledger row of type `'payment'` exists for the invoice. -/
def HasPayment (db : Db) (i : Invoice) : Prop :=
  ∃ l ∈ db.ledgerEntries, l.invoiceId = i.id ∧ l.type = .payment

/-- Status, remaining balance and ledger say the same of an invoice. -/
structure Agree (db : Db) (i : Invoice) : Prop where
  remaining : i.status = .paid ↔ i.amountRemainingUsdc.units = 0
  ledger : i.status = .paid ↔ HasPayment db i

/-- The call pays an invoice: it gets a payment that is due and new, or an amount that
is all that remains. -/
def Pays (env : Env) (w : World) : Operation → Prop
  | .processPayment _ payment => hasEvent w.db payment.pagingToken = false ∧
      ∃ inv, Due env (Screened env w payment) w.db payment inv
  | .applyPartialPayment _ invoiceId paidAmount => ∃ i ∈ w.db.invoices, i.id = invoiceId ∧
      i.status.active = true ∧ partialRemaining i paidAmount = .ok 0
  | _ => False

/-- What a call may do to an invoice, short of crediting it. -/
inductive Touched (pays : Prop) (i : Invoice) : Invoice → Prop
  | same : Touched pays i i
  | closed {s : InvoiceStatus} (hactive : i.status.active = true) (hs : s ≠ .paid) :
      Touched pays i { i with status := s }
  | applied {row : Invoice} (hpays : pays) (hactive : i.status.active = true) (hid : row.id = i.id)
      (hpaid : row.status = .paid) (hzero : row.amountRemainingUsdc.units = 0) :
      Touched pays i row

/-- What a call may do to the books. -/
inductive BooksStep (pays : Prop) (w w' : World) : Prop
  | created {r : Invoice} (hr : Unpaid r)
      (hpos : (∀ m ∈ w.db.merchants, 0 ≤ m.feeBps) → 0 < r.grossUsdc.units)
      (hnew : ∀ i ∈ w.db.invoices, i.id ≠ r.id)
      (hrows : w'.db.invoices.rows = w.db.invoices.rows ++ [r])
      (hledger : w'.db.ledgerEntries = w.db.ledgerEntries) : BooksStep pays w w'
  | touched (f : Invoice → Invoice) (hrows : w'.db.invoices.rows = w.db.invoices.rows.map f)
      (hf : ∀ i ∈ w.db.invoices, Touched pays i (f i))
      (hledger : w'.db.ledgerEntries = w.db.ledgerEntries) : BooksStep pays w w'
  | credited {c : Credit} {i : Invoice} (hpays : pays) (hi : i ∈ w.db.invoices)
      (hid : i.id = c.inv.id) (hpending : i.status = .pending) (hcredit : CreditedBy c w w') :
      BooksStep pays w w'

section Calls

variable {pays : Prop} {w w' : World}

theorem BooksStep.of_same (hinv : w'.db.invoices = w.db.invoices)
    (hledger : w'.db.ledgerEntries = w.db.ledgerEntries) : BooksStep pays w w' :=
  .touched id (by rw [hinv, List.map_id]) (fun _ _ => .same) hledger

/-- The `UPDATE`s that close invoices. -/
theorem booksStep_setStatus {p : Invoice → Bool} {s : InvoiceStatus} (hs : s ≠ .paid)
    (hinv : w'.db.invoices = (setStatus w.db p s).invoices)
    (hledger : w'.db.ledgerEntries = w.db.ledgerEntries) : BooksStep pays w w' := by
  refine .touched (fun i => if i.status.active && p i then { i with status := s } else i)
    (by rw [hinv]; rfl) (fun i _ => ?_) hledger
  split
  · next h => exact .closed (Bool.and_eq_true_iff.mp h).1 hs
  · exact .same

/-- **What `applyPartialPayment` does**: nothing, or it pays the invoice off. -/
theorem booksStep_applyPartialPayment {env : Env} {w : World} (now : Timestamp) (invoiceId : Uuid)
    (paidAmount : String) :
    BooksStep (Pays env w (.applyPartialPayment now invoiceId paidAmount)) w
      { w with db := (Invoices.applyPartialPayment now w.db invoiceId paidAmount).2 } := by
  unfold Invoices.applyPartialPayment
  split
  · exact .of_same rfl rfl
  · next invoice hfind =>
    obtain ⟨hinvoice, hp⟩ := Table.find?_some hfind
    simp only [Bool.and_eq_true, beq_iff_eq] at hp
    split
    · exact .of_same rfl rfl
    · next remaining hremaining =>
      split
      · exact .of_same rfl rfl
      · next row hrow =>
        obtain ⟨hrowid, hpaid⟩ := partialRow_some hrow
        obtain ⟨rfl, paid, -, hroweq⟩ := partialRow_eq_some_iff.mp hrow
        have hpays : Pays env w (.applyPartialPayment now invoiceId paidAmount) :=
          ⟨invoice, hinvoice, hp.1, hp.2, hremaining⟩
        refine .touched _ rfl (fun i hi => ?_) rfl
        split
        · next hid =>
          obtain rfl := Table.eq_of_conflict hi hinvoice (.inl ((beq_iff_eq.mp hid).trans hrowid))
          exact .applied hpays hp.2 rfl hpaid (by rw [hroweq])
        · exact .same

/-- **What `process_payment` does**: nothing to the books, or one credit. -/
theorem booksStep_processPayment {env : Env} (now : Timestamp) (w : World)
    (payment : HorizonPayment) :
    BooksStep (Pays env w (.processPayment now payment)) w
      (Reconciler.processPayment env now w payment).1 := by
  obtain ⟨-, hbooks, -⟩ := solo_inv (solo_processPayment env now w payment)
  rcases hbooks.returned true with hsame | ⟨c, hcredit, hfresh, hdue⟩
  · exact .of_same hsame.invoices hsame.ledger
  · obtain ⟨i, hi, hof, hp, -⟩ := hdue.exists_pending
    exact .credited ⟨hfresh, c.inv, hdue⟩ hi (by rw [hof]; rfl) hp hcredit

/-- **What a call does to the books.** -/
theorem booksStep_of_step {env : Env} {cenv : CreateEnv} {a : Operation}
    (h : (serial env cenv).step w a = some w') : BooksStep (Pays env w a) w w' := by
  cases a with
  | create now id merchantId input key =>
    cases h
    obtain ⟨hledger, -, hinv | ⟨r, hcreates, hnew, hrows⟩⟩ :=
      create_effect cenv now id w.db merchantId input key
    · exact .of_same hinv hledger
    · exact .created (unpaid_of_creates hcreates) (gross_pos_of_creates hcreates) hnew hrows hledger
  | applyPartialPayment now invoiceId paidAmount =>
    cases h
    exact booksStep_applyPartialPayment now invoiceId paidAmount
  | processPayment now payment =>
    cases h
    exact booksStep_processPayment now w payment
  | cancel merchantId id =>
    cases h
    unfold Invoices.cancel
    split
    · exact .of_same rfl rfl
    · exact booksStep_setStatus (by decide) rfl rfl
  | expireInvoices now =>
    cases h
    obtain ⟨hinv, hledger, -⟩ := dispatchAll_same (setStatus w.db (isExpired now) .expired)
      (expireDispatches now (affected w.db (isExpired now)))
    exact booksStep_setStatus (by decide) hinv hledger
  | autoCancelUnpaidInvoices now =>
    cases h
    obtain ⟨hinv, hledger, -⟩ := dispatchAll_same (setStatus w.db (isUnpaid w.db now) .cancelled)
      (autoCancelDispatches now (affected w.db (isUnpaid w.db now)))
    exact booksStep_setStatus (by decide) hinv hledger

/-- No call but `create` touches merchants, and `create` not their rates. -/
theorem rates_of_step {env : Env} {cenv : CreateEnv} {a : Operation}
    (hrates : ∀ m ∈ w.db.merchants, 0 ≤ m.feeBps) (h : (serial env cenv).step w a = some w') :
    ∀ m ∈ w'.db.merchants, 0 ≤ m.feeBps := by
  cases a with
  | create now id merchantId input key =>
    cases h
    intro m' hm'
    obtain ⟨m, hm, heq⟩ := (create_effect cenv now id w.db merchantId input key).feeBps m' hm'
    rw [heq]
    exact hrates m hm
  | applyPartialPayment now invoiceId paidAmount =>
    cases h
    unfold Invoices.applyPartialPayment
    repeat' split
    all_goals exact hrates
  | processPayment now payment =>
    cases h
    have hsame := (solo_processPayment env now w payment).merchants
    exact fun m hm => hrates m (hsame ▸ hm)
  | cancel merchantId id =>
    cases h
    unfold Invoices.cancel
    split <;> exact hrates
  | expireInvoices now =>
    cases h
    have hsame := (dispatchAll_same (setStatus w.db (isExpired now) .expired)
      (expireDispatches now (affected w.db (isExpired now)))).2.2
    exact fun m hm => hrates m (hsame ▸ hm)
  | autoCancelUnpaidInvoices now =>
    cases h
    have hsame := (dispatchAll_same (setStatus w.db (isUnpaid w.db now) .cancelled)
      (autoCancelDispatches now (affected w.db (isUnpaid w.db now)))).2.2
    exact fun m hm => hrates m (hsame ▸ hm)

end Calls

/-! ## The paths to paid -/

/-- Which way an invoice was paid, if it was. -/
inductive Path (db : Db) (i : Invoice) : Prop
  | unpaid (hs : i.status ≠ .paid) (hr : i.amountRemainingUsdc.units ≠ 0) (hl : ¬ HasPayment db i)
  | credited (hs : i.status = .paid) (hr : i.amountRemainingUsdc.units ≠ 0) (hl : HasPayment db i)
  | applied (hs : i.status = .paid) (hr : i.amountRemainingUsdc.units = 0) (hl : ¬ HasPayment db i)

/-- **The three facts agree exactly on what is not paid.** -/
theorem Path.agree_iff {db : Db} {i : Invoice} (h : Path db i) :
    Agree db i ↔ i.status ≠ .paid := by
  constructor
  · rintro ⟨hremaining, hledger⟩ hs
    cases h with
    | unpaid hs' => exact hs' hs
    | credited _ hr => exact hr (hremaining.mp hs)
    | applied _ _ hl => exact hl (hledger.mp hs)
  · intro hs
    cases h with
    | unpaid _ hr hl => exact ⟨iff_of_false hs hr, iff_of_false hs hl⟩
    | credited hs' => exact absurd hs' hs
    | applied hs' => exact absurd hs' hs

/-- An invoice that is not paid has not been paid either way. -/
theorem Path.of_not_paid {db : Db} {i : Invoice} (h : Path db i) (hs : i.status ≠ .paid) :
    i.amountRemainingUsdc.units ≠ 0 ∧ ¬ HasPayment db i := by
  cases h with
  | unpaid _ hr hl => exact ⟨hr, hl⟩
  | credited hs' => exact absurd hs' hs
  | applied hs' => exact absurd hs' hs

/-- The invariant of serial runs. -/
structure PathInv (db : Db) : Prop where
  paths : ∀ i ∈ db.invoices, Path db i
  /-- The foreign key of the ledger. -/
  stored : ∀ l ∈ db.ledgerEntries, ∃ i ∈ db.invoices, i.id = l.invoiceId
  rates : ∀ m ∈ db.merchants, 0 ≤ m.feeBps

section Runs

variable {env : Env} {cenv : CreateEnv} {w w' : World} {pays : Prop}

theorem Path.congr {db db' : Db} {i i' : Invoice} (h : Path db i)
    (hs : i'.status = .paid ↔ i.status = .paid)
    (hr : i'.amountRemainingUsdc = i.amountRemainingUsdc)
    (hl : HasPayment db' i' ↔ HasPayment db i) : Path db' i' := by
  cases h with
  | unpaid h₁ h₂ h₃ => exact .unpaid (hs.not.mpr h₁) (hr ▸ h₂) (hl.not.mpr h₃)
  | credited h₁ h₂ h₃ => exact .credited (hs.mpr h₁) (hr ▸ h₂) (hl.mpr h₃)
  | applied h₁ h₂ h₃ => exact .applied (hs.mpr h₁) (hr ▸ h₂) (hl.not.mpr h₃)

/-- The ledger knows an invoice by its id. -/
theorem hasPayment_congr {db db' : Db} {i i' : Invoice} (hid : i'.id = i.id)
    (hledger : db'.ledgerEntries = db.ledgerEntries) : HasPayment db' i' ↔ HasPayment db i := by
  rw [HasPayment, hid, hledger, HasPayment]

theorem Touched.id_eq {i i' : Invoice} (h : Touched pays i i') : i'.id = i.id := by
  cases h with
  | same => rfl
  | closed => rfl
  | applied _ _ hid => exact hid

theorem ne_paid_of_active {s : InvoiceStatus} (h : s.active = true) : s ≠ .paid := by
  rintro rfl
  cases h

/-- A call on one row leads from path to path. -/
theorem Touched.path {db db' : Db} {i i' : Invoice} (h : Touched pays i i') (hi : Path db i)
    (hledger : db'.ledgerEntries = db.ledgerEntries) : Path db' i' := by
  have hl := hasPayment_congr h.id_eq hledger
  cases h with
  | same => exact hi.congr Iff.rfl rfl hl
  | closed hactive hs => exact hi.congr (iff_of_false hs (ne_paid_of_active hactive)) rfl hl
  | applied _ hactive _ hpaid hzero =>
    exact .applied hpaid hzero (hl.not.mpr (hi.of_not_paid (ne_paid_of_active hactive)).2)

theorem Touched.no_paid {i i' : Invoice} (h : Touched pays i i') (hno : ¬ pays)
    (hi : i.status ≠ .paid) : i'.status ≠ .paid := by
  cases h with
  | same => exact hi
  | closed _ hs => exact hs
  | applied hpays => exact absurd hpays hno

/-- **One call keeps the invariant.** -/
theorem BooksStep.pathInv (h : BooksStep pays w w') (hw : PathInv w.db)
    (hrates : ∀ m ∈ w'.db.merchants, 0 ≤ m.feeBps) : PathInv w'.db := by
  cases h with
  | @created r hr hpos hnew hrows hledger =>
    have hpos := hpos hw.rates
    refine ⟨fun i hi => ?_, fun l hl => ?_, hrates⟩
    · rw [← Table.mem_rows, hrows, List.mem_append, List.mem_singleton] at hi
      rcases hi with hi | rfl
      · exact (hw.paths i hi).congr Iff.rfl rfl (hasPayment_congr rfl hledger)
      · refine .unpaid (by simp [hr.pending]) (by rw [hr.remaining]; omega) ?_
        -- no ledger row can be about an invoice that was not there
        rintro ⟨l, hl, hid, -⟩
        rw [hledger] at hl
        obtain ⟨j, hj, hjid⟩ := hw.stored l hl
        exact hnew j hj (hjid.trans hid)
    · rw [hledger] at hl
      obtain ⟨i, hi, hid⟩ := hw.stored l hl
      exact ⟨i, by rw [← Table.mem_rows, hrows]; exact List.mem_append_left _ hi, hid⟩
  | touched f hrows hf hledger =>
    refine ⟨fun i' hi' => ?_, fun l hl => ?_, hrates⟩
    · rw [← Table.mem_rows, hrows] at hi'
      obtain ⟨i, hi, rfl⟩ := List.mem_map.mp hi'
      exact (hf i hi).path (hw.paths i hi) hledger
    · rw [hledger] at hl
      obtain ⟨i, hi, hid⟩ := hw.stored l hl
      refine ⟨f i, ?_, (hf i hi).id_eq.trans hid⟩
      rw [← Table.mem_rows, hrows]
      exact List.mem_map_of_mem hi
  | @credited c i hpays hi hid hpending hcredit =>
    have hmem : ∀ l, l ∈ w'.db.ledgerEntries ↔
        l ∈ w.db.ledgerEntries ∨ l = c.entry w.db.ledgerEntries.nextId := fun l => by
      rw [← Table.mem_rows, hcredit.ledger, List.mem_append, List.mem_singleton]
      exact Iff.rfl
    refine ⟨fun j' hj' => ?_, fun l hl => ?_, hrates⟩
    · rw [← Table.mem_rows, hcredit.invoices] at hj'
      obtain ⟨j, hj, rfl⟩ := List.mem_map.mp hj'
      by_cases hjid : j.id = c.inv.id
      · obtain rfl := Table.eq_of_conflict hj hi (.inl (hjid.trans hid.symm))
        rw [if_pos hjid]
        have hopen := (hw.paths j hj).of_not_paid (by simp [hpending])
        exact .credited rfl hopen.1 ⟨_, (hmem _).mpr (.inr rfl), hjid.symm, rfl⟩
      · rw [if_neg hjid]
        refine (hw.paths j hj).congr Iff.rfl rfl ⟨?_, ?_⟩
        · rintro ⟨l, hl, hlid, htype⟩
          rcases (hmem l).mp hl with hl | rfl
          · exact ⟨l, hl, hlid, htype⟩
          · exact absurd hlid.symm hjid
        · rintro ⟨l, hl, hrest⟩
          exact ⟨l, (hmem l).mpr (.inl hl), hrest⟩
    · have hkept : ∀ j ∈ w.db.invoices, ∃ j' ∈ w'.db.invoices, j'.id = j.id := fun j hj => by
        refine ⟨if j.id = c.inv.id then c.markPaid j else j, ?_, by split <;> rfl⟩
        rw [← Table.mem_rows, hcredit.invoices]
        exact List.mem_map_of_mem hj
      rcases (hmem l).mp hl with hl | rfl
      · obtain ⟨j, hj, hjid⟩ := hw.stored l hl
        obtain ⟨j', hj', heq⟩ := hkept j hj
        exact ⟨j', hj', heq.trans hjid⟩
      · obtain ⟨i', hi', heq⟩ := hkept i hi
        exact ⟨i', hi', heq.trans hid⟩

/-- A call that pays nothing leaves no invoice paid. -/
theorem BooksStep.no_paid (h : BooksStep pays w w') (hno : ¬ pays)
    (hw : ∀ i ∈ w.db.invoices, i.status ≠ .paid) : ∀ i ∈ w'.db.invoices, i.status ≠ .paid := by
  intro i' hi'
  rw [← Table.mem_rows] at hi'
  cases h with
  | created hr _ _ hrows =>
    rw [hrows, List.mem_append, List.mem_singleton] at hi'
    rcases hi' with hi' | rfl
    · exact hw i' hi'
    · simp [hr.pending]
  | touched f hrows hf =>
    rw [hrows] at hi'
    obtain ⟨i, hi, rfl⟩ := List.mem_map.mp hi'
    exact (hf i hi).no_paid hno (hw i hi)
  | credited hpays => exact absurd hpays hno

/-- **All paths to paid, and their books.** In every state of a run of whole calls,
status, remaining balance and ledger agree on an invoice if and only if it is not
paid. So they agree throughout a run in which no call pays. -/
theorem agree_of_run {s t : World} {run : List Operation}
    (hrates : ∀ m ∈ s.db.merchants, 0 ≤ m.feeBps)
    (hstored : ∀ l ∈ s.db.ledgerEntries, ∃ i ∈ s.db.invoices, i.id = l.invoiceId)
    (hunpaid : ∀ i ∈ s.db.invoices, i.status ≠ .paid ∧ Agree s.db i)
    (hrun : (serial env cenv).run s run = some t) :
    (∀ i ∈ t.db.invoices, Agree t.db i ↔ i.status ≠ .paid) ∧
      ((serial env cenv).Guarded (fun w a => ¬ Pays env w a) s run →
        ∀ i ∈ t.db.invoices, Agree t.db i) := by
  have hstart : PathInv s.db := ⟨fun i hi => by
    obtain ⟨hs, hremaining, hledger⟩ := hunpaid i hi
    exact .unpaid hs (hremaining.not.mp hs) (hledger.not.mp hs), hstored, hrates⟩
  have hinv : PathInv t.db := (serial env cenv).inv_of_run (I := fun w => PathInv w.db)
    (fun _ _ _ hw hstep => (booksStep_of_step hstep).pathInv hw (rates_of_step hw.rates hstep))
    hstart hrun
  refine ⟨fun i hi => (hinv.paths i hi).agree_iff, fun hguard i hi => ?_⟩
  have hnone := (serial env cenv).inv_of_guarded_run
    (I := fun w => ∀ i ∈ w.db.invoices, i.status ≠ .paid)
    (fun _ _ _ hw hno hstep => (booksStep_of_step hstep).no_paid hno hw)
    (fun i hi => (hunpaid i hi).1) hguard hrun
  exact (hinv.paths i hi).agree_iff.mpr (hnone i hi)

end Runs

/-! ## One invoice -/

/-- `create` for 10 USDC with partial payments, as the first invoice. -/
def createTen : Operation :=
  .create 0 1 1 { Invoices.tenUsdc with partialPaymentsEnabled := some true } none

/-- One merchant and no invoices. -/
def merchantWorld : World where
  db := Invoices.testDb

/-- The invoice is created and cancelled: nothing is paid. -/
theorem agree_of_run_cancelled :
    ∃ t, (serial testEnv Invoices.testEnv).run merchantWorld [createTen, .cancel 1 1] = some t ∧
      (∀ i ∈ t.db.invoices, Agree t.db i ↔ i.status ≠ .paid) ∧
      ∀ i ∈ t.db.invoices, Agree t.db i := by
  obtain ⟨t, ht, -⟩ := (serial testEnv Invoices.testEnv).exists_of_leadsTo (fun _ => True)
    merchantWorld [createTen, .cancel 1 1] (by decide +kernel)
  have hagree := agree_of_run (s := merchantWorld) (by decide)
    (fun _ h => absurd h List.not_mem_nil) (fun _ h => absurd h List.not_mem_nil) ht
  refine ⟨t, ht, hagree.1, hagree.2 ((serial testEnv Invoices.testEnv).guarded_of_forall ?_)⟩
  intro w a ha
  simp only [List.mem_cons, List.not_mem_nil, or_false] at ha
  rcases ha with rfl | rfl <;> exact id

/-- Paid on the chain, the invoice keeps its whole balance; paid through the service,
it gets no ledger row. -/
theorem paid_invoice_disagrees :
    (∃ t, (serial testEnv Invoices.testEnv).run merchantWorld
        [createTen, .processPayment 0 (makePayment "token_1" "M1000001" "10.3000000")] = some t ∧
      ∃ i ∈ t.db.invoices, i.status = .paid ∧ i.amountRemainingUsdc.units = 103000000 ∧
        ¬ Agree t.db i) ∧
    ∃ t, (serial testEnv Invoices.testEnv).run merchantWorld
        [createTen, .applyPartialPayment 0 1 "10.3"] = some t ∧
      ∃ i ∈ t.db.invoices, i.status = .paid ∧ t.db.ledgerEntries.rows = [] ∧ ¬ Agree t.db i := by
  constructor
  · obtain ⟨t, ht, i, hi, hpaid, hleft⟩ := (serial testEnv Invoices.testEnv).exists_of_leadsTo
      (fun t => ∃ i ∈ t.db.invoices.rows, i.status = .paid ∧ i.amountRemainingUsdc.units = 103000000)
      merchantWorld [createTen, .processPayment 0 (makePayment "token_1" "M1000001" "10.3000000")]
      (by decide +kernel)
    refine ⟨t, ht, i, hi, hpaid, hleft, fun h => ?_⟩
    rw [h.remaining.mp hpaid] at hleft
    cases hleft
  · obtain ⟨t, ht, hempty, i, hi, hpaid⟩ := (serial testEnv Invoices.testEnv).exists_of_leadsTo
      (fun t => t.db.ledgerEntries.rows = [] ∧ ∃ i ∈ t.db.invoices.rows, i.status = .paid)
      merchantWorld [createTen, .applyPartialPayment 0 1 "10.3"] (by decide +kernel)
    refine ⟨t, ht, i, hi, hpaid, hempty, fun h => ?_⟩
    obtain ⟨l, hl, -⟩ := h.ledger.mp hpaid
    rw [← Table.mem_rows, hempty] at hl
    cases hl

end Stargate.Reconciler
