import Stargate.Reconciler.Phases

/-!
# What one process makes of a payment sequence

`Book` is the abstract state of the reconciler: the invoices up to the time of
payment, the paging tokens seen, and the credits given. `Book.record` processes
one payment in one go, and `Book.recordAll` a sequence of them; this is what
consuming the sequence alone comes to.

`Shows db b extra` connects the two levels: the database shows the book `b`,
except that the event `extra` is already written whose credit is not. The lemmas
`shows_log`, `shows_insert` and `shows_commit` say how the writes of a call move
the database from one book to the next.
-/

namespace Stargate.Reconciler

open Base

/-! ## The abstract state -/

/-- Forget when an invoice was paid. -/
def untimed (i : Invoice) : Invoice := { i with paidAt := none }

theorem key_untimed (i : Invoice) : Keyed.key (untimed i) = Keyed.key i := rfl

/-- Invoices up to the time of payment. -/
def untimedTable (t : Table Invoice) : Table Invoice :=
  t.modify (fun _ => true) untimed key_untimed

/-- What is known of a payment sequence after some of it. -/
structure Book where
  invoices : Table Invoice
  /-- The paging tokens with an event. -/
  tokens : List String
  /-- Credited invoices, with the token of the payment. -/
  credits : List (Uuid × String)

namespace Book

/-- The invoice that the book has for a payment. -/
def matchInvoice (b : Book) (payment : HorizonPayment) : Option InvoiceRow :=
  Reconciler.matchInvoice { invoices := b.invoices } payment

/-- The invoice that a payment from a screened sender credits. -/
def credit (b : Book) (env : Env) (ofac : OfacResult) (payment : HorizonPayment) :
    Option InvoiceRow :=
  if ofac.result = "blocked" then none
  else (b.matchInvoice payment).filter fun inv =>
    env.decimalFromStr payment.amount = some inv.grossUsdc.value

/-- Mark an invoice paid. -/
def paid (i : Invoice) : Invoice := { i with status := .paid }

theorem key_paid (i : Invoice) : Keyed.key (paid i) = Keyed.key i := rfl

/-- The invoices after one of them is paid. -/
def pay (b : Book) (id : Uuid) : Table Invoice :=
  b.invoices.modify (fun i => i.id == id) paid key_paid

/-- Note a payment that credits nothing. -/
def log (b : Book) (payment : HorizonPayment) : Book :=
  { b with tokens := b.tokens ++ [payment.pagingToken] }

/-- Credit an invoice. -/
def enter (b : Book) (inv : InvoiceRow) (payment : HorizonPayment) : Book where
  invoices := b.pay inv.id
  tokens := b.tokens ++ [payment.pagingToken]
  credits := b.credits ++ [(inv.id, payment.pagingToken)]

/-- The payment needs no event: it has one, or its asset is not taken. -/
def Done (b : Book) (env : Env) (payment : HorizonPayment) : Prop :=
  payment.pagingToken ∈ b.tokens ∨ isAcceptedAsset payment env.config = false

/-- Process one payment; `none` where `process_payment` can only fail, as on a token
that has an event. The screening results of senders are given. -/
def record (env : Env) (screen : String → Option OfacResult) (b : Book)
    (payment : HorizonPayment) : Option Book :=
  if payment.pagingToken ∈ b.tokens then none
  else if isAcceptedAsset payment env.config = false then some b
  else match screen payment.fromAddress,
      (env.decimalFromStr payment.amount).bind Numeric.ofRat? with
    | some ofac, some _ => match b.credit env ofac payment with
      | some inv => some (b.enter inv payment)
      | none => some (b.log payment)
    | _, _ => none

/-- A payment in another asset leaves the book as it is. -/
theorem record_unaccepted {env : Env} {screen : String → Option OfacResult} {b : Book}
    {payment : HorizonPayment} (hnew : payment.pagingToken ∉ b.tokens)
    (hacc : isAcceptedAsset payment env.config = false) :
    record env screen b payment = some b := by
  rw [record, if_neg hnew, if_pos hacc]

/-- A processed payment needs no event any more, nor do those before it. -/
theorem record_some {env : Env} {screen : String → Option OfacResult} {b b' : Book}
    {payment : HorizonPayment} (h : record env screen b payment = some b') :
    b'.Done env payment ∧ ∀ token ∈ b.tokens, token ∈ b'.tokens := by
  unfold record at h
  split at h
  · cases h
  · split at h
    · next hacc =>
      cases h
      exact ⟨.inr hacc, fun _ h => h⟩
    · split at h
      · split at h <;> cases h
        · exact ⟨.inl (by simp [enter]), fun _ h => List.mem_append_left _ h⟩
        · exact ⟨.inl (by simp [log]), fun _ h => List.mem_append_left _ h⟩
      · cases h

/-- Process a sequence of payments. -/
def recordAll (env : Env) (screen : String → Option OfacResult) (b : Book)
    (payments : List HorizonPayment) : Option Book :=
  payments.foldlM (record env screen) b

theorem recordAll_concat {env : Env} {screen : String → Option OfacResult} {b b' b'' : Book}
    {payments : List HorizonPayment} {payment : HorizonPayment}
    (h : recordAll env screen b payments = some b')
    (hstep : record env screen b' payment = some b'') :
    recordAll env screen b (payments ++ [payment]) = some b'' := by
  unfold recordAll at *
  rw [List.foldlM_append, h]
  simp [hstep]

end Book

/-! ## The database behind a book -/

/-- A ledger row credits the invoice for the payment with this token. -/
def HasCredit (db : Db) (id : Uuid) (token : String) : Prop :=
  ∃ l ∈ db.ledgerEntries, l.invoiceId = id ∧
    ∃ e ∈ db.paymentEvents, e.id = l.eventId ∧ e.pagingToken = token

/-- The foreign key `ledger_entries.event_id`. -/
def EventKey (db : Db) : Prop :=
  ∀ l ∈ db.ledgerEntries, ∃ e ∈ db.paymentEvents, e.id = l.eventId

/-- The database shows a book, but for one event that is not yet credited. -/
structure Shows (db : Db) (b : Book) (extra : Option String) : Prop where
  invoices : untimedTable db.invoices = b.invoices
  tokens : ∀ token, hasEvent db token = true ↔ token ∈ b.tokens ∨ extra = some token
  credits : ∀ id token, HasCredit db id token ↔ (id, token) ∈ b.credits
  key : EventKey db

/-- The book of a database. -/
def Book.of (db : Db) : Book where
  invoices := untimedTable db.invoices
  tokens := db.paymentEvents.rows.map PaymentEvent.pagingToken
  credits := db.ledgerEntries.rows.flatMap fun l =>
    (db.paymentEvents.rows.filter fun e => e.id == l.eventId).map fun e =>
      (l.invoiceId, e.pagingToken)

section Shows

variable {env : Env} {db db' : Db} {b : Book} {payment : HorizonPayment} {extra : Option String}

theorem rows_untimedTable (t : Table Invoice) : (untimedTable t).rows = t.rows.map untimed := by
  simp [untimedTable, Table.modify]

/-- The lookups do not read when an invoice was paid. -/
theorem find?_untimedTable {t : Table Invoice} {p : Invoice → Bool}
    (hp : ∀ i, p (untimed i) = p i) :
    ((untimedTable t).find? p).map InvoiceRow.of = (t.find? p).map InvoiceRow.of := by
  have hcomp : p ∘ untimed = p := funext hp
  rw [Table.find?, rows_untimedTable, List.find?_map, hcomp, Option.map_map, Table.find?]
  rfl

/-- A payment has the same match in the database and in the book. -/
theorem Shows.matchInvoice (h : Shows db b extra) :
    b.matchInvoice payment = Reconciler.matchInvoice db payment := by
  have hmuxed : ∀ m, selectByMuxedId { invoices := b.invoices } m = selectByMuxedId db m :=
    fun m => by
      rw [selectByMuxedId, selectByMuxedId, ← h.invoices]
      exact find?_untimedTable fun _ => rfl
  have hmemo : ∀ memo, selectByMemo { invoices := b.invoices } memo = selectByMemo db memo :=
    fun memo => by
      rw [selectByMemo, selectByMemo, ← h.invoices]
      exact find?_untimedTable fun _ => rfl
  simp only [Book.matchInvoice, Reconciler.matchInvoice, matchMemo, hmuxed, hmemo]

theorem shows_of (hkey : EventKey db) : Shows db (.of db) none where
  invoices := rfl
  tokens token := by
    rw [hasEvent_iff]
    simp [Book.of]
  credits id token := by
    simp only [HasCredit, Book.of, List.mem_flatMap, List.mem_map, List.mem_filter, beq_iff_eq,
      Prod.mk.injEq, Table.mem_rows]
    constructor
    · rintro ⟨l, hl, hid, e, he, heid, htok⟩
      exact ⟨l, hl, e, ⟨he, heid⟩, hid, htok⟩
    · rintro ⟨l, hl, e, ⟨he, heid⟩, hid, htok⟩
      exact ⟨l, hl, hid, e, he, heid, htok⟩
  key := hkey

/-- Steps that leave invoices, events and ledger alone show the same book. -/
theorem Shows.congr (h : Shows db b extra) (hinv : db'.invoices = db.invoices)
    (hevents : db'.paymentEvents = db.paymentEvents)
    (hledger : db'.ledgerEntries = db.ledgerEntries) : Shows db' b extra where
  invoices := by rw [hinv, h.invoices]
  tokens token := by rw [hasEvent, hevents, ← h.tokens, hasEvent]
  credits id token := by rw [HasCredit, hevents, hledger, ← h.credits, HasCredit]
  key := by
    rw [EventKey, hevents, hledger]
    exact h.key

/-- Writing an event adds its token, and no credit. -/
theorem shows_insert {now : Timestamp} {invoiceId : Option Uuid} {ofacResult : String}
    {eventId : Nat} (h : Shows db b none)
    (hins : insertPaymentEvent env now db payment invoiceId ofacResult = some (db', eventId)) :
    Shows db' b (some payment.pagingToken) := by
  obtain ⟨-, e, heid, htok, hbelow, hmem, -⟩ := insertPaymentEvent_some hins
  obtain ⟨hinv, hledger⟩ := insertPaymentEvent_same hins
  refine ⟨by rw [hinv, h.invoices], fun token => ?_, fun id token => ?_, fun l hl => ?_⟩
  · rw [hasEvent_iff]
    constructor
    · rintro ⟨x, hx, hxtok⟩
      rcases (hmem x).mp hx with hx | rfl
      · rcases (h.tokens token).mp (hasEvent_iff.mpr ⟨x, hx, hxtok⟩) with htoken | hnone
        · exact .inl htoken
        · cases hnone
      · exact .inr (congrArg some (htok.symm.trans hxtok))
    · rintro (htoken | heq)
      · obtain ⟨x, hx, hxtok⟩ := hasEvent_iff.mp ((h.tokens token).mpr (.inl htoken))
        exact ⟨x, (hmem x).mpr (.inl hx), hxtok⟩
      · exact ⟨e, (hmem e).mpr (.inr rfl), htok.trans (Option.some.inj heq)⟩
  · rw [← h.credits]
    constructor
    · rintro ⟨l, hl, hid, x, hx, hxid, hxtok⟩
      rw [hledger] at hl
      refine ⟨l, hl, hid, ?_⟩
      rcases (hmem x).mp hx with hx | rfl
      · exact ⟨x, hx, hxid, hxtok⟩
      · -- the new event has an id that no ledger row refers to
        obtain ⟨y, hy, hyid⟩ := h.key l hl
        have := hbelow y hy
        omega
    · rintro ⟨l, hl, hid, x, hx, hxid, hxtok⟩
      exact ⟨l, by rwa [hledger], hid, x, (hmem x).mpr (.inl hx), hxid, hxtok⟩
  · rw [hledger] at hl
    obtain ⟨x, hx, hxid⟩ := h.key l hl
    exact ⟨x, (hmem x).mpr (.inl hx), hxid⟩

/-- An event without credit completes its payment. -/
theorem Shows.log (h : Shows db b (some payment.pagingToken)) :
    Shows db (b.log payment) none where
  invoices := h.invoices
  tokens token := by
    rw [h.tokens, Book.log, List.mem_append, List.mem_singleton]
    constructor
    · rintro (htoken | heq)
      · exact .inl (.inl htoken)
      · exact .inl (.inr (Option.some.inj heq).symm)
    · rintro ((htoken | heq) | hnone)
      · exact .inl htoken
      · exact .inr (congrArg some heq.symm)
      · cases hnone
  credits := h.credits
  key := h.key

/-- Marking an invoice paid forgets when. -/
theorem untimedTable_markPaid {t : Table Invoice} {c : Credit} :
    untimedTable (t.modify (fun i => i.id == c.inv.id) c.markPaid c.key_markPaid)
      = (untimedTable t).modify (fun i => i.id == c.inv.id) Book.paid Book.key_paid := by
  refine Table.ext ?_
  simp only [rows_untimedTable, Table.modify, List.map_map]
  refine List.map_congr_left fun i _ => ?_
  simp only [Function.comp, untimed, Credit.markPaid, Book.paid, beq_iff_eq]
  split <;> rfl

/-- **The commit of a credit completes its payment**: the event that was written
before is credited, and the invoice paid. -/
theorem shows_commit {c : Credit} {hooks : List Uuid}
    (h : Shows db b (some payment.pagingToken))
    (hevent : ∃ e ∈ db.paymentEvents, e.id = c.eventId ∧ e.pagingToken = payment.pagingToken) :
    Shows (commitCredit db c true hooks) (b.enter c.inv payment) none := by
  obtain ⟨e, he, heid, htok⟩ := hevent
  refine ⟨?_, h.log.tokens, fun id token => ?_, fun l hl => ?_⟩
  · rw [Book.enter, Book.pay, ← h.invoices]
    exact untimedTable_markPaid
  · rw [Book.enter, List.mem_append, List.mem_singleton, ← h.credits]
    constructor
    · rintro ⟨l, hl, hid, x, hx, hxid, hxtok⟩
      rcases mem_ledger_commitCredit.mp hl with hl | rfl
      · exact .inl ⟨l, hl, hid, x, hx, hxid, hxtok⟩
      · -- event ids are unique
        have hxe : x = e := Table.eq_of_conflict hx he (.inl (hxid.trans heid.symm))
        subst hxe
        exact .inr (Prod.ext hid.symm (hxtok.symm.trans htok))
    · rintro (⟨l, hl, hrest⟩ | heq)
      · exact ⟨l, mem_ledger_commitCredit.mpr (.inl hl), hrest⟩
      · cases heq
        exact ⟨_, mem_ledger_commitCredit.mpr (.inr rfl), rfl, e, he, heid, htok⟩
  · rcases mem_ledger_commitCredit.mp hl with hl | rfl
    · exact h.key l hl
    · exact ⟨e, he, heid⟩

end Shows

end Stargate.Reconciler
