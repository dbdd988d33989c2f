import Stargate.Reconciler.CreditSoundness

/-!
# Credit completeness

The converse of credit soundness: a lone call on a payment that reaches a
pending invoice by its muxed id, in its currency and for its exact amount, runs
to `Ok` and credits that invoice. The statements are executed in order, from the
last section to the first: the ledger transaction, the match, the screening.
-/

namespace Stargate.Reconciler

open Base

section Execution

variable {env : Env} {now : Timestamp} {payment : HorizonPayment} {w w' : World}

/-- One statement of a lone call. -/
theorem runCall_exec {pc : Pc} {next : Next} (fuel : Nat)
    (h : exec env now (fun _ => false) w payment pc = some (w', next)) :
    runCall env now payment (fuel + 1) w (.goto pc) = runCall env now payment fuel w' next := by
  rw [runCall, h]

/-- **The event of a new payment is stored** if its amount fits the column. -/
theorem insertPaymentEvent_isSome (env : Env) (now : Timestamp) {amount : Numeric}
    (invoiceId : Option Uuid) (ofacResult : String)
    (hfresh : hasEvent w.db payment.pagingToken = false)
    (hamount : (env.decimalFromStr payment.amount).bind Numeric.ofRat? = some amount) :
    ∃ db eventId,
      insertPaymentEvent env now w.db payment invoiceId ofacResult = some (db, eventId) := by
  have hnew : ∀ e : PaymentEvent, e.id = w.db.paymentEvents.nextId →
      e.pagingToken = payment.pagingToken →
      ∀ a ∈ w.db.paymentEvents.rows, ¬ Keyed.Conflict a e := by
    rintro e hid htok a ha (hc | hc)
    · exact absurd (hc.trans hid) (Nat.ne_of_lt (Table.lt_nextId ha))
    · rw [hasEvent_iff.mpr ⟨a, ha, hc.trans htok⟩] at hfresh
      cases hfresh
  unfold insertPaymentEvent
  rw [hamount]
  refine ⟨_, _, Option.bind_eq_some_iff.mpr ⟨amount, rfl,
    Option.bind_eq_some_iff.mpr ⟨_, dif_pos ?_, rfl⟩⟩⟩
  exact hnew _ rfl rfl

/-- From its `BEGIN` on a lone call credits the invoice, if it is pending. -/
theorem runCall_beginTx (env : Env) (now : Timestamp) (payment : HorizonPayment) {i : Invoice}
    (hi : i ∈ w.db.invoices) (hp : i.status = .pending)
    (eventId : Nat) (fuel : Nat) :
    ∃ w', runCall env now payment (fuel + 8) w (.goto (.beginTx (.of i) eventId))
        = (w', .ret true) ∧ CreditedBy ⟨.of i, eventId, now⟩ w w' := by
  have hfind : ∃ j, (w.db.invoices.find? fun j =>
      j.id == (InvoiceRow.of i).id && j.status == .pending) = some j := by
    refine Option.isSome_iff_exists.mp (List.find?_isSome.mpr ⟨i, hi, ?_⟩)
    simp [InvoiceRow.of, hp]
  obtain ⟨j, hj⟩ := hfind
  have hupdate : exec env now (fun _ => false) w payment (.updateInvoice ⟨.of i, eventId, now⟩)
      = some (w, .goto (.insertDeliveries ⟨.of i, eventId, now⟩ true)) := by
    simp only [exec, hj, Bool.false_eq_true, if_false]
  rw [runCall_exec (fuel + 7) rfl, runCall_exec (fuel + 6) rfl, runCall_exec (fuel + 5) hupdate,
    runCall_exec (fuel + 4) rfl, runCall_exec (fuel + 3) rfl, runCall_exec (fuel + 2) rfl,
    runCall_exec (fuel + 1) rfl, runCall_exec fuel rfl]
  refine ⟨_, by cases fuel <;> rfl, ?_, ?_⟩
  · simp [commitCredit, saveCursor, Table.modify]
  · simp [commitCredit, saveCursor]

/-- After the match, a call on the exact amount records the event and credits. -/
theorem runCall_insertEvent {i : Invoice} (hi : i ∈ w.db.invoices) (hp : i.status = .pending)
    (hfresh : hasEvent w.db payment.pagingToken = false)
    (hamount : env.decimalFromStr payment.amount = some i.grossUsdc.value)
    (ofac : OfacResult) (fuel : Nat) :
    ∃ w' eventId, runCall env now payment (fuel + 9) w (.goto (.insertEvent ofac (some (.of i))))
        = (w', .ret true) ∧ CreditedBy ⟨.of i, eventId, now⟩ w w' := by
  obtain ⟨db, eventId, hins⟩ := insertPaymentEvent_isSome env now
    (some i.id) ofac.result hfresh
    (by rw [hamount, Option.bind_some, Numeric.ofRat?_value])
  obtain ⟨hinv, hledger⟩ := insertPaymentEvent_same hins
  have hexec : exec env now (fun _ => false) w payment (.insertEvent ofac (some (.of i)))
      = some ({ w with db }, .goto (.beginTx (.of i) eventId)) := by
    simp only [exec, Option.map_some]
    rw [show (InvoiceRow.of i).id = i.id from rfl, hins]
  rw [runCall_exec (fuel + 8) hexec]
  have hi' : i ∈ ({ w with db } : World).db.invoices := by rwa [show _ = db.invoices from rfl, hinv]
  obtain ⟨w', hrun, hcredit⟩ := runCall_beginTx env now payment hi' hp eventId fuel
  exact ⟨w', eventId, hrun, hcredit.invoices.trans (by rw [hinv]),
    hcredit.ledger.trans (by rw [hledger])⟩

/-- After a screening that lets the sender pass, the muxed lookup finds the
invoice. -/
theorem runCall_afterScreen {i : Invoice} (hi : i ∈ w.db.invoices) (hp : i.status = .pending)
    (hfresh : hasEvent w.db payment.pagingToken = false)
    (hdec : decodeMuxedId payment.toAddress = some i.muxedId)
    (hcur : i.currency.code = paymentAssetCurrency payment)
    (hamount : env.decimalFromStr payment.amount = some i.grossUsdc.value)
    {ofac : OfacResult} (hofac : ofac.result ≠ "blocked") (fuel : Nat) :
    ∃ w' eventId, runCall env now payment (fuel + 10) w (afterScreen env payment ofac)
        = (w', .ret true) ∧ CreditedBy ⟨.of i, eventId, now⟩ w w' := by
  have hnext : afterScreen env payment ofac = .goto (.selectMuxed ofac i.muxedId) := by
    rw [afterScreen, if_neg hofac, startMatch, hdec]
  have hexec : exec env now (fun _ => false) w payment (.selectMuxed ofac i.muxedId)
      = some (w, .goto (.insertEvent ofac (some (.of i)))) := by
    have hin : inCurrency payment (.of i) = some (.of i) := if_pos hcur
    simp only [exec, selectByMuxedId_of_mem hi hp, hin, afterMatch_some, hamount]
    rw [if_pos (show i.grossUsdc.value = (InvoiceRow.of i).grossUsdc.value from rfl)]
  rw [hnext, runCall_exec (fuel + 9) hexec]
  exact runCall_insertEvent hi hp hfresh hamount ofac fuel

/-- **Credit completeness.** A lone call on a new payment that pays a pending
invoice by its muxed id, in its currency and for its exact amount, returns `Ok`
and credits the invoice. -/
theorem processPayment_credits {i : Invoice} (hi : i ∈ w.db.invoices) (hp : i.status = .pending)
    (hfresh : hasEvent w.db payment.pagingToken = false)
    (hscreened : ∃ ofac, screenAddress env w.redis payment.fromAddress = some ofac ∧
      ofac.result ≠ "blocked")
    (hasset : PaysIn env.config payment i.currency)
    (hdec : decodeMuxedId payment.toAddress = some i.muxedId)
    (hamount : env.decimalFromStr payment.amount = some i.grossUsdc.value) :
    ∃ w' eventId, processPayment env now w payment = (w', .ret true) ∧
      CreditedBy ⟨.of i, eventId, now⟩ w w' := by
  obtain ⟨ofac, hscreen, hofac⟩ := hscreened
  obtain ⟨hacc, hcur⟩ := (paysIn_iff _ _ _).mpr hasset
  have hstart : exec env now (fun _ => false) w payment .eventExists
      = some (w, .goto .screenGet) := by
    rw [exec_eventExists, hfresh, if_neg Bool.false_ne_true, if_pos hacc]
  rw [processPayment, runCall_exec 13 hstart]
  cases hget : w.redis.get (ofacKey payment.fromAddress) with
  | some cached =>
    have hof : env.ofacFromStr cached = some ofac := by
      simpa only [screenAddress, hget] using hscreen
    have hexec : exec env now (fun _ => false) w payment .screenGet
        = some (w, afterScreen env payment ofac) := by simp only [exec, hget, hof]
    rw [runCall_exec 12 hexec]
    exact runCall_afterScreen hi hp hfresh hdec hcur hamount hofac 2
  | none =>
    have hof : freshOfac env.config = ofac := by simpa only [screenAddress, hget, Option.some.injEq]
      using hscreen
    have hexec : exec env now (fun _ => false) w payment .screenGet
        = some (w, .goto (.screenSet ofac)) := by simp only [exec, hget, hof]
    rw [runCall_exec 12 hexec, runCall_exec 11 rfl]
    let w₁ : World :=
      { w with redis := w.redis.set (ofacKey payment.fromAddress) (some (env.ofacToStr ofac)) }
    have hi₁ : i ∈ w₁.db.invoices := hi
    obtain ⟨w', eventId, hrun, hcredit⟩ : ∃ w' eventId,
        runCall env now payment 11 w₁ (afterScreen env payment ofac) = (w', .ret true) ∧
          CreditedBy ⟨.of i, eventId, now⟩ w₁ w' :=
      runCall_afterScreen hi₁ hp hfresh hdec hcur hamount hofac 1
    exact ⟨w', eventId, hrun, hcredit.invoices, hcredit.ledger⟩

end Execution

end Stargate.Reconciler
