import Stargate.Reconciler.Processor

/-!
# What a statement of a call can do

Sixteen statements, but few things that matter to the books: a call searches,
then either logs the event of a payment that credits nothing, or finds an
invoice, records the event and credits the invoice in a transaction. `Phase` is
that abstract state machine and `PhaseStep` its steps, each with what it does to
the database; `exec_phaseStep` says that every statement is such a step. Invariants
of the database are proved over `PhaseStep`.

`Knows` is the other half: what the local variables of a call say about the
payment, as long as the invoices it has read stay as they are.
-/

namespace Stargate.Reconciler

open Base

/-! ## Phases -/

/-- How far a call has come. -/
inductive Phase where
  | idle
  | searching
  /-- About to write the event of a payment that credits nothing. -/
  | logging
  /-- About to write the event of a payment that is to credit `inv`. -/
  | matched (inv : InvoiceRow)
  /-- The event is written, the ledger transaction is not open. -/
  | recorded (inv : InvoiceRow) (eventId : Nat)
  /-- In the ledger transaction; `updated` is the result of the `UPDATE`. -/
  | crediting (c : Credit) (updated : Option Bool)
  /-- Nothing left but to publish and to save the cursor. -/
  | finishing
  | returned (ok : Bool)
  deriving DecidableEq

/-- The phase of a call at a statement. -/
def Pc.phase : Pc → Phase
  | .insertBlocked _ | .insertMismatch _ | .insertEvent _ none => .logging
  | .insertEvent _ (some inv) => .matched inv
  | .beginTx inv eventId => .recorded inv eventId
  | .insertLedger c | .updateInvoice c => .crediting c none
  | .insertDeliveries c updated | .insertLinkEvent c updated _ | .commit c updated _ =>
    .crediting c (some updated)
  | .publish _ | .saveCursor => .finishing
  | _ => .searching

def Next.phase : Next → Phase
  | .goto pc => pc.phase
  | .ret ok => .returned ok

/-- Only a return is in a returned phase. -/
theorem Next.eq_ret {next : Next} {ok : Bool} (h : next.phase = .returned ok) : next = .ret ok := by
  cases next with
  | ret ok' =>
    cases h
    rfl
  | goto pc =>
    cases pc with
    | insertEvent ofac invoice => cases invoice <;> cases h
    | _ => cases h

/-- Does a call in this phase hold the lock of an invoice row? The `UPDATE`
takes it if it finds the row, and keeps it until the transaction ends. -/
def Phase.locks : Phase → Uuid → Bool
  | .crediting c (some true), id => c.inv.id == id
  | _, _ => false

/-- The invoice that a call in its credit phases is about. -/
def Phase.claim : Phase → Option InvoiceRow
  | .matched inv | .recorded inv _ => some inv
  | .crediting c _ => some c.inv
  | _ => none

/-- Between the event and the `COMMIT`. -/
def Phase.exposed : Phase → Bool
  | .recorded _ _ | .crediting _ _ => true
  | _ => false

/-- The event of a payment is stored under this id. -/
def EventOf (db : Db) (payment : HorizonPayment) (eventId : Nat) : Prop :=
  ∃ e ∈ db.paymentEvents, e.id = eventId ∧ e.pagingToken = payment.pagingToken

/-- The steps of a call, with what they do to the database. -/
inductive PhaseStep (env : Env) (now : Timestamp) (locked : Uuid → Bool)
    (payment : HorizonPayment) (w : World) : Phase → World → Phase → Prop
  | look {w' : World} (hdb : w'.db = w.db) :
      PhaseStep env now locked payment w .searching w' .searching
  /-- There is nothing to credit. -/
  | reject {w' : World} (hdb : w'.db = w.db) :
      PhaseStep env now locked payment w .searching w' .logging
  /-- The payment is new, and the asset is not one the platform takes. -/
  | skip (hnone : hasEvent w.db payment.pagingToken = false)
      (hacc : isAcceptedAsset payment env.config = false) :
      PhaseStep env now locked payment w .searching w (.returned true)
  /-- A lookup finds an invoice that is pending at that moment. -/
  | found {i : Invoice} (hi : i ∈ w.db.invoices) (hpending : i.status = .pending) :
      PhaseStep env now locked payment w .searching w (.matched (.of i))
  | log {invoiceId : Option Uuid} {ofacResult : String} {db : Db} {eventId : Nat}
      (h : insertPaymentEvent env now w.db payment invoiceId ofacResult = some (db, eventId)) :
      PhaseStep env now locked payment w .logging { w with db } .finishing
  | record {inv : InvoiceRow} {ofacResult : String} {db : Db} {eventId : Nat}
      (h : insertPaymentEvent env now w.db payment (some inv.id) ofacResult = some (db, eventId)) :
      PhaseStep env now locked payment w (.matched inv) { w with db } (.recorded inv eventId)
  | begin (inv : InvoiceRow) (eventId : Nat) :
      PhaseStep env now locked payment w (.recorded inv eventId) w
        (.crediting ⟨inv, eventId, now⟩ none)
  /-- A write that nobody sees before the `COMMIT`. -/
  | write (c : Credit) (updated : Option Bool) :
      PhaseStep env now locked payment w (.crediting c updated) w (.crediting c updated)
  /-- The guarded `UPDATE` finds the row pending and locks it. -/
  | lock {c : Credit} {i : Invoice} (hi : i ∈ w.db.invoices) (hid : i.id = c.inv.id)
      (hpending : i.status = .pending) (hfree : locked c.inv.id = false) :
      PhaseStep env now locked payment w (.crediting c none) w (.crediting c (some true))
  /-- The guarded `UPDATE` finds the invoice no longer pending. -/
  | miss {c : Credit} (h : ∀ i ∈ w.db.invoices, i.id = c.inv.id → i.status ≠ .pending) :
      PhaseStep env now locked payment w (.crediting c none) w (.crediting c (some false))
  | commit (c : Credit) (updated : Bool) (hooks : List Uuid) :
      PhaseStep env now locked payment w (.crediting c (some updated))
        { w with db := commitCredit w.db c updated hooks } .finishing
  | publish (published : List PaidMessage) :
      PhaseStep env now locked payment w .finishing
        { w with redis := { w.redis with published } } .finishing
  | finish :
      PhaseStep env now locked payment w .finishing
        { w with db := saveCursor w.db payment.pagingToken } (.returned true)
  /-- The event is in the table already, or clashes with one, or a cached result
  or an amount does not parse. -/
  | fail {ph : Phase} (hph : ph.claim = none ∨ ∃ inv, ph = .matched inv) :
      PhaseStep env now locked payment w ph w (.returned false)

section Phases

variable {env : Env} {now : Timestamp} {locked : Uuid → Bool} {w w' : World}
  {payment : HorizonPayment}

/-- After a lookup that returned `inv`, the call has found it, or it goes on to
write an event without credit, or it fails on the amount. -/
theorem phaseStep_afterMatch {ofac : OfacResult} {inv : Option InvoiceRow}
    (h : ∀ row, inv = some row → ∃ i ∈ w.db.invoices, row = .of i ∧ i.status = .pending) :
    PhaseStep env now locked payment w .searching w (afterMatch env payment ofac inv).phase := by
  cases inv with
  | none => exact .reject rfl
  | some row =>
    obtain ⟨i, hi, rfl, hpending⟩ := h row rfl
    rw [afterMatch_some]
    split
    · exact .fail (.inl rfl)
    · split
      · exact .found hi hpending
      · exact .reject rfl

theorem phaseStep_startMemo (ofac : OfacResult) :
    PhaseStep env now locked payment w .searching w (startMemo env payment ofac).phase := by
  unfold startMemo
  split
  · exact .look rfl
  · exact .reject rfl

theorem phaseStep_afterScreen (ofac : OfacResult) (hdb : w'.db = w.db) :
    PhaseStep env now locked payment w .searching w' (afterScreen env payment ofac).phase := by
  unfold afterScreen startMatch startMemo
  split
  · exact .reject hdb
  · split
    · exact .look hdb
    · split
      · exact .look hdb
      · exact .reject hdb

/-- **Every statement is a phase step.** -/
theorem exec_phaseStep {pc : Pc} {next : Next}
    (h : exec env now locked w payment pc = some (w', next)) :
    PhaseStep env now locked payment w pc.phase w' next.phase := by
  cases pc with
  | eventExists =>
    rw [exec_eventExists] at h
    split at h
    · cases h
      exact .fail (.inl rfl)
    · next hnone =>
      split at h
      · cases h
        exact .look rfl
      · next hacc =>
        cases h
        exact .skip (Bool.not_eq_true _ ▸ hnone) (Bool.not_eq_true _ ▸ hacc)
  | screenGet =>
    simp only [exec] at h
    split at h
    · split at h
      · cases h
        exact phaseStep_afterScreen _ rfl
      · cases h
        exact .fail (.inl rfl)
    · cases h
      exact .look rfl
  | screenSet ofac =>
    cases h
    exact phaseStep_afterScreen _ rfl
  | insertBlocked ofac =>
    simp only [exec] at h
    split at h
    · next hins =>
      cases h
      exact .log hins
    · cases h
      exact .fail (.inl rfl)
  | selectMuxed ofac muxedId =>
    simp only [exec] at h
    split at h
    · next inv hsel =>
      cases h
      refine phaseStep_afterMatch fun row hrow => ?_
      obtain ⟨i, hi, hof, hp, -⟩ := selectByMuxedId_some hsel
      unfold inCurrency at hrow
      split at hrow
      · exact ⟨i, hi, Option.some.inj hrow ▸ hof, hp⟩
      · cases hrow
    · cases h
      exact phaseStep_startMemo _
  | selectMemo ofac memo =>
    cases h
    refine phaseStep_afterMatch fun row hrow => ?_
    obtain ⟨inv, hsel, hrow⟩ := Option.bind_eq_some_iff.mp hrow
    obtain ⟨i, hi, hof, hp, -⟩ := selectByMemo_some hsel
    unfold inCurrency at hrow
    split at hrow
    · exact ⟨i, hi, Option.some.inj hrow ▸ hof, hp⟩
    · cases hrow
  | insertMismatch inv =>
    simp only [exec] at h
    split at h
    · next hins =>
      cases h
      exact .log hins
    · cases h
      exact .fail (.inl rfl)
  | insertEvent ofac invoice =>
    simp only [exec] at h
    split at h
    · next hins =>
      cases invoice with
      | none =>
        cases h
        exact .log hins
      | some inv =>
        cases h
        exact .record hins
    · cases h
      cases invoice with
      | none => exact .fail (.inl rfl)
      | some inv => exact .fail (.inr ⟨inv, rfl⟩)
  | beginTx inv eventId =>
    cases h
    exact .begin inv eventId
  | insertLedger c =>
    cases h
    exact .write c none
  | updateInvoice c =>
    simp only [exec] at h
    split at h
    · next i hfind =>
      split at h
      · cases h
      · next hfree =>
        cases h
        obtain ⟨hi, hp⟩ := Table.find?_some hfind
        simp only [Bool.and_eq_true, beq_iff_eq] at hp
        exact .lock hi hp.1 hp.2 (Bool.not_eq_true _ ▸ hfree)
    · next hfind =>
      cases h
      refine .miss fun i hi hid hp => ?_
      have := List.find?_eq_none.mp hfind i hi
      simp [hid, hp] at this
  | insertDeliveries c updated =>
    cases h
    exact .write c (some updated)
  | insertLinkEvent c updated hooks =>
    cases h
    exact .write c (some updated)
  | commit c updated hooks =>
    cases h
    exact .commit c updated hooks
  | publish inv =>
    cases h
    exact .publish _
  | saveCursor =>
    cases h
    exact .finish

end Phases

/-! ## What a call knows -/

/-- The payment may be credited as far as its asset and its sender go. `V` is
what is known of screening results of the sender. -/
structure Cleared (env : Env) (V : OfacResult → Prop) (payment : HorizonPayment)
    (ofac : OfacResult) : Prop where
  accepted : isAcceptedAsset payment env.config = true
  screened : V ofac
  not_blocked : ofac.result ≠ "blocked"

/-- The payment pays the invoice in full. -/
structure Due (env : Env) (V : OfacResult → Prop) (db : Db) (payment : HorizonPayment)
    (inv : InvoiceRow) : Prop where
  cleared : ∃ ofac, Cleared env V payment ofac
  matched : matchInvoice db payment = some inv
  amount : env.decimalFromStr payment.amount = some inv.grossUsdc.value

/-- What a call has established when it stands at a statement, over a database
that holds the invoices as it has read them. -/
def Knows (env : Env) (V : OfacResult → Prop) (db : Db) (payment : HorizonPayment) : Pc → Prop
  | .eventExists => True
  | .screenGet => isAcceptedAsset payment env.config = true
  | .screenSet ofac => isAcceptedAsset payment env.config = true ∧ V ofac ∧
      ofac = freshOfac env.config
  | .insertBlocked ofac => isAcceptedAsset payment env.config = true ∧ V ofac ∧
      ofac.result = "blocked"
  | .selectMuxed ofac muxedId => Cleared env V payment ofac ∧
      decodeMuxedId payment.toAddress = some muxedId
  | .selectMemo ofac memo => Cleared env V payment ofac ∧ payment.memo = some memo ∧
      NoMuxedHit db payment
  | .insertMismatch inv => (∃ ofac, Cleared env V payment ofac) ∧
      matchInvoice db payment = some inv ∧
      ∃ paid, env.decimalFromStr payment.amount = some paid ∧ paid ≠ inv.grossUsdc.value
  | .insertEvent ofac none => Cleared env V payment ofac ∧ matchInvoice db payment = none
  | .insertEvent _ (some inv) => Due env V db payment inv
  | .beginTx inv _ => Due env V db payment inv
  | .insertLedger c | .updateInvoice c | .insertDeliveries c _ | .insertLinkEvent c _ _
  | .commit c _ _ => Due env V db payment c.inv
  | .publish _ | .saveCursor => True

/-- What a call knows when it goes on. -/
def Next.Knows (env : Env) (V : OfacResult → Prop) (db : Db) (payment : HorizonPayment) :
    Next → Prop
  | .goto pc => Reconciler.Knows env V db payment pc
  | .ret _ => True

section Knows

variable {env : Env} {V : OfacResult → Prop} {db : Db} {payment : HorizonPayment}
  {ofac : OfacResult}

theorem knows_afterMatch {inv : Option InvoiceRow} (hc : Cleared env V payment ofac)
    (hm : matchInvoice db payment = inv) :
    (afterMatch env payment ofac inv).Knows env V db payment := by
  cases inv with
  | none => exact ⟨hc, hm⟩
  | some row =>
    rw [afterMatch_some]
    split
    · trivial
    · next paid hpaid =>
      split
      · next heq => exact ⟨⟨ofac, hc⟩, hm, heq ▸ hpaid⟩
      · next hne => exact ⟨⟨ofac, hc⟩, hm, paid, hpaid, hne⟩

theorem knows_startMemo (hc : Cleared env V payment ofac) (hno : NoMuxedHit db payment) :
    (startMemo env payment ofac).Knows env V db payment := by
  unfold startMemo
  split
  · next memo hmemo => exact ⟨hc, hmemo, hno⟩
  · next hmemo =>
    exact knows_afterMatch hc (by rw [matchInvoice_of_noMuxedHit hno, matchMemo, hmemo])

theorem knows_afterScreen (hacc : isAcceptedAsset payment env.config = true) (hV : V ofac) :
    (afterScreen env payment ofac).Knows env V db payment := by
  unfold afterScreen
  split
  · next hb => exact ⟨hacc, hV, hb⟩
  · next hb =>
    have hc : Cleared env V payment ofac := ⟨hacc, hV, hb⟩
    unfold startMatch
    split
    · next m hm => exact ⟨hc, hm⟩
    · next hm => exact knows_startMemo hc fun m hm' => by rw [hm] at hm'; cases hm'

/-- **A statement extends what the call knows**, if it runs on the invoices that
the call has read and the sender's screening result satisfies `V`. -/
theorem knows_exec {now : Timestamp} {locked : Uuid → Bool} {w w' : World} {pc : Pc} {next : Next}
    (hdb : pc.phase = .searching → w.db.invoices = db.invoices)
    (hV : pc = .screenGet →
      ∀ ofac, screenAddress env w.redis payment.fromAddress = some ofac → V ofac)
    (hk : Knows env V db payment pc)
    (h : exec env now locked w payment pc = some (w', next)) :
    next.Knows env V db payment := by
  cases pc with
  | eventExists =>
    rw [exec_eventExists] at h
    split at h
    · cases h
      trivial
    · split at h
      · next hacc =>
        cases h
        exact hacc
      · cases h
        trivial
  | screenGet =>
    simp only [exec] at h
    split at h
    · next cached hget =>
      split at h
      · next ofac hof =>
        cases h
        exact knows_afterScreen hk (hV rfl ofac (by simp only [screenAddress, hget, hof]))
      · cases h
        trivial
    · next hget =>
      cases h
      exact ⟨hk, hV rfl _ (by simp only [screenAddress, hget]), rfl⟩
  | screenSet ofac =>
    cases h
    exact knows_afterScreen hk.1 hk.2.1
  | selectMuxed ofac muxedId =>
    obtain ⟨hc, hdec⟩ := hk
    have hcongr : selectByMuxedId w.db muxedId = selectByMuxedId db muxedId := by
      rw [selectByMuxedId, hdb rfl, selectByMuxedId]
    simp only [exec, hcongr] at h
    split at h
    · next inv hsel =>
      cases h
      exact knows_afterMatch hc (by simp only [matchInvoice, hdec, hsel, inCurrency])
    · next hsel =>
      cases h
      refine knows_startMemo hc fun m hm => ?_
      rw [hdec] at hm
      cases hm
      exact hsel
  | selectMemo ofac memo =>
    obtain ⟨hc, hmemo, hno⟩ := hk
    have hcongr : selectByMemo w.db memo = selectByMemo db memo := by
      rw [selectByMemo, hdb rfl, selectByMemo]
    simp only [exec, hcongr] at h
    cases h
    refine knows_afterMatch hc ?_
    cases hsel : selectByMemo db memo <;>
      simp only [matchInvoice_of_noMuxedHit hno, matchMemo, hmemo, hsel, inCurrency,
        Option.bind_none, Option.bind_some]
  | insertEvent ofac invoice =>
    simp only [exec] at h
    split at h
    · cases invoice <;> cases h
      · trivial
      · exact hk
    · cases h
      trivial
  | insertBlocked ofac =>
    simp only [exec] at h
    split at h <;> cases h <;> trivial
  | insertMismatch inv =>
    simp only [exec] at h
    split at h <;> cases h <;> trivial
  | updateInvoice c =>
    simp only [exec] at h
    split at h
    · split at h <;> cases h
      exact hk
    · cases h
      exact hk
  | beginTx inv eventId =>
    cases h
    exact hk
  | insertLedger c =>
    cases h
    exact hk
  | insertDeliveries c updated =>
    cases h
    exact hk
  | insertLinkEvent c updated hooks =>
    cases h
    exact hk
  | commit c updated hooks =>
    cases h
    trivial
  | publish inv =>
    cases h
    trivial
  | saveCursor =>
    cases h
    trivial

/-- The cache changes only where a call stores the result it has just made. -/
theorem exec_redis {now : Timestamp} {locked : Uuid → Bool} {w w' : World} {pc : Pc} {next : Next}
    (h : exec env now locked w payment pc = some (w', next)) :
    w'.redis.get = w.redis.get ∨ ∃ ofac, pc = .screenSet ofac ∧
      w'.redis = w.redis.set (ofacKey payment.fromAddress) (some (env.ofacToStr ofac)) := by
  cases pc with
  | screenSet ofac =>
    cases h
    exact .inr ⟨ofac, rfl, rfl⟩
  | eventExists | screenGet | insertBlocked | selectMuxed | insertMismatch | insertEvent
  | updateInvoice =>
    refine .inl ?_
    simp only [exec] at h
    repeat' split at h
    all_goals first | cases h; rfl | cases h
  | _ =>
    cases h
    exact .inl rfl

/-- The result that a call is about to store is a fresh one. -/
theorem exec_goto_screenSet {now : Timestamp} {locked : Uuid → Bool} {w w' : World} {pc : Pc}
    (h : exec env now locked w payment pc = some (w', .goto (.screenSet ofac))) :
    ofac = freshOfac env.config ∧ screenAddress env w.redis payment.fromAddress = some ofac := by
  have hrank := (rank_exec h).1
  cases pc with
  | eventExists =>
    rw [exec_eventExists] at h
    repeat' split at h
    all_goals cases h
  | screenGet =>
    simp only [exec] at h
    split at h
    · split at h
      · have := rank_afterScreen (Prod.mk.inj (Option.some.inj h)).2
        have : (Pc.screenSet ofac).rank = 2 := rfl
        omega
      · cases h
    · next hget =>
      cases h
      exact ⟨rfl, by simp only [screenAddress, hget]⟩
  | _ => simp [Pc.rank] at hrank

/-- A statement keeps what is known of an address' screening results. -/
theorem ScreensAs.exec {now : Timestamp} {locked : Uuid → Bool} {w w' : World} {pc : Pc}
    {next : Next} {address : String} (h : ScreensAs env w.redis address V)
    (hserde : env.CacheRoundTrip)
    (hset : ∀ ofac, pc = .screenSet ofac → ofac = freshOfac env.config ∧
      (payment.fromAddress = address → V ofac))
    (hexec : exec env now locked w payment pc = some (w', next)) :
    ScreensAs env w'.redis address V := by
  rcases exec_redis hexec with hget | ⟨ofac, hpc, hredis⟩
  · exact h.congr (congrFun hget _)
  · obtain ⟨rfl, hV⟩ := hset ofac hpc
    rw [hredis]
    refine h.set fun hkey ofac hof => ?_
    have hfrom := ofacKey_injective hkey
    rw [← hfrom, screenAddress, Redis.get_set_self] at hof
    rw [Option.some.inj (hof.symm.trans hserde)]
    exact hV hfrom

/-- What a call knows still holds over other invoices on which the payment has
the same match, if no muxed hit has appeared. -/
theorem Knows.congr {db' : Db} {pc : Pc} (hk : Knows env V db payment pc)
    (hm : matchInvoice db' payment = matchInvoice db payment)
    (hno : NoMuxedHit db payment → NoMuxedHit db' payment) : Knows env V db' payment pc := by
  have hdue : ∀ inv, Due env V db payment inv → Due env V db' payment inv :=
    fun inv h => ⟨h.cleared, hm.trans h.matched, h.amount⟩
  cases pc with
  | selectMemo ofac memo => exact ⟨hk.1, hk.2.1, hno hk.2.2⟩
  | insertMismatch inv => exact ⟨hk.1, hm.trans hk.2.1, hk.2.2⟩
  | insertEvent ofac invoice =>
    cases invoice with
    | none => exact ⟨hk.1, hm.trans hk.2⟩
    | some inv => exact hdue _ hk
  | beginTx | insertLedger | updateInvoice | insertDeliveries | insertLinkEvent | commit =>
    exact hdue _ hk
  | eventExists | screenGet | screenSet | insertBlocked | selectMuxed | publish | saveCursor =>
    exact hk

/-- In its credit phases a call knows that the payment pays the invoice. -/
theorem Knows.due {pc : Pc} {inv : InvoiceRow} (hk : Knows env V db payment pc)
    (h : pc.phase.claim = some inv) : Due env V db payment inv := by
  cases pc <;> first | (cases h; exact hk) | cases h | skip
  next ofac invoice =>
    cases invoice <;> cases h
    exact hk

theorem Next.Knows.due {next : Next} {inv : InvoiceRow} (hk : next.Knows env V db payment)
    (h : next.phase.claim = some inv) : Due env V db payment inv := by
  cases next with
  | ret ok => cases h
  | goto pc => exact Reconciler.Knows.due hk h

/-- A call that is about to log the payment knows that it credits nothing: the
sender is blocked, or the payment is not the amount of an invoice it matches. -/
theorem Knows.logging {pc : Pc} (hk : Knows env V db payment pc) (h : pc.phase = .logging) :
    isAcceptedAsset payment env.config = true ∧ ∃ ofac, V ofac ∧ (ofac.result = "blocked" ∨
      ∀ inv, matchInvoice db payment = some inv →
        env.decimalFromStr payment.amount ≠ some inv.grossUsdc.value) := by
  cases pc with
  | insertBlocked ofac => exact ⟨hk.1, ofac, hk.2.1, .inl hk.2.2⟩
  | insertMismatch inv =>
    obtain ⟨⟨ofac, hc⟩, hm, paid, hpaid, hne⟩ := hk
    refine ⟨hc.accepted, ofac, hc.screened, .inr fun row hrow heq => ?_⟩
    rw [hm] at hrow
    rw [hpaid] at heq
    cases hrow
    exact hne (Option.some.inj heq)
  | insertEvent ofac invoice =>
    cases invoice with
    | none =>
      obtain ⟨hc, hm⟩ := hk
      refine ⟨hc.accepted, ofac, hc.screened, .inr fun row hrow => ?_⟩
      rw [hm] at hrow
      cases hrow
    | some inv => cases h
  | _ => cases h

end Knows

end Stargate.Reconciler
