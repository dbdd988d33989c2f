import Stargate.Reconciler.Matcher

/-!
# One call of `process_payment` (`processor.rs`)

A call is a sequence of statements, each committed on its own except for the
ledger transaction. `Pc` is the statement that a call is about to run, with the
local variables it holds; `exec` runs that statement and says what the call
does next. Between two statements anything else may happen.

- `insertPaymentEvent`, `saveCursor`, `commitCredit`: the writes;
- `exec`: one statement. The rows of an open transaction are in the call's
  local state (`Credit`) until its `COMMIT` writes them;
- `Solo`: the states of a call that nothing interleaves with, and
  `processPayment`, which runs such a call to its end.
-/

namespace Stargate.Reconciler

open Base

/-- What the reconciler and the API share. -/
structure World where
  db : Db := {}
  redis : Redis := {}

/-! ## Reads and writes -/

/-- Is there an event with this paging token? -/
def hasEvent (db : Db) (pagingToken : String) : Bool :=
  (db.paymentEvents.find? fun e => e.pagingToken == pagingToken).isSome

/-- `event_exists`. The column of `SELECT 1` is an `INT4` and the query asks for
an `i64`, so a row is an error of decoding (`none`); no row is `Ok(false)`. -/
def eventExists (db : Db) (pagingToken : String) : Option Bool :=
  if hasEvent db pagingToken then none else some false

/-- `insert_payment_event`: the new database and the event's id, or `none` where
the amount does not parse or fit, or the paging token is taken. -/
def insertPaymentEvent (env : Env) (now : Timestamp) (db : Db) (payment : HorizonPayment)
    (invoiceId : Option Uuid) (ofacResult : String) : Option (Db × Nat) := do
  let amount ← (env.decimalFromStr payment.amount).bind Numeric.ofRat?
  let event : PaymentEvent :=
    { id := db.paymentEvents.nextId
      pagingToken := payment.pagingToken
      invoiceId
      payerAddress := payment.fromAddress
      amountUsdc := amount
      assetCode := payment.assetCode.getD
        (if payment.assetType = some "native" then "XLM" else "")
      assetIssuer := payment.assetIssuer.getD "native"
      memo := payment.memo
      stellarTxHash := payment.transactionHash
      ledgerSequence := payment.ledger
      ofacResult
      matchedAt := invoiceId.map fun _ => now }
  let paymentEvents ← db.paymentEvents.insert? event
  some ({ db with paymentEvents }, event.id)

/-- `save_cursor`. -/
def saveCursor (db : Db) (cursor : String) : Db := { db with cursor }

/-- What the ledger transaction writes about: the matched invoice, the event,
and the time of its `BEGIN`, which is `NOW()` inside it. -/
structure Credit where
  inv : InvoiceRow
  eventId : Nat
  now : Timestamp
  deriving DecidableEq

/-- The ledger row of a credit. -/
def Credit.entry (c : Credit) (id : Nat) : LedgerEntry where
  id
  invoiceId := c.inv.id
  merchantId := c.inv.merchantId
  eventId := c.eventId
  -- always store USDC equiv in ledger
  grossUsdc := c.inv.grossUsdcEquiv
  feeUsdc := c.inv.feeUsdc
  netUsdc := c.inv.netUsdc
  type := .payment
  settlementId := none

/-- The row of a paid invoice. -/
def Credit.markPaid (c : Credit) (i : Invoice) : Invoice :=
  { i with status := .paid, paidAt := some c.now }

theorem Credit.key_markPaid (c : Credit) (i : Invoice) :
    Keyed.key (c.markPaid i) = Keyed.key i := rfl

theorem Credit.id_of_conflict (c : Credit) (l : LedgerEntry) (n : Nat)
    (h : Keyed.Conflict l (c.entry n)) : Serial.id l = n := h

/-- The delivery queued for one subscribed webhook. -/
def Credit.delivery (c : Credit) (webhookId : Uuid) : WebhookDelivery :=
  ⟨webhookId, "invoice.paid", .invoicePaid c.inv.id c.eventId⟩

/-- `tx.commit()`: everything that the transaction wrote becomes visible.
`updated` says whether the guarded `UPDATE` of the invoice found its row. -/
def commitCredit (db : Db) (c : Credit) (updated : Bool) (hooks : List Uuid) : Db :=
  { db with
    ledgerEntries := db.ledgerEntries.append c.entry c.id_of_conflict
    invoices :=
      if updated then db.invoices.modify (fun i => i.id == c.inv.id) c.markPaid c.key_markPaid
      else db.invoices
    webhookDeliveries := db.webhookDeliveries ++ hooks.map c.delivery
    paymentLinkEvents := db.paymentLinkEvents ++ [⟨c.inv.id, c.inv.merchantId, .conversion⟩] }

/-! ## Statements -/

/-- The next statement of a call, with the local variables it needs. -/
inductive Pc where
  | eventExists
  | screenGet
  | screenSet (ofac : OfacResult)
  | insertBlocked (ofac : OfacResult)
  | selectMuxed (ofac : OfacResult) (muxedId : Int)
  | selectMemo (ofac : OfacResult) (memo : String)
  | insertMismatch (inv : InvoiceRow)
  | insertEvent (ofac : OfacResult) (invoice : Option InvoiceRow)
  | beginTx (inv : InvoiceRow) (eventId : Nat)
  | insertLedger (c : Credit)
  | updateInvoice (c : Credit)
  | insertDeliveries (c : Credit) (updated : Bool)
  | insertLinkEvent (c : Credit) (updated : Bool) (hooks : List Uuid)
  | commit (c : Credit) (updated : Bool) (hooks : List Uuid)
  | publish (inv : InvoiceRow)
  | saveCursor
  deriving DecidableEq

/-- What a call does after a statement: go on, or return `Ok(())` or an error. -/
inductive Next where
  | goto (pc : Pc)
  | ret (ok : Bool)
  deriving DecidableEq

/-- `Decimal::round_dp(7)`: ties to even. -/
def roundDp7 (n : Numeric) : ℚ := roundHalfEven (n.value * 10 ^ 7) / 10 ^ 7

/-- A money column holds no more than seven places. -/
@[simp] theorem roundDp7_eq (n : Numeric) : roundDp7 n = n.value := by
  have hscale : n.value * 10 ^ 7 = (n.units : ℚ) := by
    unfold Numeric.value
    field_simp
  rw [roundDp7, hscale, roundHalfEven_intCast, Numeric.value]

/-- After `match_invoice`: compare the amount. -/
def afterMatch (env : Env) (payment : HorizonPayment) (ofac : OfacResult) :
    Option InvoiceRow → Next
  | none => .goto (.insertEvent ofac none)
  | some inv =>
    match env.decimalFromStr payment.amount with
    | none => .ret false
    | some paid =>
      let expected :=
        if inv.currency = .usdc then roundDp7 inv.grossUsdc else roundDp7 inv.grossUsdc
      if paid ≠ expected then .goto (.insertMismatch inv)
      else .goto (.insertEvent ofac (some inv))

/-- Both arms of the currency test expect `gross_usdc`. -/
theorem afterMatch_some (env : Env) (payment : HorizonPayment) (ofac : OfacResult)
    (inv : InvoiceRow) :
    afterMatch env payment ofac (some inv) =
      match env.decimalFromStr payment.amount with
      | none => .ret false
      | some paid =>
        if paid = inv.grossUsdc.value then .goto (.insertEvent ofac (some inv))
        else .goto (.insertMismatch inv) := by
  simp only [afterMatch, ite_self, roundDp7_eq, ne_eq, ite_not]

/-- `match_invoice` after the muxed lookup. -/
def startMemo (env : Env) (payment : HorizonPayment) (ofac : OfacResult) : Next :=
  match payment.memo with
  | some memo => .goto (.selectMemo ofac memo)
  | none => afterMatch env payment ofac none

/-- `match_invoice` from its start. -/
def startMatch (env : Env) (payment : HorizonPayment) (ofac : OfacResult) : Next :=
  match decodeMuxedId payment.toAddress with
  | some muxedId => .goto (.selectMuxed ofac muxedId)
  | none => startMemo env payment ofac

/-- After `screen_address`. -/
def afterScreen (env : Env) (payment : HorizonPayment) (ofac : OfacResult) : Next :=
  if ofac.result = "blocked" then .goto (.insertBlocked ofac) else startMatch env payment ofac

/-- The row that a lookup found, if its currency is the payment's. -/
def inCurrency (payment : HorizonPayment) (inv : InvoiceRow) : Option InvoiceRow :=
  if inv.currency.code = paymentAssetCurrency payment then some inv else none

/-- Run one statement of a call. `none` means that it waits for a row lock that
another transaction holds; a statement that fails makes the call return its
error, and an open transaction is rolled back by being dropped. -/
def exec (env : Env) (now : Timestamp) (locked : Uuid → Bool) (w : World)
    (payment : HorizonPayment) : Pc → Option (World × Next)
  | .eventExists =>
    match eventExists w.db payment.pagingToken with
    | none => some (w, .ret false)
    | some true => some (w, .ret true)
    | some false =>
      if isAcceptedAsset payment env.config then some (w, .goto .screenGet)
      else some (w, .ret true)
  | .screenGet =>
    match w.redis.get (ofacKey payment.fromAddress) with
    | some cached =>
      match env.ofacFromStr cached with
      | some ofac => some (w, afterScreen env payment ofac)
      | none => some (w, .ret false)
    | none => some (w, .goto (.screenSet (freshOfac env.config)))
  | .screenSet ofac =>
    let redis := w.redis.set (ofacKey payment.fromAddress) (some (env.ofacToStr ofac))
    some ({ w with redis }, afterScreen env payment ofac)
  | .insertBlocked ofac =>
    match insertPaymentEvent env now w.db payment none ofac.result with
    | some (db, _) => some ({ w with db }, .goto .saveCursor)
    | none => some (w, .ret false)
  | .selectMuxed ofac muxedId =>
    match selectByMuxedId w.db muxedId with
    | some inv => some (w, afterMatch env payment ofac (inCurrency payment inv))
    | none => some (w, startMemo env payment ofac)
  | .selectMemo ofac memo =>
    some (w, afterMatch env payment ofac ((selectByMemo w.db memo).bind (inCurrency payment)))
  | .insertMismatch inv =>
    match insertPaymentEvent env now w.db payment (some inv.id) "amount_mismatch" with
    | some (db, _) => some ({ w with db }, .goto .saveCursor)
    | none => some (w, .ret false)
  | .insertEvent ofac invoice =>
    match insertPaymentEvent env now w.db payment (invoice.map InvoiceRow.id) ofac.result with
    | some (db, eventId) =>
      match invoice with
      | some inv => some ({ w with db }, .goto (.beginTx inv eventId))
      | none => some ({ w with db }, .goto .saveCursor)
    | none => some (w, .ret false)
  | .beginTx inv eventId => some (w, .goto (.insertLedger ⟨inv, eventId, now⟩))
  -- the foreign keys hold: invoices, merchants and events are never deleted
  | .insertLedger c => some (w, .goto (.updateInvoice c))
  | .updateInvoice c =>
    match w.db.invoices.find? fun i => i.id == c.inv.id && i.status == .pending with
    | some _ =>
      if locked c.inv.id then none else some (w, .goto (.insertDeliveries c true))
    | none => some (w, .goto (.insertDeliveries c false))
  | .insertDeliveries c updated =>
    some (w, .goto (.insertLinkEvent c updated
      (subscribers w.db c.inv.merchantId "invoice.paid")))
  | .insertLinkEvent c updated hooks => some (w, .goto (.commit c updated hooks))
  | .commit c updated hooks =>
    some ({ w with db := commitCredit w.db c updated hooks }, .goto (.publish c.inv))
  | .publish inv =>
    let message : PaidMessage := ⟨inv.id, payment.transactionHash, inv.currency⟩
    some ({ w with redis := { w.redis with published := w.redis.published ++ [message] } },
      .goto .saveCursor)
  | .saveCursor =>
    some ({ w with db := saveCursor w.db payment.pagingToken }, .ret true)

/-- A call whose event is stored already fails at its first statement. -/
theorem exec_eventExists (env : Env) (now : Timestamp) (locked : Uuid → Bool) (w : World)
    (payment : HorizonPayment) :
    exec env now locked w payment .eventExists =
      if hasEvent w.db payment.pagingToken then some (w, .ret false)
      else if isAcceptedAsset payment env.config then some (w, .goto .screenGet)
      else some (w, .ret true) := by
  simp only [exec, eventExists]
  cases hasEvent w.db payment.pagingToken <;> rfl

/-- The states that a call reaches from `w₀` if nothing runs between its
statements. A call that fails or crashes stops in one of them. -/
inductive Solo (env : Env) (payment : HorizonPayment) (w₀ : World) : World → Next → Prop
  | start : Solo env payment w₀ w₀ (.goto .eventExists)
  | exec {w w' : World} {pc : Pc} {next : Next} {now : Timestamp}
      (h : Solo env payment w₀ w (.goto pc))
      (hexec : exec env now (fun _ => false) w payment pc = some (w', next)) :
      Solo env payment w₀ w' next

/-- The place of a statement in the order in which a call runs them. -/
def Pc.rank : Pc → Nat
  | .eventExists => 0
  | .screenGet => 1
  | .screenSet _ => 2
  | .selectMuxed _ _ => 3
  | .selectMemo _ _ => 4
  | .insertBlocked _ => 5
  | .insertMismatch _ => 5
  | .insertEvent _ _ => 5
  | .beginTx _ _ => 6
  | .insertLedger _ => 7
  | .updateInvoice _ => 8
  | .insertDeliveries _ _ => 9
  | .insertLinkEvent _ _ _ => 10
  | .commit _ _ _ => 11
  | .publish _ => 12
  | .saveCursor => 13

theorem Pc.eq_eventExists {pc : Pc} (h : pc.rank = 0) : pc = .eventExists := by
  cases pc <;> first | rfl | cases h

/-- Run up to `fuel` statements of a call that nothing interleaves with. -/
def runCall (env : Env) (now : Timestamp) (payment : HorizonPayment) :
    Nat → World → Next → World × Next
  | fuel + 1, w, .goto pc =>
    match exec env now (fun _ => false) w payment pc with
    | some (w', next) => runCall env now payment fuel w' next
    | none => (w, .goto pc)
  | _, w, next => (w, next)

/-- `process_payment` with nothing interleaved. `processPayment_returns`: the
fuel is enough. -/
def processPayment (env : Env) (now : Timestamp) (w : World) (payment : HorizonPayment) :
    World × Next :=
  runCall env now payment 14 w (.goto .eventExists)

section Calls

variable {env : Env} {now : Timestamp} {payment : HorizonPayment} {ofac : OfacResult}

theorem rank_afterMatch {inv : Option InvoiceRow} {pc : Pc}
    (h : afterMatch env payment ofac inv = .goto pc) : pc.rank = 5 := by
  cases inv with
  | none =>
    cases h
    rfl
  | some row =>
    rw [afterMatch_some] at h
    split at h
    · cases h
    · split at h <;> cases h <;> rfl

theorem rank_startMemo {pc : Pc} (h : startMemo env payment ofac = .goto pc) :
    4 ≤ pc.rank ∧ pc.rank ≤ 5 := by
  unfold startMemo at h
  split at h
  · cases h
    simp [Pc.rank]
  · have := rank_afterMatch h
    omega

theorem rank_afterScreen {pc : Pc} (h : afterScreen env payment ofac = .goto pc) :
    3 ≤ pc.rank ∧ pc.rank ≤ 5 := by
  unfold afterScreen startMatch at h
  split at h
  · cases h
    simp [Pc.rank]
  · split at h
    · cases h
      simp [Pc.rank]
    · have := rank_startMemo h
      omega

/-- A call never goes back. -/
theorem rank_exec {locked : Uuid → Bool} {w w' : World} {pc pc' : Pc}
    (h : exec env now locked w payment pc = some (w', .goto pc')) :
    pc.rank < pc'.rank ∧ pc'.rank ≤ 13 := by
  cases pc
  case eventExists =>
    rw [exec_eventExists] at h
    split at h
    · cases h
    · split at h <;> cases h
      simp [Pc.rank]
  all_goals simp only [exec] at h
  case screenGet =>
    split at h
    · split at h
      · have := rank_afterScreen (Prod.mk.inj (Option.some.inj h)).2
        have hpc : Pc.screenGet.rank = 1 := rfl
        omega
      · cases h
    · cases h
      simp [Pc.rank]
  case screenSet ofac =>
    have := rank_afterScreen (Prod.mk.inj (Option.some.inj h)).2
    have hpc : (Pc.screenSet ofac).rank = 2 := rfl
    omega
  case selectMuxed ofac muxedId =>
    split at h
    · have := rank_afterMatch (Prod.mk.inj (Option.some.inj h)).2
      have hpc : (Pc.selectMuxed ofac muxedId).rank = 3 := rfl
      omega
    · have := rank_startMemo (Prod.mk.inj (Option.some.inj h)).2
      have hpc : (Pc.selectMuxed ofac muxedId).rank = 3 := rfl
      omega
  case selectMemo ofac memo =>
    have := rank_afterMatch (Prod.mk.inj (Option.some.inj h)).2
    have hpc : (Pc.selectMemo ofac memo).rank = 4 := rfl
    omega
  case insertEvent ofac invoice =>
    split at h
    · cases invoice <;> cases h <;> simp [Pc.rank]
    · cases h
  case updateInvoice c =>
    split at h
    · split at h <;> cases h
      simp [Pc.rank]
    · cases h
      simp [Pc.rank]
  case insertBlocked ofac =>
    split at h <;> cases h
    simp [Pc.rank]
  case insertMismatch inv =>
    split at h <;> cases h
    simp [Pc.rank]
  all_goals
    cases h
    try simp [Pc.rank]

/-- No lock, no wait: every statement of a lone call runs. -/
theorem exec_unlocked (env : Env) (now : Timestamp) (payment : HorizonPayment) (w : World)
    (pc : Pc) :
    ∃ w' next, exec env now (fun _ => false) w payment pc = some (w', next) := by
  cases hexec : exec env now (fun _ => false) w payment pc with
  | some r => exact ⟨r.1, r.2, rfl⟩
  | none =>
    cases pc <;> simp only [exec, Bool.false_eq_true, if_false] at hexec <;>
      first | cases hexec | (repeat' split at hexec) <;> cases hexec

/-- A lone call only reaches states that `Solo` describes. -/
theorem solo_runCall {w₀ : World} (fuel : Nat) {w : World} {next : Next}
    (h : Solo env payment w₀ w next) :
    Solo env payment w₀ (runCall env now payment fuel w next).1
      (runCall env now payment fuel w next).2 := by
  induction fuel generalizing w next with
  | zero => exact h
  | succ fuel ih =>
    cases next with
    | ret ok => exact h
    | goto pc =>
      obtain ⟨w', next, hexec⟩ := exec_unlocked env now payment w pc
      rw [runCall, hexec]
      exact ih (.exec h hexec)

theorem solo_processPayment (env : Env) (now : Timestamp) (w : World) (payment : HorizonPayment) :
    Solo env payment w (processPayment env now w payment).1 (processPayment env now w payment).2 :=
  solo_runCall 14 .start

end Calls

/-! ## What the writes do -/

section Writes

variable {env : Env} {now : Timestamp} {db db' : Db} {payment : HorizonPayment}

theorem hasEvent_iff {token : String} :
    hasEvent db token = true ↔ ∃ e ∈ db.paymentEvents, e.pagingToken = token := by
  unfold hasEvent Table.find?
  rw [List.find?_isSome]
  simp

/-- **What `insert_payment_event` does**: the paging token was not in the table,
and exactly the one event is added, under an id above all others. -/
theorem insertPaymentEvent_some {invoiceId : Option Uuid} {ofacResult : String} {eventId : Nat}
    (h : insertPaymentEvent env now db payment invoiceId ofacResult = some (db', eventId)) :
    hasEvent db payment.pagingToken = false ∧
    ∃ e : PaymentEvent, e.id = eventId ∧ e.pagingToken = payment.pagingToken ∧
      (∀ x ∈ db.paymentEvents, x.id < eventId) ∧
      (∀ x, x ∈ db'.paymentEvents ↔ x ∈ db.paymentEvents ∨ x = e) ∧
      db' = { db with paymentEvents := db'.paymentEvents } := by
  obtain ⟨amount, -, h⟩ := Option.bind_eq_some_iff.mp h
  obtain ⟨events, hins, h⟩ := Option.bind_eq_some_iff.mp h
  cases h
  refine ⟨?_, _, rfl, rfl, fun x hx => Table.lt_nextId hx, Table.mem_of_insert? hins, rfl⟩
  rw [Bool.eq_false_iff]
  intro hex
  obtain ⟨e, he, htok⟩ := hasEvent_iff.mp hex
  exact (Table.insert?_eq_some.mp hins).1 e he (.inr htok)

/-- An event is written only for an amount that the column holds. -/
theorem insertPaymentEvent_amount {invoiceId : Option Uuid} {ofacResult : String} {eventId : Nat}
    (h : insertPaymentEvent env now db payment invoiceId ofacResult = some (db', eventId)) :
    ∃ amount, (env.decimalFromStr payment.amount).bind Numeric.ofRat? = some amount := by
  obtain ⟨amount, hamount, -⟩ := Option.bind_eq_some_iff.mp h
  exact ⟨amount, hamount⟩

/-- Recording an event leaves invoices and ledger alone. -/
theorem insertPaymentEvent_same {invoiceId : Option Uuid} {ofacResult : String} {eventId : Nat}
    (h : insertPaymentEvent env now db payment invoiceId ofacResult = some (db', eventId)) :
    db'.invoices = db.invoices ∧ db'.ledgerEntries = db.ledgerEntries := by
  obtain ⟨-, e, -, -, -, -, hdb⟩ := insertPaymentEvent_some h
  exact ⟨by rw [hdb], by rw [hdb]⟩

variable {c : Credit} {updated : Bool} {hooks : List Uuid}

theorem mem_ledger_commitCredit {l : LedgerEntry} :
    l ∈ (commitCredit db c updated hooks).ledgerEntries
      ↔ l ∈ db.ledgerEntries ∨ l = c.entry db.ledgerEntries.nextId :=
  Table.mem_append c.id_of_conflict

theorem mem_invoices_commitCredit {i : Invoice} :
    i ∈ (commitCredit db c updated hooks).invoices
      ↔ ∃ j ∈ db.invoices,
        (if updated = true ∧ j.id = c.inv.id then c.markPaid j else j) = i := by
  cases updated with
  | false => simp [commitCredit]
  | true =>
    simp only [commitCredit, if_true, true_and]
    rw [Table.mem_modify c.key_markPaid]
    simp

end Writes

/-! ## The fixtures of `processor_tests.rs` -/

/-- `test_config()`. -/
def testConfig : Config where
  assetIssuer := "GBBD47IF6LWK7P7MDEVSCWR7DPUWV3NY3DTQEVFL4NAT4AQH3ZLLFLA5"
  eurcAssetIssuer := some "GDHU6WRG4IEQXM5NZ4BMPKOXHW76MZM4Y2IEMFDVXBSDP6SJY4ITNPP"
  ofacScreeningEnabled := false
  trmLabsApiKey := none

/-- The JSON text of a screening result. -/
def ofacJson (ofac : OfacResult) : String :=
  "\x7b\"result\":\"" ++ ofac.result ++ "\",\"risk_score\":" ++ toString ofac.riskScore ++ "\x7d"

/-- The two crates on the texts that the tests use. -/
def testEnv : Env where
  config := testConfig
  decimalFromStr s := mantissa? s.toList
  ofacFromStr s := [⟨"clear", 0⟩, ⟨"review", 50⟩, ⟨"blocked", 100⟩].find? fun r => ofacJson r = s
  ofacToStr := ofacJson

theorem testEnv_cacheRoundTrip : testEnv.CacheRoundTrip := by
  unfold Env.CacheRoundTrip
  decide +kernel

/-- `make_payment`, for a USDC payment without memo. -/
def makePayment (pagingToken toAddress amount : String) : HorizonPayment where
  pagingToken := pagingToken
  id := pagingToken
  fromAddress := "GAAZI4TCR3TY5OJHCTJC2A4QSY6CJWJH5IAJTGKIN2ER7LBNVKOCCWN"
  toAddress := toAddress
  amount := amount
  assetType := some "credit_alphanum4"
  assetCode := some "USDC"
  assetIssuer := some testConfig.assetIssuer
  transactionHash := "txhash_" ++ pagingToken
  ledger := 1000
  transactionSuccessful := some true
  memo := none

/-- The invoice of `seed_merchant_and_invoice`, for 10.5 USDC. -/
def seedInvoice (id : Uuid) (muxedId : Int) : Invoice where
  id := id
  merchantId := 1
  amountUsdc := ⟨105000000, by decide⟩
  grossUsdc := ⟨105000000, by decide⟩
  feeUsdc := ⟨5000000, by decide⟩
  netUsdc := ⟨95000000, by decide⟩
  description := none
  status := .pending
  muxedId := muxedId
  muxedAddress := "MTEST"
  memo := none
  expiresAt := 3600
  paidAt := none
  createdAt := 0
  amountPaidUsdc := ⟨0, Numeric.inRange_zero⟩
  amountRemainingUsdc := ⟨105000000, by decide⟩
  partialPaymentsEnabled := false
  idempotencyKey := none
  currency := .usdc
  grossUsdcEquiv := ⟨105000000, by decide⟩

/-- A database with one pending invoice. -/
def seedDb (i : Invoice) : Db where
  invoices := ⟨[i], List.pairwise_singleton _ _⟩

end Stargate.Reconciler
