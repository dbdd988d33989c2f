import Mathlib.Logic.Function.Basic
import Stargate.Base.Transition
import Stargate.Reconciler.Book
import Stargate.Reconciler.System

/-!
# Several processes on one payment sequence

`run_stream` calls `process_payment` for the payments of the stream in order; an
error makes `run_with_backoff` start the stream again. `fleet` is any number of
such processes over one database, statement by statement.

The events table keeps two processes from writing the event of a payment twice,
and a process that finds the event fails. So only the process that writes the event
of a payment comes past it, and it writes the credit first.

- `Fleet.Consumed`: some process has consumed the sequence;
- `sameOutcome_of_consumed`: the outcome is then that of one process alone. Every
  such run arrives at `Book.recordAll`.

The invariant `FleetInv` says that the database shows the book of some first
part of the sequence, with at most one credit in flight, and `WorkerOk` where
each process stands relative to it.
-/

namespace Stargate.Reconciler

open Base

/-- A process: the payments of the stream it has consumed, and its call on the
next one. -/
structure Worker where
  pos : Nat := 0
  pc : Option Pc := none
  deriving DecidableEq

def Worker.phase (w : Worker) : Phase :=
  match w.pc with
  | some pc => pc.phase
  | none => .idle

structure Fleet (n : Nat) where
  world : World
  workers : Fin n → Worker := fun _ => {}

section Fleet

variable {n : Nat}

/-- Does another process hold the lock of an invoice row? -/
def Fleet.lockedFor (s : Fleet n) (k : Fin n) (id : Uuid) : Bool :=
  decide (∃ j, j ≠ k ∧ (s.workers j).phase.locks id = true)

/-- The process after a statement: an error starts the stream again. -/
def Next.worker (pos : Nat) : Next → Worker
  | .goto pc => ⟨pos, some pc⟩
  | .ret true => ⟨pos + 1, none⟩
  | .ret false => ⟨0, none⟩

/-- The interleavings of `n` processes on a payment sequence. -/
def fleet (env : Env) (payments : List HorizonPayment) (n : Nat) :
    Lts (Fleet n) (Fin n × Timestamp) where
  step s a :=
    match payments[(s.workers a.1).pos]?, (s.workers a.1).pc with
    | none, _ => none
    | some _, none =>
      some { s with
        workers := Function.update s.workers a.1 ⟨(s.workers a.1).pos, some .eventExists⟩ }
    | some payment, some pc =>
      match exec env a.2 (s.lockedFor a.1) s.world payment pc with
      | some (world, next) =>
        some { world, workers := Function.update s.workers a.1 (next.worker (s.workers a.1).pos) }
      | none => none

/-- Some process has consumed the sequence. -/
def Fleet.Consumed (payments : List HorizonPayment) (s : Fleet n) : Prop :=
  ∃ k, (s.workers k).pos = payments.length

instance (payments : List HorizonPayment) (s : Fleet n) : Decidable (s.Consumed payments) :=
  inferInstanceAs (Decidable (∃ _, _))

/-- The credits, and the status of every invoice. -/
structure SameOutcome (db db' : Db) : Prop where
  credits : ∀ id token, HasCredit db id token ↔ HasCredit db' id token
  status : db.invoices.rows.map (fun i => (i.id, i.status))
    = db'.invoices.rows.map fun i => (i.id, i.status)

/-! ## Where a process stands -/

section Workers

variable {env : Env} {screen : String → Option OfacResult} {payments : List HorizonPayment}

/-- Screening gives the sender's result, whatever the cache. -/
def Verdict (screen : String → Option OfacResult) (payment : HorizonPayment) (ofac : OfacResult) :
    Prop :=
  screen payment.fromAddress = some ofac

/-- What a call in the window has written and will write. -/
def Flying (db : Db) (payment : HorizonPayment) : Phase → Prop
  | .recorded _ eventId => EventOf db payment eventId
  | .crediting c updated => EventOf db payment c.eventId ∧ updated ≠ some false
  | _ => False

/-- A process on a payment that is already done: it will fail on its event, or find
that the asset is not taken, or has done it itself. -/
def Late (env : Env) (db : Db) (payment : HorizonPayment) (pc : Pc) : Prop :=
  pc.phase = .finishing ∨ hasEvent db payment.pagingToken = true ∨
    (isAcceptedAsset payment env.config = false ∧ pc = .eventExists)

/-- Where a process stands when the first `j` payments are done and `flight` is
the process that is crediting the next one. -/
inductive WorkerOk (env : Env) (screen : String → Option OfacResult)
    (payments : List HorizonPayment) (db : Db) (j : Nat) {n : Nat} (flight : Option (Fin n))
    (k : Fin n) : Worker → Prop
  | resting {pos : Nat} (hpos : pos ≤ j) : WorkerOk env screen payments db j flight k ⟨pos, none⟩
  | late {pos : Nat} {payment : HorizonPayment} {pc : Pc} (hpos : pos < j)
      (hp : payments[pos]? = some payment) (hexp : pc.phase.exposed = false)
      (hlate : Late env db payment pc) :
      WorkerOk env screen payments db j flight k ⟨pos, some pc⟩
  | current {payment : HorizonPayment} {pc : Pc} (hp : payments[j]? = some payment)
      (hknows : Knows env (Verdict screen payment) db payment pc)
      (hexp : pc.phase.exposed = false) (hfin : pc.phase ≠ .finishing) :
      WorkerOk env screen payments db j flight k ⟨j, some pc⟩
  | flying {payment : HorizonPayment} {pc : Pc} (hp : payments[j]? = some payment)
      (hknows : Knows env (Verdict screen payment) db payment pc)
      (hfly : Flying db payment pc.phase) (hflight : flight = some k) :
      WorkerOk env screen payments db j flight k ⟨j, some pc⟩

theorem Flying.exposed {db : Db} {payment : HorizonPayment} {ph : Phase}
    (h : Flying db payment ph) : ph.exposed = true := by
  cases ph <;> first | rfl | cases h

theorem Flying.claim_ne {db : Db} {payment : HorizonPayment} {ph : Phase}
    (h : Flying db payment ph) : ph.claim ≠ none := by
  intro hclaim
  cases ph with
  | recorded | crediting => cases hclaim
  | _ => cases h

theorem WorkerOk.pos_le {db : Db} {j : Nat} {flight : Option (Fin n)} {k : Fin n} {w : Worker}
    (h : WorkerOk env screen payments db j flight k w) : w.pos ≤ j := by
  cases h with
  | resting hpos => exact hpos
  | late hpos => exact Nat.le_of_lt hpos
  | current => exact Nat.le_refl _
  | flying => exact Nat.le_refl _

theorem hasEvent_mono {db db' : Db} {token : String}
    (hev : ∀ e ∈ db.paymentEvents, e ∈ db'.paymentEvents)
    (h : hasEvent db token = true) : hasEvent db' token = true := by
  obtain ⟨e, he, htok⟩ := hasEvent_iff.mp h
  exact hasEvent_iff.mpr ⟨e, hev e he, htok⟩

theorem Late.mono {db db' : Db} {payment : HorizonPayment} {pc : Pc}
    (hev : ∀ e ∈ db.paymentEvents, e ∈ db'.paymentEvents) (h : Late env db payment pc) :
    Late env db' payment pc :=
  h.imp_right (Or.imp_left (hasEvent_mono hev))

theorem EventOf.mono {db db' : Db} {payment : HorizonPayment} {eventId : Nat}
    (hev : ∀ e ∈ db.paymentEvents, e ∈ db'.paymentEvents) (h : EventOf db payment eventId) :
    EventOf db' payment eventId := by
  obtain ⟨e, he, hrest⟩ := h
  exact ⟨e, hev e he, hrest⟩

theorem Flying.mono {db db' : Db} {payment : HorizonPayment} {ph : Phase}
    (hev : ∀ e ∈ db.paymentEvents, e ∈ db'.paymentEvents) (h : Flying db payment ph) :
    Flying db' payment ph := by
  cases ph with
  | recorded inv eventId => exact EventOf.mono hev h
  | crediting c updated => exact ⟨EventOf.mono hev h.1, h.2⟩
  | _ => cases h

/-- While invoices stay as they are, other processes stay where they stand. -/
theorem WorkerOk.mono {db db' : Db} {j : Nat} {flight flight' : Option (Fin n)} {k : Fin n}
    {w : Worker} (hinv : db'.invoices = db.invoices)
    (hev : ∀ e ∈ db.paymentEvents, e ∈ db'.paymentEvents)
    (hflight : flight = some k → flight' = some k)
    (h : WorkerOk env screen payments db j flight k w) :
    WorkerOk env screen payments db' j flight' k w := by
  cases h with
  | resting hpos => exact .resting hpos
  | late hpos hp hexp hlate => exact .late hpos hp hexp (hlate.mono hev)
  | current hp hknows hexp hfin =>
    exact .current hp (hknows.congr (matchInvoice_congr hinv) (noMuxedHit_congr hinv)) hexp hfin
  | flying hp hknows hfly hfl =>
    exact .flying hp (hknows.congr (matchInvoice_congr hinv) (noMuxedHit_congr hinv))
      (hfly.mono hev) (hflight hfl)

/-- Past its first statement a call knows that the asset is taken. -/
theorem Knows.accepted {V : OfacResult → Prop} {db : Db} {payment : HorizonPayment} {pc : Pc}
    (h : Knows env V db payment pc) (hfin : pc.phase ≠ .finishing) :
    pc = .eventExists ∨ isAcceptedAsset payment env.config = true := by
  cases pc with
  | eventExists => exact .inl rfl
  | screenGet => exact .inr h
  | screenSet => exact .inr h.1
  | insertBlocked => exact .inr h.1
  | selectMuxed => exact .inr h.1.accepted
  | selectMemo => exact .inr h.1.accepted
  | insertMismatch inv =>
    obtain ⟨⟨ofac, hc⟩, -⟩ := h
    exact .inr hc.accepted
  | insertEvent ofac invoice =>
    cases invoice with
    | none => exact .inr h.1.accepted
    | some inv =>
      obtain ⟨ofac, hc⟩ := Due.cleared h
      exact .inr hc.accepted
  | beginTx | insertLedger | updateInvoice | insertDeliveries | insertLinkEvent | commit =>
    obtain ⟨ofac, hc⟩ := Due.cleared h
    exact .inr hc.accepted
  | publish | saveCursor => exact absurd rfl hfin

/-- When the payment at `j` is done, the other processes on it are late. -/
theorem WorkerOk.advance {db db' : Db} {j : Nat} {flight : Option (Fin n)} {k : Fin n}
    {w : Worker} {payment : HorizonPayment}
    (hev : ∀ e ∈ db.paymentEvents, e ∈ db'.paymentEvents) (hflight : flight ≠ some k)
    (hp : payments[j]? = some payment)
    (hdone : hasEvent db' payment.pagingToken = true ∨
      isAcceptedAsset payment env.config = false)
    (h : WorkerOk env screen payments db j flight k w) :
    WorkerOk env screen payments db' (j + 1) (none : Option (Fin n)) k w := by
  cases h with
  | resting hpos => exact .resting (Nat.le_succ_of_le hpos)
  | late hpos hp' hexp hlate => exact .late (Nat.lt_succ_of_lt hpos) hp' hexp (hlate.mono hev)
  | @current payment' pc hp' hknows hexp hfin =>
    rw [hp] at hp'
    cases hp'
    refine .late (Nat.lt_succ_self j) hp hexp (.inr ?_)
    rcases hdone with hdone | hdone
    · exact .inl hdone
    · refine .inr ⟨hdone, ?_⟩
      rcases hknows.accepted hfin with hpc | hacc
      · exact hpc
      · rw [hdone] at hacc
        cases hacc
  | flying hp' hknows hfly hfl => exact absurd hfl hflight

/-- Where a process with a running call stands. -/
theorem WorkerOk.running {db : Db} {j : Nat} {flight : Option (Fin n)} {k : Fin n} {w : Worker}
    {payment : HorizonPayment} {pc : Pc} (h : WorkerOk env screen payments db j flight k w)
    (hp : payments[w.pos]? = some payment) (hpc : w.pc = some pc) :
    (w.pos < j ∧ pc.phase.exposed = false ∧ Late env db payment pc) ∨
    (w.pos = j ∧ Knows env (Verdict screen payment) db payment pc ∧
      pc.phase.exposed = false ∧ pc.phase ≠ .finishing) ∨
    (w.pos = j ∧ Knows env (Verdict screen payment) db payment pc ∧
      Flying db payment pc.phase ∧ flight = some k) := by
  cases h with
  | resting => cases hpc
  | late hpos hp' hexp hlate =>
    cases hpc
    cases hp.symm.trans hp'
    exact .inl ⟨hpos, hexp, hlate⟩
  | current hp' hknows hexp hfin =>
    cases hpc
    cases hp.symm.trans hp'
    exact .inr (.inl ⟨rfl, hknows, hexp, hfin⟩)
  | flying hp' hknows hfly hflight =>
    cases hpc
    cases hp.symm.trans hp'
    exact .inr (.inr ⟨rfl, hknows, hfly, hflight⟩)

end Workers

/-! ## The invariant -/

/-- Screening gives the results of `screen`, now and for the results that are about
to be cached. -/
structure Cached (env : Env) (screen : String → Option OfacResult) (payments : List HorizonPayment)
    (s : Fleet n) : Prop where
  screens : ∀ address, ScreensAs env s.world.redis address fun ofac => screen address = some ofac
  caching : ∀ k payment ofac, payments[(s.workers k).pos]? = some payment →
    (s.workers k).pc = some (.screenSet ofac) →
      ofac = freshOfac env.config ∧ Verdict screen payment ofac

/-- The first `j` payments are done and the database shows their book; `flight`
is the process, if any, that has written the event of the next payment and not
yet credited it. -/
structure FleetInv (env : Env) (screen : String → Option OfacResult)
    (payments : List HorizonPayment) (b₀ : Book) (s : Fleet n) (j : Nat) (b : Book)
    (flight : Option (Fin n)) : Prop where
  book : Book.recordAll env screen b₀ (payments.take j) = some b
  le : j ≤ payments.length
  shows : Shows s.world.db b
    (flight.bind fun _ => payments[j]?.map HorizonPayment.pagingToken)
  seen : ∀ i payment, i < j → payments[i]? = some payment → b.Done env payment
  unseen : ∀ k payment, flight = some k → payments[j]? = some payment →
    payment.pagingToken ∉ b.tokens
  flying : ∀ k, flight = some k → (s.workers k).pos = j ∧ (s.workers k).phase.exposed = true
  workers : ∀ k, WorkerOk env screen payments s.world.db j flight k (s.workers k)
  cached : Cached env screen payments s

/-- A process executes a statement of its call. -/
structure Executes (env : Env) (payments : List HorizonPayment) (s s' : Fleet n) (k : Fin n)
    (now : Timestamp) (payment : HorizonPayment) (pc : Pc) (next : Next) : Prop where
  hp : payments[(s.workers k).pos]? = some payment
  hpc : (s.workers k).pc = some pc
  hexec : exec env now (s.lockedFor k) s.world payment pc = some (s'.world, next)
  hworkers : s'.workers = Function.update s.workers k (next.worker (s.workers k).pos)

section Steps

variable {env : Env} {screen : String → Option OfacResult} {payments : List HorizonPayment}
  {b₀ b b' : Book} {s s' : Fleet n} {j : Nat} {flight : Option (Fin n)} {k : Fin n}
  {now : Timestamp} {payment : HorizonPayment} {pc : Pc} {next : Next}

/-- A late call changes nothing but the cursor, and stays late. -/
theorem late_exec {locked : Uuid → Bool} {w w' : World}
    (hexp : pc.phase.exposed = false) (hlate : Late env w.db payment pc)
    (hexec : exec env now locked w payment pc = some (w', next)) :
    (w'.db.invoices = w.db.invoices ∧ w'.db.paymentEvents = w.db.paymentEvents ∧
      w'.db.ledgerEntries = w.db.ledgerEntries) ∧
    ∀ pc', next = .goto pc' → pc'.phase.exposed = false ∧ Late env w.db payment pc' := by
  by_cases hskip : isAcceptedAsset payment env.config = false ∧ pc = .eventExists
  · obtain ⟨hacc, rfl⟩ := hskip
    rw [exec_eventExists, hacc, if_neg Bool.false_ne_true] at hexec
    split at hexec <;> cases hexec <;> exact ⟨⟨rfl, rfl, rfl⟩, fun _ h => by cases h⟩
  have hdone : pc.phase = .finishing ∨ hasEvent w.db payment.pagingToken = true := by
    rcases hlate with h | h | h
    · exact .inl h
    · exact .inr h
    · exact absurd h hskip
  have hstep := exec_phaseStep hexec
  generalize hph : pc.phase = ph at *
  generalize hn : next.phase = ph' at hstep
  -- a payment with an event gets no second one
  have hins : ∀ {invoiceId : Option Uuid} {ofacResult : String} {db : Db} {eventId : Nat},
      insertPaymentEvent env now w.db payment invoiceId ofacResult = some (db, eventId) →
      hasEvent w.db payment.pagingToken ≠ true := fun h => by
    rw [(insertPaymentEvent_some h).1]
    decide
  have hgoto : ∀ pc', next = .goto pc' → pc'.phase = ph' := fun pc' h => by
    subst h
    exact hn
  cases hstep with
  | look hdb | reject hdb =>
    rw [hdb]
    refine ⟨⟨rfl, rfl, rfl⟩, fun pc' h => ?_⟩
    rcases hdone with hdone | hdone
    · cases hdone
    · exact ⟨by rw [hgoto pc' h]; rfl, .inr (.inl hdone)⟩
  | found =>
    refine ⟨⟨rfl, rfl, rfl⟩, fun pc' h => ?_⟩
    rcases hdone with hdone | hdone
    · cases hdone
    · exact ⟨by rw [hgoto pc' h]; rfl, .inr (.inl hdone)⟩
  | log h | record h =>
    rcases hdone with hdone | hdone
    · cases hdone
    · exact absurd hdone (hins h)
  | publish =>
    exact ⟨⟨rfl, rfl, rfl⟩, fun pc' h => ⟨by rw [hgoto pc' h]; rfl, .inl (hgoto pc' h)⟩⟩
  | skip | finish | fail =>
    refine ⟨⟨rfl, rfl, rfl⟩, fun pc' h => ?_⟩
    rw [h] at hn
    cases Next.eq_ret hn
  | begin | write | lock | miss | commit => cases hexp

/-- What a step does, seen from the process that takes it. -/
theorem fleet_step_cases {a : Fin n × Timestamp} (h : (fleet env payments n).step s a = some s') :
    (∃ payment, payments[(s.workers a.1).pos]? = some payment ∧ (s.workers a.1).pc = none ∧
      s' = { s with
        workers := Function.update s.workers a.1 ⟨(s.workers a.1).pos, some .eventExists⟩ }) ∨
    ∃ payment pc next, Executes env payments s s' a.1 a.2 payment pc next := by
  simp only [fleet] at h
  split at h
  · cases h
  · next payment hp hpc =>
    cases h
    exact .inl ⟨payment, hp, hpc, rfl⟩
  · next payment pc hp hpc =>
    split at h
    · next world next hexec =>
      cases h
      exact .inr ⟨payment, pc, next, hp, hpc, hexec, rfl⟩
    · cases h

/-- The book of a payment that a call logs. -/
theorem record_of_logging {db : Db} {extra : Option String} {ofac : OfacResult}
    (h : Shows db b extra) (hnew : payment.pagingToken ∉ b.tokens)
    (hacc : isAcceptedAsset payment env.config = true)
    (hamount : ∃ amount, (env.decimalFromStr payment.amount).bind Numeric.ofRat? = some amount)
    (hscreen : Verdict screen payment ofac) (hno : ofac.result = "blocked" ∨
      ∀ inv, matchInvoice db payment = some inv →
        env.decimalFromStr payment.amount ≠ some inv.grossUsdc.value) :
    Book.record env screen b payment = some (b.log payment) := by
  have hcredit : b.credit env ofac payment = none := by
    unfold Book.credit
    split
    · rfl
    · next hb =>
      rcases hno with hno | hno
      · exact absurd hno hb
      · rw [h.matchInvoice, Option.filter_eq_none_iff]
        intro inv hinv
        simpa using hno inv hinv
  obtain ⟨amount, hamount⟩ := hamount
  rw [Book.record, if_neg hnew, if_neg (by simp [hacc]),
    show screen payment.fromAddress = some ofac from hscreen, hamount]
  simp only [hcredit]

/-- The book of a payment that is due. -/
theorem record_of_due {db : Db} {extra : Option String} {inv : InvoiceRow}
    (h : Shows db b extra) (hnew : payment.pagingToken ∉ b.tokens)
    (hdue : Due env (Verdict screen payment) db payment inv) :
    Book.record env screen b payment = some (b.enter inv payment) := by
  obtain ⟨ofac, hc⟩ := hdue.cleared
  have hcredit : b.credit env ofac payment = some inv := by
    rw [Book.credit, if_neg hc.not_blocked, h.matchInvoice, hdue.matched, Option.filter_some,
      if_pos (by simp [hdue.amount])]
  rw [Book.record, if_neg hnew, if_neg (by simp [hc.accepted]),
    show screen payment.fromAddress = some ofac from hc.screened, hdue.amount, Option.bind_some,
    Numeric.ofRat?_value]
  simp only [hcredit]

/-- Statements keep what is known of screening. -/
theorem Cached.exec (h : Cached env screen payments s) (hserde : env.CacheRoundTrip)
    (hmove : Executes env payments s s' k now payment pc next) : Cached env screen payments s' := by
  obtain ⟨hp, hpc, hexec, hworkers⟩ := hmove
  refine ⟨fun address => ?_, fun i q ofac hq hpcq => ?_⟩
  · refine (h.screens address).exec hserde (fun ofac hset => ?_) hexec
    obtain ⟨hfresh, hV⟩ := h.caching k payment ofac hp (hset ▸ hpc)
    exact ⟨hfresh, fun hfrom => hfrom ▸ hV⟩
  · rw [hworkers] at hq hpcq
    by_cases hi : i = k
    · rw [hi, Function.update_self] at hq hpcq
      cases next with
      | ret ok => cases ok <;> cases hpcq
      | goto pc' =>
        cases hpcq
        have heq : payment = q := Option.some.inj (hp.symm.trans hq)
        subst heq
        obtain ⟨hfresh, hscreen⟩ := exec_goto_screenSet hexec
        exact ⟨hfresh, h.screens _ ofac hscreen⟩
    · rw [Function.update_of_ne hi] at hq hpcq
      exact h.caching i q ofac hq hpcq

/-- A step that does not touch the books. -/
theorem FleetInv.quiet {w : Worker} (h : FleetInv env screen payments b₀ s j b flight)
    (hworkers : s'.workers = Function.update s.workers k w)
    (hinv : s'.world.db.invoices = s.world.db.invoices)
    (hevents : s'.world.db.paymentEvents = s.world.db.paymentEvents)
    (hledger : s'.world.db.ledgerEntries = s.world.db.ledgerEntries)
    (hok : WorkerOk env screen payments s.world.db j flight k w)
    (hfly : flight = some k → w.pos = j ∧ w.phase.exposed = true)
    (hcached : Cached env screen payments s') :
    FleetInv env screen payments b₀ s' j b flight where
  book := h.book
  le := h.le
  shows := h.shows.congr hinv hevents hledger
  seen := h.seen
  unseen := h.unseen
  flying := by
    rw [hworkers]
    exact forall_update
      (P := fun i (w : Worker) => flight = some i → w.pos = j ∧ w.phase.exposed = true)
      hfly fun i _ => h.flying i
  workers := by
    rw [hworkers]
    have hmono : ∀ e ∈ s.world.db.paymentEvents, e ∈ s'.world.db.paymentEvents := by
      rw [hevents]
      exact fun _ h => h
    exact forall_update (hok.mono hinv hmono id) fun i _ => (h.workers i).mono hinv hmono id
  cached := hcached

/-- A process writes the event of the next payment. -/
theorem FleetInv.takeoff {w : Worker} {invoiceId : Option Uuid}
    {ofacResult : String} {eventId : Nat} (h : FleetInv env screen payments b₀ s j b none)
    (hp : payments[j]? = some payment)
    (hins : insertPaymentEvent env now s.world.db payment invoiceId ofacResult
      = some (s'.world.db, eventId))
    (hworkers : s'.workers = Function.update s.workers k w)
    (hok : WorkerOk env screen payments s'.world.db j (some k) k w)
    (hfly : w.pos = j ∧ w.phase.exposed = true)
    (hcached : Cached env screen payments s') :
    FleetInv env screen payments b₀ s' j b (some k) where
  book := h.book
  le := h.le
  shows := by
    simp only [Option.bind_some, hp, Option.map_some]
    exact shows_insert h.shows hins
  seen := h.seen
  unseen i q _ hq hmem := by
    rw [hp] at hq
    cases hq
    have hnone := (insertPaymentEvent_some hins).1
    rw [(h.shows.tokens _).mpr (.inl hmem)] at hnone
    cases hnone
  flying := by
    rw [hworkers]
    exact forall_update
      (P := fun i (w : Worker) => some k = some i → w.pos = j ∧ w.phase.exposed = true)
      (fun _ => hfly) fun i hi heq => absurd (Option.some.inj heq).symm hi
  workers := by
    rw [hworkers]
    obtain ⟨-, e, -, -, -, hmem, -⟩ := insertPaymentEvent_some hins
    exact forall_update hok fun i hi => (h.workers i).mono (insertPaymentEvent_same hins).1
      (fun x hx => (hmem x).mpr (.inl hx)) fun heq => by cases heq
  cached := hcached

/-- The next payment is done. -/
theorem FleetInv.advance {w : Worker} (h : FleetInv env screen payments b₀ s j b flight)
    (hp : payments[j]? = some payment) (hflight : ∀ i, i ≠ k → flight ≠ some i)
    (hrecord : Book.record env screen b payment = some b') (hshows : Shows s'.world.db b' none)
    (hmono : ∀ e ∈ s.world.db.paymentEvents, e ∈ s'.world.db.paymentEvents)
    (hworkers : s'.workers = Function.update s.workers k w)
    (hok : WorkerOk env screen payments s'.world.db (j + 1) (none : Option (Fin n)) k w)
    (hcached : Cached env screen payments s') :
    FleetInv env screen payments b₀ s' (j + 1) b' none := by
  obtain ⟨hig, htokens⟩ := Book.record_some hrecord
  have hdone : hasEvent s'.world.db payment.pagingToken = true ∨
      isAcceptedAsset payment env.config = false :=
    hig.imp_left fun hmem => (hshows.tokens _).mpr (.inl hmem)
  exact
    { book := by
        rw [List.take_add_one, hp]
        exact Book.recordAll_concat h.book hrecord
      le := (List.getElem?_eq_some_iff.mp hp).1
      shows := hshows
      seen := fun i q hi hq => by
        rcases Nat.lt_succ_iff_lt_or_eq.mp hi with hi | rfl
        · exact (h.seen i q hi hq).imp_left (htokens _)
        · rw [hp] at hq
          cases hq
          exact hig
      unseen := fun _ _ heq => by cases heq
      flying := fun _ heq => by cases heq
      workers := by
        rw [hworkers]
        exact forall_update hok fun i hi => (h.workers i).advance hmono (hflight i hi) hp hdone
      cached := hcached }

/-- A process begins with the next payment. -/
theorem FleetInv.start {pos : Nat} (h : FleetInv env screen payments b₀ s j b flight)
    (hp : payments[pos]? = some payment) (hpos : pos ≤ j) :
    WorkerOk env screen payments s.world.db j flight k ⟨pos, some .eventExists⟩ := by
  rcases Nat.lt_or_eq_of_le hpos with hlt | rfl
  · refine .late hlt hp rfl (.inr ?_)
    rcases h.seen pos payment hlt hp with htoken | hacc
    · exact .inl ((h.shows.tokens _).mpr (.inl htoken))
    · exact .inr ⟨hacc, rfl⟩
  · exact .current hp trivial rfl (by decide)

/-- The process in flight is on the next payment, in its window. -/
theorem FleetInv.inFlight (h : FleetInv env screen payments b₀ s j b (some k)) :
    ∃ payment pc, payments[j]? = some payment ∧ s.workers k = ⟨j, some pc⟩ ∧
      Knows env (Verdict screen payment) s.world.db payment pc ∧
      Flying s.world.db payment pc.phase := by
  have hw := h.workers k
  obtain ⟨-, hexp⟩ := h.flying k rfl
  generalize s.workers k = w at hw hexp ⊢
  cases hw with
  | resting => cases hexp
  | late hpos hp hexp' hlate => exact absurd (hexp.symm.trans hexp') (by decide)
  | current hp hknows hexp' hfin => exact absurd (hexp.symm.trans hexp') (by decide)
  | flying hp hknows hfly hfl => exact ⟨_, _, hp, rfl, hknows, hfly⟩

/-- While a credit is in flight, nobody else can write the event of its payment. -/
theorem FleetInv.flight_eq_none (h : FleetInv env screen payments b₀ s j b flight)
    (hp : payments[j]? = some payment)
    (hnone : hasEvent s.world.db payment.pagingToken = false) : flight = none := by
  cases flight with
  | none => rfl
  | some i =>
    have htoken : hasEvent s.world.db payment.pagingToken = true :=
      (h.shows.tokens _).mpr (.inr (by simp [hp]))
    rw [hnone] at htoken
    cases htoken

/-- A process outside the window is not the one in flight. -/
theorem FleetInv.ne_of_not_exposed (h : FleetInv env screen payments b₀ s j b flight)
    (hexp : (s.workers k).phase.exposed = false) : flight ≠ some k := by
  intro heq
  have hexp' := (h.flying k heq).2
  rw [hexp] at hexp'
  cases hexp'

/-- A step that starts a call. -/
theorem FleetInv.starts (h : FleetInv env screen payments b₀ s j b flight)
    (hp : payments[(s.workers k).pos]? = some payment) (hpc : (s.workers k).pc = none) :
    FleetInv env screen payments b₀
      { s with workers := Function.update s.workers k ⟨(s.workers k).pos, some .eventExists⟩ }
      j b flight := by
  have hidle : (s.workers k).phase.exposed = false := by rw [Worker.phase, hpc]; rfl
  refine h.quiet rfl rfl rfl rfl (h.start hp (h.workers k).pos_le)
    (fun heq => absurd heq (h.ne_of_not_exposed hidle)) ⟨h.cached.screens, ?_⟩
  refine fun i q ofac hq hpcq => ?_
  by_cases hi : i = k
  · simp only [hi, Function.update_self, Option.some.injEq, reduceCtorEq] at hpcq
  · simp only [Function.update_of_ne hi] at hq hpcq
    exact h.cached.caching i q ofac hq hpcq

/-- A step of a late call. -/
theorem FleetInv.exec_late (h : FleetInv env screen payments b₀ s j b flight)
    (hserde : env.CacheRoundTrip) (hmove : Executes env payments s s' k now payment pc next)
    (hpos : (s.workers k).pos < j) (hexp : pc.phase.exposed = false)
    (hlate : Late env s.world.db payment pc) :
    FleetInv env screen payments b₀ s' j b flight := by
  obtain ⟨⟨hinv, hevents, hledger⟩, hgoto⟩ := late_exec hexp hlate hmove.hexec
  have hidle : (s.workers k).phase.exposed = false := by rwa [Worker.phase, hmove.hpc]
  refine h.quiet hmove.hworkers hinv hevents hledger ?_
    (fun heq => absurd heq (h.ne_of_not_exposed hidle)) (h.cached.exec hserde hmove)
  cases next with
  | goto pc' =>
    obtain ⟨hexp', hlate'⟩ := hgoto pc' rfl
    exact .late hpos hmove.hp hexp' hlate'
  | ret ok =>
    cases ok with
    | true => exact .resting hpos
    | false => exact .resting (Nat.zero_le j)

/-- A step of the call in flight: it goes on, or it completes the payment. -/
theorem FleetInv.exec_flying (h : FleetInv env screen payments b₀ s j b (some k))
    (hserde : env.CacheRoundTrip) (hmove : Executes env payments s s' k now payment pc next)
    (hpos : (s.workers k).pos = j)
    (hknows : Knows env (Verdict screen payment) s.world.db payment pc)
    (hfly : Flying s.world.db payment pc.phase) :
    FleetInv env screen payments b₀ s' j b (some k) ∨
      ∃ b', FleetInv env screen payments b₀ s' (j + 1) b' none := by
  have hcached := h.cached.exec hserde hmove
  obtain ⟨hp, hpc, hexec, hworkers⟩ := hmove
  rw [hpos] at hp hworkers
  have hnext := knows_exec (fun _ => rfl)
    (fun hget => by rw [hget] at hfly; cases hfly) hknows hexec
  have hstep := exec_phaseStep hexec
  -- a step that stays in the window
  have hgo : ∀ ph, next.phase = ph → Flying s.world.db payment ph → s'.world = s.world →
      FleetInv env screen payments b₀ s' j b (some k) := by
    intro ph hn hfly' hworld
    cases next with
    | ret ok =>
      subst hn
      cases hfly'
    | goto pc' =>
      change pc'.phase = ph at hn
      subst hn
      refine h.quiet hworkers (by rw [hworld]) (by rw [hworld]) (by rw [hworld])
        (.flying hp hnext hfly' rfl) (fun _ => ⟨rfl, hfly'.exposed⟩) hcached
  generalize hph : pc.phase = ph at *
  generalize hn : next.phase = ph' at hstep
  generalize hw : s'.world = w' at hstep
  cases hstep with
  | begin inv eventId => exact .inl (hgo _ hn ⟨hfly, by decide⟩ hw)
  | write c updated => exact .inl (hgo _ hn hfly hw)
  | lock hi hid hpending hfree => exact .inl (hgo _ hn ⟨hfly.1, by decide⟩ hw)
  | @miss c hnone =>
    -- the invoice that the call has matched is pending until the call commits
    have hdue : Due env (Verdict screen payment) s.world.db payment c.inv :=
      hknows.due (by rw [hph]; rfl)
    obtain ⟨i, hi, hid, hpending⟩ := pending_of_match hdue.matched
    exact absurd hpending (hnone i hi hid)
  | commit c updated hooks =>
    obtain ⟨hevent, hne⟩ := hfly
    cases updated with
    | false => exact absurd rfl hne
    | true =>
      have hdue : Due env (Verdict screen payment) s.world.db payment c.inv :=
        hknows.due (by rw [hph]; rfl)
      have hshows : Shows s.world.db b (some payment.pagingToken) := by
        simpa only [Option.bind_some, hp, Option.map_some] using h.shows
      refine .inr ⟨b.enter c.inv payment, h.advance hp (fun i hi heq => ?_)
        (record_of_due h.shows (h.unseen k payment rfl hp) hdue) ?_ ?_ hworkers ?_ hcached⟩
      · exact hi (Option.some.inj heq).symm
      · rw [hw]
        exact shows_commit hshows hevent
      · rw [hw]
        exact fun _ he => he
      · cases next with
        | ret ok => cases hn
        | goto pc' => exact .late (Nat.lt_succ_self j) hp (congrArg Phase.exposed hn) (.inl hn)
  | fail hclaim =>
    rcases hclaim with hclaim | ⟨inv, rfl⟩
    · exact absurd hclaim hfly.claim_ne
    · cases hfly
  | _ => cases hfly

/-- A step of a call on the next payment: it goes on, or writes the event of a
payment to credit, or completes the payment. -/
theorem FleetInv.exec_current (h : FleetInv env screen payments b₀ s j b flight)
    (hserde : env.CacheRoundTrip) (hmove : Executes env payments s s' k now payment pc next)
    (hpos : (s.workers k).pos = j)
    (hknows : Knows env (Verdict screen payment) s.world.db payment pc)
    (hexp : pc.phase.exposed = false) (hfin : pc.phase ≠ .finishing) :
    ∃ j' b' flight', FleetInv env screen payments b₀ s' j' b' flight' := by
  have hcached := h.cached.exec hserde hmove
  have hne : flight ≠ some k := h.ne_of_not_exposed (by rwa [Worker.phase, hmove.hpc])
  obtain ⟨hp, hpc, hexec, hworkers⟩ := hmove
  rw [hpos] at hp hworkers
  have hnext := knows_exec (fun _ => rfl) (fun _ => h.cached.screens _) hknows hexec
  have hstep := exec_phaseStep hexec
  -- a step that leaves the books alone
  have hquiet : s'.world.db = s.world.db →
      WorkerOk env screen payments s.world.db j flight k (next.worker j) →
      ∃ j' b' flight', FleetInv env screen payments b₀ s' j' b' flight' := fun hdb hok =>
    ⟨j, b, flight, h.quiet hworkers (by rw [hdb]) (by rw [hdb]) (by rw [hdb]) hok
      (fun heq => absurd heq hne) hcached⟩
  have hgo : ∀ ph, next.phase = ph → ph.exposed = false → ph ≠ .finishing →
      (∀ ok, ph ≠ .returned ok) →
      WorkerOk env screen payments s.world.db j flight k (next.worker j) := by
    intro ph hn hexp' hfin' hret
    subst hn
    cases next with
    | ret ok => exact absurd rfl (hret ok)
    | goto pc' => exact .current hp hnext hexp' hfin'
  generalize hph : pc.phase = ph at *
  generalize hn : next.phase = ph' at hstep
  generalize hw : s'.world = w' at hstep
  cases hstep with
  | look hdb => exact hquiet (hw ▸ hdb) (hgo _ hn rfl (by decide) (by decide))
  | reject hdb => exact hquiet (hw ▸ hdb) (hgo _ hn rfl (by decide) (by decide))
  | found hi hpending => exact hquiet (by rw [hw]) (hgo _ hn rfl nofun nofun)
  | skip hnone hacc =>
    cases Next.eq_ret hn
    cases h.flight_eq_none hp hnone
    have hnew : payment.pagingToken ∉ b.tokens := fun hmem => by
      rw [(h.shows.tokens _).mpr (.inl hmem)] at hnone
      cases hnone
    exact ⟨j + 1, b, none, h.advance hp (fun _ _ => nofun) (Book.record_unaccepted hnew hacc)
      (hw ▸ h.shows) (fun _ he => hw ▸ he) hworkers (.resting (Nat.le_refl _)) hcached⟩
  | @log invoiceId ofacResult db eventId hins =>
    have hnone := (insertPaymentEvent_some hins).1
    cases h.flight_eq_none hp hnone
    obtain ⟨hacc, ofac, hscreen, hno⟩ := hknows.logging hph
    have hnew : payment.pagingToken ∉ b.tokens := fun hmem => by
      rw [(h.shows.tokens _).mpr (.inl hmem)] at hnone
      cases hnone
    have hins' : insertPaymentEvent env now s.world.db payment invoiceId ofacResult
        = some (s'.world.db, eventId) := by rw [hw, hins]
    have hrecord := record_of_logging h.shows hnew hacc (insertPaymentEvent_amount hins) hscreen hno
    refine ⟨j + 1, b.log payment, none, h.advance hp (fun _ _ => nofun) hrecord
      (shows_insert h.shows hins').log (fun _ he => ?_) hworkers ?_ hcached⟩
    · obtain ⟨-, e, -, -, -, hmem, -⟩ := insertPaymentEvent_some hins'
      exact (hmem _).mpr (.inl he)
    · cases next with
      | ret ok => cases hn
      | goto pc' => exact .late (Nat.lt_succ_self j) hp (congrArg Phase.exposed hn) (.inl hn)
  | @record inv ofacResult db eventId hins =>
    cases h.flight_eq_none hp (insertPaymentEvent_some hins).1
    have hins' : insertPaymentEvent env now s.world.db payment (some inv.id) ofacResult
        = some (s'.world.db, eventId) := by rw [hw, hins]
    cases next with
    | ret ok => cases hn
    | goto pc' =>
      change pc'.phase = .recorded inv eventId at hn
      have hinv := (insertPaymentEvent_same hins').1
      have hknows' := Knows.congr hnext (matchInvoice_congr hinv)
        (noMuxedHit_congr hinv)
      obtain ⟨-, e, heid, htok, -, hmem, -⟩ := insertPaymentEvent_some hins'
      have hevent : EventOf s'.world.db payment eventId := ⟨e, (hmem e).mpr (.inr rfl), heid, htok⟩
      refine ⟨j, b, some k,
        h.takeoff hp hins' hworkers (.flying hp hknows' ?_ rfl) ⟨rfl, ?_⟩ hcached⟩
      · rw [hn]
        exact hevent
      · exact congrArg Phase.exposed hn
  | fail hclaim =>
    rw [Next.eq_ret hn] at hquiet
    exact hquiet (by rw [hw]) (.resting (Nat.zero_le j))
  | begin | write | lock | miss | commit => cases hexp
  | publish | finish => exact absurd rfl hfin

/-- **A step keeps the invariant.** -/
theorem fleetInv_step {a : Fin n × Timestamp} (hserde : env.CacheRoundTrip)
    (h : ∃ j b flight, FleetInv env screen payments b₀ s j b flight)
    (hstep : (fleet env payments n).step s a = some s') :
    ∃ j b flight, FleetInv env screen payments b₀ s' j b flight := by
  obtain ⟨j, b, flight, h⟩ := h
  rcases fleet_step_cases hstep with ⟨payment, hp, hpc, rfl⟩ | ⟨payment, pc, next, hmove⟩
  · exact ⟨j, b, flight, h.starts hp hpc⟩
  · rcases (h.workers a.1).running hmove.hp hmove.hpc with
      ⟨hpos, hexp, hlate⟩ | ⟨hpos, hknows, hexp, hfin⟩ | ⟨hpos, hknows, hfly, rfl⟩
    · exact ⟨j, b, flight, h.exec_late hserde hmove hpos hexp hlate⟩
    · exact h.exec_current hserde hmove hpos hknows hexp hfin
    · rcases h.exec_flying hserde hmove hpos hknows hfly with h' | ⟨b', h'⟩
      · exact ⟨j, b, some a.1, h'⟩
      · exact ⟨j + 1, b', none, h'⟩

/-- The processes before their first step. -/
theorem fleetInv_init {w : World} (hkey : EventKey w.db) :
    FleetInv (n := n) env (screenAddress env w.redis) payments (.of w.db) { world := w } 0
      (.of w.db) none where
  book := rfl
  le := Nat.zero_le _
  shows := shows_of hkey
  seen := fun i _ hi => absurd hi (Nat.not_lt_zero i)
  unseen := fun _ _ hflight => by cases hflight
  flying := fun _ hflight => by cases hflight
  workers := fun _ => .resting (Nat.le_refl 0)
  cached := ⟨fun _ _ h => h, fun _ _ _ _ hpc => by cases hpc⟩

/-- Once a process has consumed the sequence, the database shows the book of it. -/
theorem FleetInv.consumed (h : FleetInv env screen payments b₀ s j b flight)
    (hdone : s.Consumed payments) :
    Book.recordAll env screen b₀ payments = some b ∧ Shows s.world.db b none := by
  obtain ⟨i, hi⟩ := hdone
  have hj : j = payments.length := Nat.le_antisymm h.le (hi ▸ (h.workers i).pos_le)
  have hflight : flight = none := by
    cases flight with
    | none => rfl
    | some k =>
      obtain ⟨payment, -, hp, -⟩ := h.inFlight
      rw [hj, List.getElem?_eq_none (Nat.le_refl _)] at hp
      cases hp
  subst hflight
  have hbook := h.book
  rw [hj, List.take_length] at hbook
  exact ⟨hbook, h.shows⟩

/-- **Every run that consumes the sequence arrives at the book of it.** -/
theorem consumed_run_shows {w : World} {as : List (Fin n × Timestamp)}
    (hserde : env.CacheRoundTrip) (hkey : EventKey w.db)
    (hrun : (fleet env payments n).run { world := w } as = some s) (hdone : s.Consumed payments) :
    ∃ b, Book.recordAll env (screenAddress env w.redis) (.of w.db) payments = some b ∧
      Shows s.world.db b none := by
  obtain ⟨j, b, flight, h⟩ := (fleet env payments n).inv_of_run
    (fun _ _ _ hI hstep => fleetInv_step hserde hI hstep)
    ⟨0, .of w.db, none, fleetInv_init hkey⟩ hrun
  exact ⟨b, h.consumed hdone⟩

/-- Databases that show one book have one outcome. -/
theorem sameOutcome_of_shows {db db' : Db} (h : Shows db b none) (h' : Shows db' b none) :
    SameOutcome db db' where
  credits id token := (h.credits id token).trans (h'.credits id token).symm
  status := by
    have hstatus : ∀ t : Table Invoice, t.rows.map (fun i => (i.id, i.status))
        = (untimedTable t).rows.map fun i => (i.id, i.status) := fun t => by
      rw [rows_untimedTable, List.map_map]
      rfl
    rw [hstatus, hstatus db'.invoices, h.invoices, h'.invoices]

end Steps

/-! ## The outcome -/

/-- **Several processes do what one does**: on every payment sequence, from every
database and cache, every interleaving of any number of processes leaves, once one
of them (let alone each of them) has consumed the sequence, the credits and the
statuses of a single process that has consumed it. -/
theorem sameOutcome_of_consumed {env : Env} {payments : List HorizonPayment} {w : World}
    {s : Fleet n} {t : Fleet 1} {as : List (Fin n × Timestamp)} {bs : List (Fin 1 × Timestamp)}
    (hserde : env.CacheRoundTrip) (hkey : EventKey w.db)
    (hrun : (fleet env payments n).run { world := w } as = some s)
    (hdone : s.Consumed payments)
    (hrun' : (fleet env payments 1).run { world := w } bs = some t)
    (hdone' : t.Consumed payments) :
    SameOutcome s.world.db t.world.db := by
  obtain ⟨b, hbook, hshows⟩ := consumed_run_shows hserde hkey hrun hdone
  obtain ⟨b', hbook', hshows'⟩ := consumed_run_shows hserde hkey hrun' hdone'
  cases hbook.symm.trans hbook'
  exact sameOutcome_of_shows hshows hshows'

end Fleet

/-- Two payments of one invoice. -/
def twoPayments : List HorizonPayment := [fullPayment "token_1", fullPayment "token_2"]

/-- `k` statements of a process. -/
def moves {n : Nat} (p : Fin n) (k : Nat) : List (Fin n × Timestamp) := List.replicate k (p, 0)

/-- One process consumes both payments: the first credits, the second is logged. -/
def alone : List (Fin 1 × Timestamp) := moves 0 20

/-- Both processes match the first payment; the second one fails on its event, starts
again, and fails at `event_exists`, while the first one consumes both payments. -/
def contended : List (Fin 2 × Timestamp) :=
  moves 0 5 ++ moves 1 4 ++ moves 0 1 ++ moves 1 4 ++ moves 0 14

theorem sameOutcome_of_consumed_contended :
    ∃ s t, (fleet testEnv twoPayments 2).run { world := onePending.world } contended = some s ∧
      (fleet testEnv twoPayments 1).run { world := onePending.world } alone = some t ∧
      SameOutcome s.world.db t.world.db := by
  obtain ⟨s, hs, hdone⟩ := (fleet testEnv twoPayments 2).exists_of_leadsTo
    (fun s => s.Consumed twoPayments) { world := onePending.world } contended (by decide +kernel)
  obtain ⟨t, ht, hdone'⟩ := (fleet testEnv twoPayments 1).exists_of_leadsTo
    (fun t => t.Consumed twoPayments) { world := onePending.world } alone (by decide +kernel)
  exact ⟨s, t, hs, ht, sameOutcome_of_consumed testEnv_cacheRoundTrip
    (fun _ hl => by cases hl) hs hdone ht hdone'⟩

end Stargate.Reconciler
