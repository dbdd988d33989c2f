import Stargate.Reconciler.System

/-!
# No double credit with one reconciler

With a single reconciler process, whatever the API does in between and however
often calls fail and payments are delivered again, an invoice is credited at
most once and an event pays for at most one credit.

- `Books`: the invariant of the database. Credited invoices have left
  `pending`, and every ledger row refers to a stored event.
- `Clean`: what holds of the call in progress. The invoice it is about to
  credit has no credit yet and its event no ledger row; if the `UPDATE` missed,
  another operation has taken the invoice out of `pending`.
-/

namespace Stargate.Reconciler

open Base Invoices

/-- The invoice of this id has no ledger row of type `payment`. -/
def Uncredited (db : Db) (id : Uuid) : Prop :=
  ∀ l ∈ db.ledgerEntries, l.type = .payment → l.invoiceId ≠ id

/-- The event of this id is stored, and no ledger row refers to it. -/
def Unused (db : Db) (eventId : Nat) : Prop :=
  (∃ e ∈ db.paymentEvents, e.id = eventId) ∧ ∀ l ∈ db.ledgerEntries, l.eventId ≠ eventId

/-- Credits are unique per invoice and per event. -/
structure CreditedOnce (db : Db) : Prop where
  invoice : ∀ l ∈ db.ledgerEntries, ∀ l' ∈ db.ledgerEntries, l.type = .payment →
    l'.type = .payment → l.invoiceId = l'.invoiceId → l = l'
  event : ∀ l ∈ db.ledgerEntries, ∀ l' ∈ db.ledgerEntries, l.eventId = l'.eventId → l = l'

/-- The invariant of the database. -/
structure Books (db : Db) : Prop where
  once : CreditedOnce db
  /-- A credited invoice has left `pending`. -/
  left : ∀ l ∈ db.ledgerEntries, l.type = .payment → Left db l.invoiceId
  /-- The foreign key `event_id`. -/
  event : ∀ l ∈ db.ledgerEntries, ∃ e ∈ db.paymentEvents, e.id = l.eventId

/-- The invariant of the call in progress. -/
def Clean (db : Db) : Phase → Prop
  | .matched inv => Stored db inv.id ∧ Uncredited db inv.id
  | .recorded inv eventId => Stored db inv.id ∧ Uncredited db inv.id ∧ Unused db eventId
  | .crediting c updated => Stored db c.inv.id ∧ Uncredited db c.inv.id ∧ Unused db c.eventId ∧
      (updated = some false → Left db c.inv.id)
  | _ => True

section Steps

variable {env : Env} {db db' : Db}

/-- The invariants depend on the ledger, on which events are stored, and on
invoices staying where they are. -/
structure Extends (db db' : Db) : Prop where
  ledger : db'.ledgerEntries = db.ledgerEntries
  events : ∀ e ∈ db.paymentEvents, e ∈ db'.paymentEvents
  stored : ∀ id, Stored db id → Stored db' id
  left : ∀ id, Left db id → Left db' id

theorem Extends.of_eq (h : db' = db) : Extends db db' := by
  subst h
  exact ⟨rfl, fun _ h => h, fun _ h => h, fun _ h => h⟩

theorem Books.extend (h : Books db) (hx : Extends db db') : Books db' := by
  refine ⟨⟨?_, ?_⟩, fun l hl ht => ?_, fun l hl => ?_⟩
  · rw [hx.ledger]
    exact h.once.invoice
  · rw [hx.ledger]
    exact h.once.event
  · rw [hx.ledger] at hl
    exact hx.left _ (h.left l hl ht)
  · rw [hx.ledger] at hl
    obtain ⟨e, he, hid⟩ := h.event l hl
    exact ⟨e, hx.events e he, hid⟩

theorem Uncredited.extend (hx : Extends db db') {id : Uuid} (h : Uncredited db id) :
    Uncredited db' id := by
  unfold Uncredited
  rwa [hx.ledger]

theorem Unused.extend (hx : Extends db db') {eventId : Nat} (h : Unused db eventId) :
    Unused db' eventId := by
  obtain ⟨⟨e, he, hid⟩, hl⟩ := h
  refine ⟨⟨e, hx.events e he, hid⟩, ?_⟩
  rwa [hx.ledger]

theorem Clean.extend (hx : Extends db db') {ph : Phase} (h : Clean db ph) : Clean db' ph := by
  cases ph with
  | matched inv => exact ⟨hx.stored _ h.1, h.2.extend hx⟩
  | recorded inv eventId => exact ⟨hx.stored _ h.1, h.2.1.extend hx, h.2.2.extend hx⟩
  | crediting c updated =>
    obtain ⟨hs, hun, hev, hleft⟩ := h
    exact ⟨hx.stored _ hs, hun.extend hx, hev.extend hx, fun hu => hx.left _ (hleft hu)⟩
  | idle | searching | logging | finishing | returned => trivial

/-- A pending invoice is not credited. -/
theorem Books.uncredited (h : Books db) {i : Invoice} (hi : i ∈ db.invoices)
    (hp : i.status = .pending) : Uncredited db i.id := fun l hl ht hid =>
  Left.status_ne (hid ▸ h.left l hl ht) hi hp

theorem extends_insertPaymentEvent {now : Timestamp} {payment : HorizonPayment}
    {invoiceId : Option Uuid} {ofacResult : String} {eventId : Nat}
    (h : insertPaymentEvent env now db payment invoiceId ofacResult = some (db', eventId)) :
    Extends db db' := by
  obtain ⟨-, e, -, -, -, hmem, -⟩ := insertPaymentEvent_some h
  obtain ⟨hinv, hledger⟩ := insertPaymentEvent_same h
  exact ⟨hledger, fun x hx => (hmem x).mpr (.inl hx), fun _ => stored_congr hinv,
    fun _ => left_congr hinv⟩

/-- The credit that a clean call commits is the first of its invoice and of its
event. -/
theorem books_commitCredit {c : Credit} {updated : Bool} {hooks : List Uuid} (h : Books db)
    (hclean : Clean db (.crediting c (some updated))) :
    Books (commitCredit db c updated hooks) := by
  obtain ⟨hstored, hun, ⟨⟨e, he, heid⟩, hunused⟩, hleft⟩ := hclean
  refine ⟨⟨?_, ?_⟩, ?_, ?_⟩
  · intro l hl l' hl' ht ht' hid
    rcases mem_ledger_commitCredit.mp hl with hl | rfl <;>
      rcases mem_ledger_commitCredit.mp hl' with hl' | rfl
    · exact h.once.invoice l hl l' hl' ht ht' hid
    · exact absurd hid (hun l hl ht)
    · exact absurd hid.symm (hun l' hl' ht')
    · rfl
  · intro l hl l' hl' hid
    rcases mem_ledger_commitCredit.mp hl with hl | rfl <;>
      rcases mem_ledger_commitCredit.mp hl' with hl' | rfl
    · exact h.once.event l hl l' hl' hid
    · exact absurd hid (hunused l hl)
    · exact absurd hid.symm (hunused l' hl')
    · rfl
  · intro l hl ht
    rcases mem_ledger_commitCredit.mp hl with hl | rfl
    · exact left_commitCredit (h.left l hl ht)
    · cases updated with
      | false => exact left_commitCredit (hleft rfl)
      | true =>
        -- the `UPDATE` found the row, which is now paid
        obtain ⟨i, hi, hid⟩ := hstored
        refine ⟨_, mem_invoices_commitCredit.mpr ⟨i, hi, rfl⟩, ?_⟩
        rw [if_pos ⟨rfl, hid⟩]
        exact ⟨hid, by simp [Credit.markPaid]⟩
  · intro l hl
    rcases mem_ledger_commitCredit.mp hl with hl | rfl
    · exact h.event l hl
    · exact ⟨e, he, heid⟩

/-- One statement of the reconciler keeps both invariants. -/
theorem books_phaseStep {now : Timestamp} {locked : Uuid → Bool} {payment : HorizonPayment}
    {w w' : World} {ph ph' : Phase} (h : Books w.db) (hclean : Clean w.db ph)
    (hstep : PhaseStep env now locked payment w ph w' ph') : Books w'.db ∧ Clean w'.db ph' := by
  cases hstep with
  | look hdb => exact ⟨h.extend (.of_eq hdb), trivial⟩
  | reject hdb => exact ⟨h.extend (.of_eq hdb), trivial⟩
  | skip => exact ⟨h, trivial⟩
  | found hi hp => exact ⟨h, ⟨_, hi, rfl⟩, h.uncredited hi hp⟩
  | log hins => exact ⟨h.extend (extends_insertPaymentEvent hins), trivial⟩
  | record hins =>
    have hx := extends_insertPaymentEvent hins
    obtain ⟨-, e, heid, -, hbelow, hmem, -⟩ := insertPaymentEvent_some hins
    refine ⟨h.extend hx, hx.stored _ hclean.1, hclean.2.extend hx,
      ⟨e, (hmem e).mpr (.inr rfl), heid⟩, fun l hl hid => ?_⟩
    -- ledger rows refer to older events
    rw [hx.ledger] at hl
    obtain ⟨x, hxe, hxid⟩ := h.event l hl
    have := hbelow x hxe
    omega
  | begin => exact ⟨h, hclean.1, hclean.2.1, hclean.2.2, fun hu => by cases hu⟩
  | write => exact ⟨h, hclean⟩
  | lock => exact ⟨h, hclean.1, hclean.2.1, hclean.2.2.1, fun hu => by cases hu⟩
  | miss hmiss =>
    obtain ⟨i, hi, hid⟩ := hclean.1
    exact ⟨h, hclean.1, hclean.2.1, hclean.2.2.1, fun _ => ⟨i, hi, hid, hmiss i hi hid⟩⟩
  | commit c updated hooks => exact ⟨books_commitCredit h hclean, trivial⟩
  | publish => exact ⟨h, trivial⟩
  | finish => exact ⟨h.extend ⟨rfl, fun _ h => h, fun _ h => h, fun _ h => h⟩, trivial⟩
  | fail => exact ⟨h, trivial⟩

variable {m : Nat}

/-- Everything but the reconciler's own statements extends the database. -/
theorem Effect.extends {s s' : Sys 1 m} {a : Label 1 m} (h : Effect env s s' a)
    (hexec : ∀ k now, a ≠ .exec k now) : Extends s.world.db s'.world.db := by
  have hrows : s'.world.db.ledgerEntries = s.world.db.ledgerEntries ∧
      s'.world.db.paymentEvents = s.world.db.paymentEvents := by
    cases h with
    | exec k now => exact absurd rfl (hexec k now)
    | deliver k payment hidle hw => exact ⟨by rw [hw], by rw [hw]⟩
    | abort k hrun hw => exact ⟨by rw [hw], by rw [hw]⟩
    | redis key value hdb => exact ⟨by rw [hdb], by rw [hdb]⟩
    | create hpending hnew hmem hdb => exact ⟨by rw [hdb], by rw [hdb]⟩
    | api _ self _ heffect => exact ⟨heffect.ledger, heffect.events⟩
  exact ⟨hrows.1, fun e he => hrows.2 ▸ he, fun _ => h.stored, fun _ => h.left⟩

/-- The invariant of a run. -/
structure OnceInv (s : Sys 1 m) : Prop where
  sound : s.Sound
  books : Books s.world.db
  clean : Clean s.world.db (s.calls 0).phase

/-- One step of the system keeps the invariant. -/
theorem onceInv_step {s s' : Sys 1 m} {a : Label 1 m} (h : OnceInv s)
    (hstep : (system env 1 m).step s a = some s') : OnceInv s' := by
  obtain ⟨heffect, hsound⟩ := step_effect h.sound hstep
  have hzero : ∀ k : Fin 1, k = 0 := fun k => Subsingleton.elim k 0
  cases heffect with
  | exec k now hrun hexec hcalls =>
    obtain rfl := hzero k
    have hclean := h.clean
    rw [hrun] at hclean
    obtain ⟨hbooks, hclean'⟩ := books_phaseStep h.books hclean (exec_phaseStep hexec)
    refine ⟨hsound, hbooks, ?_⟩
    rw [hcalls, Function.update_self, Next.phase_call]
    exact hclean'
  | deliver k payment hidle hw hcalls =>
    obtain rfl := hzero k
    refine ⟨hsound, hw ▸ h.books, ?_⟩
    rw [hcalls, Function.update_self]
    trivial
  | abort k hrun hw hcalls =>
    obtain rfl := hzero k
    refine ⟨hsound, hw ▸ h.books, ?_⟩
    rw [hcalls, Function.update_self]
    trivial
  | redis key value hdb hredis hcalls =>
    exact ⟨hsound, hdb ▸ h.books, by rw [hcalls, hdb]; exact h.clean⟩
  | create hpending hnew hmem hdb hredis hcalls =>
    have heffect : Effect env s s' _ := .create hpending hnew hmem hdb hredis hcalls
    have hx := heffect.extends (by simp)
    exact ⟨hsound, h.books.extend hx, by rw [hcalls]; exact h.clean.extend hx⟩
  | api hsys self hself heff hredis hcalls =>
    have hx := (show Effect env s s' a from .api hsys self hself heff hredis hcalls).extends hsys
    exact ⟨hsound, h.books.extend hx, by rw [hcalls]; exact h.clean.extend hx⟩

/-- **No double credit with one reconciler.** In every run of one reconciler
process with any number of API calls, from an empty ledger, every invoice has at
most one ledger row of type `payment`, and every event at most one ledger row. -/
theorem creditedOnce_of_run {s t : Sys 1 m} {run : List (Label 1 m)} (hidle : s.Idle)
    (hempty : s.world.db.ledgerEntries = .empty)
    (hrun : (system env 1 m).run s run = some t) : CreditedOnce t.world.db := by
  have hno : ∀ l, l ∉ s.world.db.ledgerEntries := fun l hl => by
    rw [hempty] at hl
    cases hl
  have hinit : OnceInv s :=
    { sound := hidle.sound
      books :=
        { once := ⟨fun l hl => absurd hl (hno l), fun l hl => absurd hl (hno l)⟩
          left := fun l hl => absurd hl (hno l)
          event := fun l hl => absurd hl (hno l) }
      clean := by
        rw [hidle.calls]
        trivial }
  exact ((system env 1 m).inv_of_run (fun _ _ _ => onceInv_step) hinit hrun).books.once

end Steps

/-- A call that fails, the same payment again, a partial payment that comes too
late, and a second payment of the same invoice. -/
def repeatedPayments : List (Label 1 1) :=
  .deliver 0 (fullPayment "token_happy_001") :: execs 4 ++ .abort 0 ::
    .deliver 0 (fullPayment "token_happy_001") :: execs 12 ++
    .applyPartial 0 1 "10.5000000" :: .api 0 0 ::
    .deliver 0 (fullPayment "token_happy_002") :: execs 5

theorem creditedOnce_of_run_repeated :
    ∃ t, (system testEnv 1 1).run onePending repeatedPayments = some t ∧
      t.world.db.ledgerEntries.rows.length = 1 ∧ t.world.db.paymentEvents.rows.length = 2 ∧
      CreditedOnce t.world.db := by
  obtain ⟨t, ht, hledger, hevents⟩ := (system testEnv 1 1).exists_of_leadsTo
    (fun t => t.world.db.ledgerEntries.rows.length = 1 ∧ t.world.db.paymentEvents.rows.length = 2)
    onePending repeatedPayments (by decide +kernel)
  exact ⟨t, ht, hledger, hevents, creditedOnce_of_run ⟨fun _ => rfl, fun _ => rfl⟩ rfl ht⟩

end Stargate.Reconciler
