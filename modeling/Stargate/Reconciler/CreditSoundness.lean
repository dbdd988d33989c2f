import Stargate.Reconciler.Phases

/-!
# Credit soundness

A call of `process_payment` that nothing interleaves with credits at most one
invoice, and only one that the payment may pay: `Creditable` lists what must
have held before the call. Every prefix of the call is covered, so a call that
fails or crashes half-way is too.

The invariant (`SoloBooks`) says phase by phase how the database differs from
the one the call started on; what the call has read is `Knows`, over that first
database.
-/

namespace Stargate.Reconciler

open Base

/-- What must hold of a stored invoice for a payment to credit it. -/
structure Creditable (env : Env) (payment : HorizonPayment) (w : World) (i : Invoice) : Prop where
  pending : i.status = .pending
  /-- The payment was not processed before. -/
  fresh : ∀ e ∈ w.db.paymentEvents, e.pagingToken ≠ payment.pagingToken
  screened : ∃ ofac, screenAddress env w.redis payment.fromAddress = some ofac ∧
    ofac.result ≠ "blocked"
  asset : PaysIn env.config payment i.currency
  amount : env.decimalFromStr payment.amount = some (roundDp7 i.grossUsdc)
  addressed : AddressedTo payment i

/-- Invoices and ledger are the same. -/
structure SameBooks (w w' : World) : Prop where
  invoices : w'.db.invoices = w.db.invoices
  ledger : w'.db.ledgerEntries = w.db.ledgerEntries

/-- Of invoices and ledger, exactly this credit is new. -/
structure CreditedBy (c : Credit) (w w' : World) : Prop where
  invoices : w'.db.invoices.rows
    = w.db.invoices.rows.map fun i => if i.id = c.inv.id then c.markPaid i else i
  ledger : w'.db.ledgerEntries.rows
    = w.db.ledgerEntries.rows ++ [c.entry w.db.ledgerEntries.nextId]

/-- The database of a lone call, by phase. Before the event is written nothing
has changed; the event is written only if its token was free. -/
def SoloBooks (env : Env) (V : OfacResult → Prop) (payment : HorizonPayment) (w₀ w : World) :
    Phase → Prop
  | .idle | .searching | .logging | .matched _ => w.db = w₀.db
  | .recorded _ _ => SameBooks w₀ w ∧ hasEvent w₀.db payment.pagingToken = false
  | .crediting _ updated => SameBooks w₀ w ∧ hasEvent w₀.db payment.pagingToken = false ∧
      updated ≠ some false
  | .finishing | .returned _ => SameBooks w₀ w ∨
      ∃ c, CreditedBy c w₀ w ∧ hasEvent w₀.db payment.pagingToken = false ∧
        Due env V w₀.db payment c.inv

section Solo

variable {env : Env} {payment : HorizonPayment} {w₀ w w' : World}

/-- The screening results that the cache has for a payment's sender. -/
def Screened (env : Env) (w₀ : World) (payment : HorizonPayment) (ofac : OfacResult) : Prop :=
  screenAddress env w₀.redis payment.fromAddress = some ofac

/-- Whatever the phase, a failed call leaves the books as they were or credited. -/
theorem SoloBooks.returned {V : OfacResult → Prop} {ph : Phase}
    (h : SoloBooks env V payment w₀ w ph) (ok : Bool) :
    SoloBooks env V payment w₀ w (.returned ok) := by
  cases ph with
  | idle | searching | logging | matched =>
    exact .inl ⟨congrArg Db.invoices h, congrArg Db.ledgerEntries h⟩
  | recorded inv eventId => exact .inl h.1
  | crediting c updated => exact .inl h.1
  | finishing => exact h
  | returned _ => exact h

/-- A due invoice is stored, and pending. -/
theorem Due.exists_pending {V : OfacResult → Prop} {db : Db} {inv : InvoiceRow}
    (h : Due env V db payment inv) :
    ∃ i ∈ db.invoices, inv = .of i ∧ i.status = .pending ∧
      i.currency.code = paymentAssetCurrency payment ∧ AddressedTo payment i :=
  matchInvoice_some h.matched

/-- One statement keeps the invariant. The claim of the call, if it has one, is
due over the first database. -/
theorem soloBooks_step {V : OfacResult → Prop} {now : Timestamp} {ph ph' : Phase}
    (hdue : ∀ inv, ph.claim = some inv → Due env V w₀.db payment inv)
    (h : SoloBooks env V payment w₀ w ph)
    (hstep : PhaseStep env now (fun _ => false) payment w ph w' ph') :
    SoloBooks env V payment w₀ w' ph' := by
  cases hstep with
  | look hdb => exact hdb.trans h
  | reject hdb => exact hdb.trans h
  | skip => exact .inl ⟨congrArg Db.invoices h, congrArg Db.ledgerEntries h⟩
  | found => exact h
  | log hins =>
    obtain ⟨h₁, h₂⟩ := insertPaymentEvent_same hins
    exact .inl ⟨h₁.trans (congrArg Db.invoices h), h₂.trans (congrArg Db.ledgerEntries h)⟩
  | record hins =>
    obtain ⟨h₁, h₂⟩ := insertPaymentEvent_same hins
    have hfresh := (insertPaymentEvent_some hins).1
    rw [show w.db = w₀.db from h] at hfresh
    exact ⟨⟨h₁.trans (congrArg Db.invoices h), h₂.trans (congrArg Db.ledgerEntries h)⟩, hfresh⟩
  | begin => exact ⟨h.1, h.2, by simp⟩
  | write => exact h
  | lock => exact ⟨h.1, h.2.1, by simp⟩
  | miss hmiss =>
    -- nothing can have taken the invoice away
    obtain ⟨i, hi, hof, hp, -⟩ := (hdue _ rfl).exists_pending
    rw [← h.1.invoices] at hi
    exact absurd hp (hmiss i hi (congrArg InvoiceRow.id hof).symm)
  | commit c updated hooks =>
    obtain ⟨⟨hinv, hledger⟩, hfresh, hupd⟩ := h
    have : updated = true := by
      cases updated
      · exact absurd rfl hupd
      · rfl
    subst this
    refine .inr ⟨c, ⟨?_, ?_⟩, hfresh, hdue _ rfl⟩
    · simp [commitCredit, Table.modify, hinv]
    · simp [commitCredit, hledger]
  | publish =>
    rcases h with h | ⟨c, h, hrest⟩
    · exact .inl ⟨h.invoices, h.ledger⟩
    · exact .inr ⟨c, ⟨h.invoices, h.ledger⟩, hrest⟩
  | finish =>
    rcases h with h | ⟨c, h, hrest⟩
    · exact .inl ⟨h.invoices, h.ledger⟩
    · exact .inr ⟨c, ⟨h.invoices, h.ledger⟩, hrest⟩
  | fail => exact h.returned false

/-- The first two statements leave everything as it is. -/
theorem eq_of_rank_le_one {now : Timestamp} {pc : Pc} {next : Next} (hpc : pc = .eventExists)
    (h : exec env now (fun _ => false) w payment pc = some (w', next)) : w' = w := by
  subst hpc
  rw [exec_eventExists] at h
  split at h
  · cases h
    rfl
  · split at h <;> cases h <;> rfl

/-- The invariant of a lone call. Screening reads the cache that the call
started on. -/
theorem solo_inv {next : Next} (h : Solo env payment w₀ w next) :
    next.Knows env (Screened env w₀ payment) w₀.db payment ∧
      SoloBooks env (Screened env w₀ payment) payment w₀ w next.phase ∧
      ∀ pc, next = .goto pc → pc.rank ≤ 1 → w = w₀ := by
  induction h with
  | start => exact ⟨trivial, rfl, fun _ _ _ => rfl⟩
  | exec hsolo hexec ih =>
    next w w' pc next now =>
    obtain ⟨hknows, hbooks, hsame⟩ := ih
    have hsearch : pc.phase = .searching → w.db.invoices = w₀.db.invoices := fun hph => by
      have hdb : SoloBooks env (Screened env w₀ payment) payment w₀ w .searching := hph ▸ hbooks
      exact congrArg Db.invoices hdb
    have hnext := knows_exec hsearch
      (fun hpc ofac hof => by
        rwa [hsame pc rfl (by rw [hpc]; exact Nat.le_refl _)] at hof) hknows hexec
    refine ⟨hnext, ?_, fun pc' hpc' hrank => ?_⟩
    · refine soloBooks_step (fun inv hclaim => ?_) hbooks (exec_phaseStep hexec)
      exact Knows.due hknows hclaim
    · subst hpc'
      have hpc : pc = .eventExists := Pc.eq_eventExists (by have := (rank_exec hexec).1; omega)
      rw [eq_of_rank_le_one hpc hexec]
      exact hsame pc rfl (by rw [hpc]; exact Nat.zero_le _)

/-- A call does not touch merchants. -/
theorem PhaseStep.merchants {now : Timestamp} {locked : Uuid → Bool} {ph ph' : Phase}
    (h : PhaseStep env now locked payment w ph w' ph') : w'.db.merchants = w.db.merchants := by
  cases h with
  | look hdb => rw [hdb]
  | reject hdb => rw [hdb]
  | log hins =>
    obtain ⟨-, e, -, -, -, -, hdb⟩ := insertPaymentEvent_some hins
    rw [hdb]
  | record hins =>
    obtain ⟨-, e, -, -, -, -, hdb⟩ := insertPaymentEvent_some hins
    rw [hdb]
  | _ => rfl

theorem Solo.merchants {next : Next} (h : Solo env payment w₀ w next) :
    w.db.merchants = w₀.db.merchants := by
  induction h with
  | start => rfl
  | exec _ hexec ih => exact (exec_phaseStep hexec).merchants.trans ih

/-- **Credit soundness.** A lone call, finished or not, either leaves invoices
and ledger alone or credits exactly one invoice, which was creditable. -/
theorem solo_credit_sound {next : Next} (h : Solo env payment w₀ w next) :
    SameBooks w₀ w ∨
      ∃ i ∈ w₀.db.invoices, Creditable env payment w₀ i ∧
        ∃ eventId now, CreditedBy ⟨.of i, eventId, now⟩ w₀ w := by
  obtain ⟨-, hbooks, -⟩ := solo_inv h
  rcases hbooks.returned true with hsame | ⟨⟨inv, eventId, now⟩, hcredit, hfresh, hdue⟩
  · exact .inl hsame
  · obtain ⟨i, hi, rfl, hp, hcur, haddr⟩ := hdue.exists_pending
    obtain ⟨ofac, hcleared⟩ := hdue.cleared
    refine .inr ⟨i, hi, ?_, eventId, now, hcredit⟩
    exact
      { pending := hp
        fresh := fun e he htok => by
          rw [hasEvent_iff.mpr ⟨e, he, htok⟩] at hfresh
          cases hfresh
        screened := ⟨ofac, hcleared.screened, hcleared.not_blocked⟩
        asset := (paysIn_iff _ _ _).mp ⟨hcleared.accepted, hcur⟩
        amount := by rw [roundDp7_eq]; exact hdue.amount
        addressed := haddr }

end Solo

/-- The call of `test_process_payment_happy_path`, run to its end. -/
theorem solo_credit_sound_happy_path :
    let w₀ : World := { db := seedDb (seedInvoice 1 99099) }
    let payment := makePayment "token_happy_001" "M99099" "10.5000000"
    let r := processPayment testEnv 0 w₀ payment
    r.2 = .ret true ∧ r.1.db.invoices ≠ w₀.db.invoices ∧
      (SameBooks w₀ r.1 ∨
        ∃ i ∈ w₀.db.invoices, Creditable testEnv payment w₀ i ∧
          ∃ eventId now, CreditedBy ⟨.of i, eventId, now⟩ w₀ r.1) :=
  ⟨by decide +kernel, by decide +kernel, solo_credit_sound (solo_processPayment _ _ _ _)⟩

end Stargate.Reconciler
