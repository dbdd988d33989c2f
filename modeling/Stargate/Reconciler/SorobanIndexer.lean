import Stargate.Base.Json
import Stargate.Base.Transition
import Stargate.Reconciler.Processor

/-!
# The Soroban indexer (`soroban_indexer.rs`, `main.rs`)

`main` polls the RPC for the events of one contract. A poll asks for the events from
`start_ledger` on, stores those of the answer, and returns the latest ledger; the next poll
starts one ledger below it. An answer has 200 events at most.

- `indexer`: polls that may fail at any point, beside a log that grows;
- `fits`: what lies below the ledger before the latest one fits into the page;
- `misses_nothing`: then every event below the next start is stored;
- `misses_burst`: with 201 events in one interval, one of them is never stored.
-/

namespace Stargate.Soroban

open Base

/-- `SorobanEvent`. -/
structure SorobanEvent where
  pagingToken : String
  contractId : String
  ledger : Nat
  txHash : String
  /-- `type`. -/
  eventType : String
  topic : List Json
  value : Option Json

/-- A row of `soroban_contract_events`. -/
structure ContractEvent where
  contractId : String
  ledgerSequence : Int
  pagingToken : String
  txHash : String
  eventType : String
  topics : List Json
  value : Option Json
  invoiceId : Option Uuid
  merchantId : Option Uuid

/-- `UNIQUE (paging_token)`. -/
instance keyedContractEvent : Keyed ContractEvent where
  Key := String
  key := ContractEvent.pagingToken
  Clash a b := a = b
  clash_symm := Eq.symm
  decClash := inferInstance

/-! ## One event -/

/-- `s.parse::<i64>()`. -/
def parseI64 (s : List Char) : Option Int :=
  (integer? s).filter fun v => -2 ^ 63 ≤ v ∧ v < 2 ^ 63

/-- `try_resolve_invoice`: the invoice of the first topic that is a stored muxed id. -/
def tryResolveInvoice (db : Db) : List Json → Option Uuid
  | [] => none
  | .string text :: topics =>
    match (parseI64 text).bind fun muxedId => db.invoices.find? fun i => i.muxedId == muxedId with
    | some i => some i.id
    | none => tryResolveInvoice db topics
  | _ :: topics => tryResolveInvoice db topics

/-- `event.ledger as i64`. -/
def asI64 (n : Nat) : Int := Int.bmod n (2 ^ 64)

/-- The row of an event. -/
def SorobanEvent.row (db : Db) (event : SorobanEvent) : ContractEvent :=
  let invoiceId := tryResolveInvoice db event.topic
  { contractId := event.contractId
    ledgerSequence := asI64 event.ledger
    pagingToken := event.pagingToken
    txHash := event.txHash
    eventType := event.eventType
    topics := event.topic
    value := event.value
    invoiceId
    merchantId := invoiceId.bind fun id =>
      (db.invoices.find? fun i => i.id == id).map Invoice.merchantId }

/-- `ON CONFLICT (paging_token) DO NOTHING`. -/
def insertIgnore (stored : Table ContractEvent) (r : ContractEvent) : Table ContractEvent :=
  (stored.insert? r).getD stored

/-- The body of the loop over the events. The column of `SELECT 1` is an `INT4` and the query
asks for an `i64`: where the token is stored, the poll fails (`none`). -/
def store (db : Db) (stored : Table ContractEvent) (event : SorobanEvent) :
    Option (Table ContractEvent) :=
  if stored.rows.any fun r => r.pagingToken == event.pagingToken then none
  else some (insertIgnore stored (event.row db))

/-! ## The loop -/

/-- `"limit": 200`. -/
def limit : Nat := 200

/-- `getEvents`: the first events of the contract from a ledger on. -/
def getEvents (contractId : String) (startLedger : Nat) (log : List SorobanEvent) :
    List SorobanEvent :=
  (log.filter fun e => e.contractId == contractId && startLedger ≤ e.ledger).take limit

/-- Where the loop stands. -/
inductive Pc where
  /-- With what the last poll returned, if it did not fail. -/
  | sleeping (latest : Option Nat)
  | indexing (events : List SorobanEvent) (latest : Nat)

/-- What the last poll returned. -/
def Pc.returned : Pc → Option Nat
  | .sleeping latest => latest
  | .indexing _ _ => none

/-- The events of the network in the order of their ledgers, its latest ledger, and the
database and the variable of the loop. -/
structure World where
  log : List SorobanEvent
  latestLedger : Nat
  db : Db
  stored : Table ContractEvent
  startLedger : Nat
  pc : Pc

/-- What the RPC answers. -/
inductive Answer where
  /-- No answer, an error, or one that cannot be read. -/
  | failed
  /-- Neither an error nor a result. -/
  | noResult
  | events
  deriving DecidableEq

inductive Step where
  | grow (events : List SorobanEvent) (latestLedger : Nat)
  /-- The rest of the platform. -/
  | platform (db : Db)
  | poll (answer : Answer)
  /-- The next event of the answer, or the end of the poll. -/
  | index
  /-- A statement fails. -/
  | fail

/-- What may be added to the log: events that come after those of the log, each with a token
of its own. The latest ledger and the one before it may still get events. -/
def Extends (w : World) (events : List SorobanEvent) (latestLedger : Nat) : Prop :=
  w.latestLedger ≤ latestLedger ∧
  (∀ e ∈ events, w.latestLedger - 1 ≤ e.ledger ∧ e.ledger ≤ latestLedger) ∧
  ((w.log ++ events).Pairwise fun a b => a.ledger ≤ b.ledger) ∧
  ((w.log ++ events).map SorobanEvent.pagingToken).Nodup

instance decidableExtends (w : World) (events : List SorobanEvent) (latestLedger : Nat) :
    Decidable (Extends w events latestLedger) :=
  inferInstanceAs (Decidable (_ ∧ _ ∧ _ ∧ _))

/-- The loop of `main`, and the network. -/
def indexer (contractId : String) : Lts World Step where
  step w
    | .grow events latestLedger =>
      if Extends w events latestLedger then
        some { w with log := w.log ++ events, latestLedger }
      else none
    | .platform db => some { w with db }
    | .poll answer =>
      match w.pc, answer with
      | .sleeping _, .failed => some { w with pc := .sleeping none }
      | .sleeping _, .noResult =>
        some { w with startLedger := w.startLedger - 1, pc := .sleeping (some w.startLedger) }
      | .sleeping _, .events =>
        some { w with
          pc := .indexing (getEvents contractId w.startLedger w.log) w.latestLedger }
      | .indexing _ _, _ => none
    | .index =>
      match w.pc with
      | .indexing [] latest =>
        some { w with startLedger := latest - 1, pc := .sleeping (some latest) }
      | .indexing (event :: events) latest =>
        match store w.db w.stored event with
        | some stored => some { w with stored, pc := .indexing events latest }
        | none => some { w with pc := .sleeping none }
      | .sleeping _ => none
    | .fail =>
      match w.pc with
      | .indexing _ _ => some { w with pc := .sleeping none }
      | .sleeping _ => none

/-! ## What one page has -/

/-- In a list where what meets a condition comes before what does not, the first `k` elements
have all that meet it, if these are `k` at most. -/
theorem mem_take_of_filter_le {α : Type} {p : α → Bool} {l : List α} {k : Nat}
    (hsorted : l.Pairwise fun a b => p b = true → p a = true) (hle : (l.filter p).length ≤ k)
    {x : α} (hx : x ∈ l) (hp : p x = true) : x ∈ l.take k := by
  induction l generalizing k with
  | nil => cases hx
  | cons a l ih =>
    obtain ⟨hhead, htail⟩ := List.pairwise_cons.mp hsorted
    have ha : p a = true := by
      rcases List.mem_cons.mp hx with rfl | hx
      · exact hp
      · exact hhead x hx hp
    rw [List.filter_cons_of_pos ha, List.length_cons] at hle
    cases k with
    | zero => omega
    | succ k =>
      rw [List.take_succ_cons]
      rcases List.mem_cons.mp hx with rfl | hx
      · exact List.mem_cons_self
      · exact List.mem_cons_of_mem _ (ih htail (by omega) hx)

section Indexer

variable {contractId : String} {first : Nat} {w w' : World} {e : SorobanEvent}

/-- The row has what the event says. -/
structure ContractEvent.Of (r : ContractEvent) (e : SorobanEvent) : Prop where
  contractId : r.contractId = e.contractId
  ledger : r.ledgerSequence = asI64 e.ledger
  pagingToken : r.pagingToken = e.pagingToken
  txHash : r.txHash = e.txHash
  eventType : r.eventType = e.eventType
  topics : r.topics = e.topic
  value : r.value = e.value

/-- The event is stored. -/
def Stored (stored : Table ContractEvent) (e : SorobanEvent) : Prop := ∃ r ∈ stored, r.Of e

theorem of_row (db : Db) (e : SorobanEvent) : (e.row db).Of e where
  contractId := by simp only [SorobanEvent.row]
  ledger := by simp only [SorobanEvent.row]
  pagingToken := by simp only [SorobanEvent.row]
  txHash := by simp only [SorobanEvent.row]
  eventType := by simp only [SorobanEvent.row]
  topics := by simp only [SorobanEvent.row]
  value := by simp only [SorobanEvent.row]

/-- **What `store` does**: the token was not in the table, and exactly the row of the event is
added. -/
theorem store_some {db : Db} {stored stored' : Table ContractEvent}
    (h : store db stored e = some stored') :
    (∀ r ∈ stored, r.pagingToken ≠ e.pagingToken) ∧ stored'.rows = stored.rows ++ [e.row db] := by
  unfold store at h
  split at h
  · cases h
  · next hnone =>
    cases h
    have hnew : ∀ r ∈ stored, r.pagingToken ≠ e.pagingToken := fun r hr htoken =>
      hnone (List.any_eq_true.mpr ⟨r, hr, beq_iff_eq.mpr htoken⟩)
    refine ⟨hnew, ?_⟩
    cases hins : stored.insert? (e.row db) with
    | some stored' =>
      rw [insertIgnore, hins]
      exact (Table.insert?_eq_some.mp hins).2
    | none =>
      unfold Table.insert? at hins
      split at hins
      · cases hins
      · next hclash => exact absurd (fun r hr => hnew r hr) hclash

theorem store_of_new (db : Db) {stored : Table ContractEvent}
    (hnew : ∀ r ∈ stored, r.pagingToken ≠ e.pagingToken) :
    ∃ stored', store db stored e = some stored' := by
  refine ⟨_, if_neg fun hany => ?_⟩
  obtain ⟨r, hr, htoken⟩ := List.any_eq_true.mp hany
  exact hnew r hr (beq_iff_eq.mp htoken)

/-- The rows after one event: those before it, and its own. -/
theorem mem_store {db : Db} {stored stored' : Table ContractEvent} {r : ContractEvent}
    (h : store db stored e = some stored') : r ∈ stored' ↔ r ∈ stored ∨ r = e.row db := by
  rw [← Table.mem_rows, (store_some h).2, List.mem_append, List.mem_singleton, Table.mem_rows]

/-! ## Every poll -/

/-- What the next poll will not ask for again: the events from `startLedger` on that are below
the ledger before the latest one. -/
def due (contractId : String) (w : World) : List SorobanEvent :=
  w.log.filter fun e =>
    e.contractId == contractId && w.startLedger ≤ e.ledger && e.ledger < w.latestLedger - 1

/-- All that is due fits into the answer. -/
def fits (contractId : String) (w : World) : Step → Prop
  | .poll .events => (due contractId w).length ≤ limit
  | _ => True

instance decidableFits (contractId : String) : ∀ w s, Decidable (fits contractId w s)
  | w, .poll .events => inferInstanceAs (Decidable ((due contractId w).length ≤ limit))
  | _, .poll .failed | _, .poll .noResult | _, .grow .. | _, .platform _ | _, .index | _, .fail =>
    .isTrue trivial

/-- What is due is in the answer. -/
theorem mem_getEvents {w : World} (hsorted : w.log.Pairwise fun a b => a.ledger ≤ b.ledger)
    (hfits : (due contractId w).length ≤ limit) (he : e ∈ due contractId w) :
    e ∈ getEvents contractId w.startLedger w.log := by
  have hsplit : due contractId w
      = (w.log.filter fun e => e.contractId == contractId && w.startLedger ≤ e.ledger).filter
          fun e => e.ledger < w.latestLedger - 1 := by
    rw [List.filter_filter]
    refine List.filter_congr fun e _ => ?_
    exact Bool.and_comm _ _
  rw [hsplit] at hfits he
  obtain ⟨hmem, hlt⟩ := List.mem_filter.mp he
  refine mem_take_of_filter_le (List.Pairwise.imp ?_ (hsorted.filter _)) hfits hmem hlt
  intro a b hab hb
  have hb := of_decide_eq_true hb
  exact decide_eq_true (by omega)

/-- Every event of the contract from `first` on and below `ledger` meets `P`. -/
def Below (contractId : String) (first ledger : Nat) (w : World) (P : SorobanEvent → Prop) : Prop :=
  ∀ e ∈ w.log, e.contractId = contractId → first ≤ e.ledger → e.ledger < ledger → P e

/-- Where the loop stands: an answer has all that is not stored of what it must have. -/
def Pc.Complete (contractId : String) (first : Nat) (w : World) : Pc → Prop
  | .sleeping _ => True
  | .indexing events latest =>
    latest ≤ w.latestLedger ∧ (∀ e ∈ events, e ∈ w.log) ∧
      Below contractId first (latest - 1) w fun e => Stored w.stored e ∨ e ∈ events

/-- The invariant. -/
structure Kept (contractId : String) (first : Nat) (w : World) : Prop where
  sorted : w.log.Pairwise fun a b => a.ledger ≤ b.ledger
  bounded : ∀ e ∈ w.log, e.ledger ≤ w.latestLedger
  start : w.startLedger ≤ first ∨ w.startLedger ≤ w.latestLedger - 1
  below : Below contractId first w.startLedger w (Stored w.stored)
  atPc : w.pc.Complete contractId first w

theorem kept_grow {events : List SorobanEvent} {latestLedger : Nat} (hk : Kept contractId first w)
    (hext : Extends w events latestLedger) :
    Kept contractId first { w with log := w.log ++ events, latestLedger } := by
  obtain ⟨hle, hnew, hsorted, -⟩ := hext
  -- a new event is too late for what is already complete
  have hlater : ∀ ledger P, ledger ≤ first ∨ ledger ≤ w.latestLedger - 1 →
      Below contractId first ledger w P →
      Below contractId first ledger { w with log := w.log ++ events, latestLedger } P := by
    intro ledger P hledger hbelow e he hcontract hfirst hlt
    rcases List.mem_append.mp he with he | he
    · exact hbelow e he hcontract hfirst hlt
    · have := (hnew e he).1
      omega
  constructor
  · exact hsorted
  · show ∀ e ∈ w.log ++ events, e.ledger ≤ latestLedger
    intro e he
    rcases List.mem_append.mp he with he | he
    · exact (hk.bounded e he).trans hle
    · exact (hnew e he).2
  · show w.startLedger ≤ first ∨ w.startLedger ≤ latestLedger - 1
    have := hk.start
    omega
  · exact hlater _ _ hk.start hk.below
  · show w.pc.Complete contractId first _
    have hpc := hk.atPc
    cases hp : w.pc with
    | sleeping latest => trivial
    | indexing page latest =>
      rw [hp] at hpc
      obtain ⟨hlatest, hpage, hbelow⟩ := hpc
      exact ⟨hlatest.trans hle, fun e he => List.mem_append_left _ (hpage e he),
        hlater _ _ (.inr (by omega)) hbelow⟩

theorem kept_poll {answer : Answer} (hk : Kept contractId first w)
    (hfits : fits contractId w (.poll answer))
    (h : (indexer contractId).step w (.poll answer) = some w') : Kept contractId first w' := by
  simp only [indexer] at h
  split at h
  · cases h
    exact { hk with atPc := trivial }
  · cases h
    -- the next poll starts one ledger earlier
    constructor
    · exact hk.sorted
    · exact hk.bounded
    · show w.startLedger - 1 ≤ first ∨ w.startLedger - 1 ≤ w.latestLedger - 1
      have := hk.start
      omega
    · intro e he hcontract hfirst hlt
      have hlt : e.ledger < w.startLedger - 1 := hlt
      exact hk.below e he hcontract hfirst (by omega)
    · trivial
  · cases h
    refine { hk with atPc := ⟨Nat.le_refl _, ?_, ?_⟩ }
    · intro e he
      exact (List.mem_filter.mp (List.mem_of_mem_take he)).1
    · intro e he hcontract hfirst hlt
      by_cases hstart : e.ledger < w.startLedger
      · exact .inl (hk.below e he hcontract hfirst hstart)
      · refine .inr (mem_getEvents hk.sorted hfits (List.mem_filter.mpr ⟨he, ?_⟩))
        simp only [Bool.and_eq_true, decide_eq_true_eq, beq_iff_eq]
        exact ⟨⟨hcontract, by omega⟩, hlt⟩
  · cases h

theorem kept_index (hk : Kept contractId first w)
    (h : (indexer contractId).step w .index = some w') : Kept contractId first w' := by
  have hpc := hk.atPc
  simp only [indexer] at h
  cases hp : w.pc with
  | sleeping latest =>
    rw [hp] at h
    cases h
  | indexing page latest =>
    rw [hp] at h hpc
    obtain ⟨hlatest, hpage, hbelow⟩ := hpc
    cases page with
    | nil =>
      cases h
      constructor
      · exact hk.sorted
      · exact hk.bounded
      · show latest - 1 ≤ first ∨ latest - 1 ≤ w.latestLedger - 1
        omega
      · intro e he hcontract hfirst hlt
        rcases hbelow e he hcontract hfirst hlt with hstored | hmem
        · exact hstored
        · cases hmem
      · trivial
    | cons event page =>
      cases hs : store w.db w.stored event with
      | none =>
        simp only [hs] at h
        cases h
        exact { hk with atPc := trivial }
      | some stored =>
        simp only [hs] at h
        cases h
        have hmono : ∀ e, Stored w.stored e → Stored stored e := by
          rintro e ⟨r, hr, hof⟩
          exact ⟨r, (mem_store hs).mpr (.inl hr), hof⟩
        constructor
        · exact hk.sorted
        · exact hk.bounded
        · exact hk.start
        · intro e he hcontract hfirst hlt
          exact hmono e (hk.below e he hcontract hfirst hlt)
        · refine ⟨hlatest, fun e he => hpage e (List.mem_cons_of_mem _ he), ?_⟩
          intro e he hcontract hfirst hlt
          rcases hbelow e he hcontract hfirst hlt with hstored | hmem
          · exact .inl (hmono e hstored)
          · rcases List.mem_cons.mp hmem with rfl | hmem
            · exact .inl ⟨_, (mem_store hs).mpr (.inr rfl), of_row w.db e⟩
            · exact .inr hmem

theorem kept_step {s : Step} (hk : Kept contractId first w) (hfits : fits contractId w s)
    (h : (indexer contractId).step w s = some w') : Kept contractId first w' := by
  cases s with
  | grow events latestLedger =>
    simp only [indexer] at h
    split at h
    · next hext =>
      cases h
      exact kept_grow hk hext
    · cases h
  | platform db =>
    cases h
    exact { hk with atPc := hk.atPc }
  | poll answer => exact kept_poll hk hfits h
  | index => exact kept_index hk h
  | fail =>
    simp only [indexer] at h
    split at h
    · cases h
      exact { hk with atPc := trivial }
    · cases h

/-- Before the first poll. -/
structure Start (first : Nat) (w : World) : Prop where
  sorted : w.log.Pairwise fun a b => a.ledger ≤ b.ledger
  bounded : ∀ e ∈ w.log, e.ledger ≤ w.latestLedger
  start : w.startLedger = first
  sleeping : w.pc = .sleeping none

/-- After a poll that returned, what is below the returned ledger is stored or comes again. -/
def MissesNothing (contractId : String) (first : Nat) (w : World) : Prop :=
  ∀ latest, w.pc.returned = some latest →
    Below contractId first latest w fun e => Stored w.stored e ∨ w.startLedger ≤ e.ledger

theorem Kept.of_start (h : Start first w) : Kept contractId first w where
  sorted := h.sorted
  bounded := h.bounded
  start := .inl h.start.le
  below := by
    intro e _ _ hfirst hlt
    have := h.start
    omega
  atPc := by
    rw [h.sleeping]
    trivial

/-- **Where all that is due fits into every answer, no event is missed**, whatever the network
adds and wherever polls fail. -/
theorem misses_nothing {steps : List Step} (h₀ : Start first w)
    (hg : (indexer contractId).Guarded (fits contractId) w steps)
    (hr : (indexer contractId).run w steps = some w') : MissesNothing contractId first w' := by
  have hk : Kept contractId first w' :=
    (indexer contractId).inv_of_guarded_run (fun _ _ _ => kept_step) (.of_start h₀) hg hr
  intro latest _ e he hcontract hfirst _
  by_cases hlt : e.ledger < w'.startLedger
  · exact .inl (hk.below e he hcontract hfirst hlt)
  · exact .inr (Nat.not_lt.mp hlt)

/-! ## Fixed inputs -/

/-- An event of the contract of the tests in ledger 1. -/
def testEvent (i : Nat) : SorobanEvent where
  pagingToken := .ofList (Nat.toDigits 10 i)
  contractId := "C"
  ledger := 1
  txHash := "T"
  eventType := "contract"
  topic := []
  value := none

/-- Nothing has happened yet. -/
def quiet : World where
  log := []
  latestLedger := 1
  db := Reconciler.seedDb (Reconciler.seedInvoice 1 99099)
  stored := .empty
  startLedger := 0
  pc := .sleeping none

theorem start_quiet : Start 0 quiet where
  sorted := .nil
  bounded := by
    intro e he
    cases he
  start := rfl
  sleeping := rfl

/-- A poll fails, a second one finds nothing, and a third one finds an event. -/
theorem misses_nothing_quiet : ∃ w steps t, Start 0 w ∧
    (indexer "C").Guarded (fits "C") w steps ∧ (indexer "C").run w steps = some t ∧
    MissesNothing "C" 0 t ∧
    t.pc.returned = some 3 ∧ t.stored.rows.map ContractEvent.pagingToken = ["0"] := by
  obtain ⟨t, hr, hstored⟩ := (indexer "C").exists_of_leadsTo
    (fun t => t.pc.returned = some 3 ∧ t.stored.rows.map ContractEvent.pagingToken = ["0"]) quiet
    [.poll .failed, .poll .events, .index, .grow [testEvent 0] 3, .poll .events, .index, .index]
    (by decide +kernel)
  have hg : (indexer "C").Guarded (fits "C") quiet
      [.poll .failed, .poll .events, .index, .grow [testEvent 0] 3, .poll .events, .index,
        .index] := by decide +kernel
  exact ⟨quiet, _, t, start_quiet, hg, hr, misses_nothing start_quiet hg hr, hstored⟩

/-- A poll of new events that nothing interrupts stores every event of its answer, and no other
row. -/
theorem run_index {events : List SorobanEvent} {latest : Nat} (w : World)
    (h : w.pc = .indexing events latest) (htokens : (events.map SorobanEvent.pagingToken).Nodup)
    (hnew : ∀ e ∈ events, ∀ r ∈ w.stored, r.pagingToken ≠ e.pagingToken) :
    ∃ stored, (indexer contractId).run w (List.replicate (events.length + 1) .index) = some { w with
      stored
      startLedger := latest - 1
      pc := .sleeping (some latest) } ∧ ∀ r ∈ stored, r ∈ w.stored ∨ ∃ e ∈ events, r.Of e := by
  induction events generalizing w with
  | nil =>
    refine ⟨w.stored, (indexer contractId).run_cons.mpr ⟨_, ?_, rfl⟩, fun r hr => .inl hr⟩
    simp only [indexer, h]
  | cons event events ih =>
    obtain ⟨hhead, htail⟩ := List.nodup_cons.mp htokens
    obtain ⟨stored, hs⟩ := store_of_new w.db (hnew event List.mem_cons_self)
    obtain ⟨stored', hrun, hrows⟩ := ih { w with stored, pc := .indexing events latest } rfl htail
      fun e he r hr => by
        rcases (mem_store hs).mp hr with hr | rfl
        · exact hnew e (List.mem_cons_of_mem _ he) r hr
        · exact fun heq => hhead (List.mem_map.mpr ⟨e, he, heq.symm⟩)
    refine ⟨stored', (indexer contractId).run_cons.mpr
      ⟨{ w with stored, pc := .indexing events latest }, ?_, hrun⟩, fun r hr => ?_⟩
    · simp only [indexer, h, hs]
    · rcases hrows r hr with hr | ⟨e, he, hof⟩
      · rcases (mem_store hs).mp hr with hr | rfl
        · exact .inl hr
        · exact .inr ⟨event, List.mem_cons_self, of_row w.db event⟩
      · exact .inr ⟨e, List.mem_cons_of_mem _ he, hof⟩

/-- One event more than an answer has. -/
def burst : List SorobanEvent := (List.range (limit + 1)).map testEvent

theorem testEvent_inj {i j : Nat} (h : (testEvent i).pagingToken = (testEvent j).pagingToken) :
    i = j :=
  toDigits_injective (String.ofList_injective h)

theorem extends_burst : Extends quiet burst 3 := by
  refine ⟨by decide, ?_, ?_, ?_⟩
  · intro e he
    obtain ⟨i, -, rfl⟩ := List.mem_map.mp he
    exact ⟨Nat.zero_le _, show 1 ≤ 3 by omega⟩
  · show burst.Pairwise fun a b => a.ledger ≤ b.ledger
    refine List.pairwise_map.mpr (List.pairwise_of_forall fun i j => ?_)
    exact Nat.le_refl 1
  · show (burst.map SorobanEvent.pagingToken).Nodup
    rw [burst, List.map_map]
    exact List.nodup_range.map fun i j hij => testEvent_inj hij

theorem getEvents_burst : getEvents "C" 0 burst = (List.range limit).map testEvent := by
  have hall : burst.filter (fun e => e.contractId == "C" && 0 ≤ e.ledger) = burst := by
    refine List.filter_eq_self.mpr fun e he => ?_
    obtain ⟨i, -, rfl⟩ := List.mem_map.mp he
    rfl
  rw [getEvents, hall, burst, ← List.map_take, List.take_range]
  rfl

/-- After the burst and the answer to a poll. -/
def polled : World := { quiet with
  log := burst
  latestLedger := 3
  pc := .indexing ((List.range limit).map testEvent) 3 }

theorem run_burst : (indexer "C").run quiet [.grow burst 3, .poll .events] = some polled := by
  refine (indexer "C").run_cons.mpr ⟨{ quiet with log := burst, latestLedger := 3 }, ?_, ?_⟩
  · simp only [indexer, if_pos extends_burst, show quiet.log ++ burst = burst from List.nil_append _]
  · rw [polled, ← getEvents_burst]
    rfl

/-- **The last event of the burst is missed**: the poll returns ledger 3, and the next one
starts above the event. -/
theorem misses_burst : ∃ w steps t, Start 0 w ∧ (indexer "C").run w steps = some t ∧
    t.pc.returned = some 3 ∧ ¬ MissesNothing "C" 0 t := by
  have htokens : (((List.range limit).map testEvent).map SorobanEvent.pagingToken).Nodup := by
    rw [List.map_map]
    exact List.nodup_range.map fun i j hij => testEvent_inj hij
  obtain ⟨stored, hrun, hrows⟩ := @run_index "C" _ _ polled rfl htokens
    fun _ _ _ hr => nomatch hr
  refine ⟨quiet, _, _, start_quiet, (indexer "C").run_append.mpr ⟨polled, run_burst, hrun⟩, rfl,
    fun h => ?_⟩
  have hlast : testEvent limit ∈ burst :=
    List.mem_map.mpr ⟨limit, List.mem_range.mpr (Nat.lt_succ_self _), rfl⟩
  rcases h 3 rfl _ hlast rfl (Nat.zero_le _) (show 1 < 3 by omega) with hstored | hstart
  · obtain ⟨r, hr, hof⟩ := hstored
    rcases hrows r hr with hr | ⟨e, he, hof'⟩
    · cases hr
    · obtain ⟨i, hi, rfl⟩ := List.mem_map.mp he
      have : i = limit := testEvent_inj (hof'.pagingToken.symm.trans hof.pagingToken)
      have := List.mem_range.mp hi
      omega
  · exact absurd hstart (show ¬ 2 ≤ 1 by omega)

end Indexer

end Stargate.Soroban
