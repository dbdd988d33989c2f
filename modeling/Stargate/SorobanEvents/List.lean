import Stargate.Database.OffsetLists
import Stargate.Reconciler.SorobanIndexer

/-!
# Listing contract events (`SorobanEventsService`)

A merchant reads the events that the indexer has stored page by page, those of the latest
ledger first. A ledger often has several events of one contract, and the indexer goes on while
the merchant reads.

- `pages_complete_iff`: of a table that stays as it is, the pages are complete where no page
  ends inside a ledger, and only there;
- `stored_prefix_of_run`: the indexer only adds rows;
- `indexed_events_listed`: events that the indexer has passed are on the pages that a merchant
  reads up to a short one, whatever is indexed meanwhile;
- `listed_once_iff`: and none comes twice exactly where the events indexed meanwhile are of
  older ledgers.
-/

namespace Stargate.Soroban

open Base OffsetLists

/-! ## The query -/

/-- `AND contract_id=$4`, where a contract is given. -/
def ofContract (contractId : Option String) (r : ContractEvent) : Bool :=
  match contractId with
  | none => true
  | some "" => true
  | some contractId => r.contractId == contractId

/-- `merchant_id=$1`, and the filter. -/
def selected (stored : Table ContractEvent) (merchantId : Uuid) (contractId : Option String) :
    List ContractEvent :=
  stored.rows.filter fun r => r.merchantId == some merchantId && ofContract contractId r

/-- `list(merchantId, query)`. Items keep the column `total`. -/
def list (orderBy : List ContractEvent → List ContractEvent) (stored : Table ContractEvent)
    (merchantId : Uuid) (contractId : Option String) (q : PageQuery) :
    Except ApiError (Queried ContractEvent) :=
  queryPage (orderBy (selected stored merchantId contractId)) q

variable {merchantId : Uuid} {contract : Option String}

theorem nodup_selected (stored : Table ContractEvent) :
    (selected stored merchantId contract).Nodup := by
  have htokens : stored.rows.Nodup := stored.unique.imp fun hne heq => hne (congrArg _ heq)
  exact htokens.filter _

/-- **Complete pages**: while the table stays as it is, the pages have every event of the
merchant once, in whatever order the database puts the events of one ledger, exactly where no
page ends inside a ledger. -/
theorem pages_complete_iff {stored : Table ContractEvent} {q : Nat → PageQuery} {n m : Nat}
    (hasks : ∀ k < m, Asks (q k) k n)
    (hcover : (selected stored merchantId contract).length ≤ m * n) (hm : m * n < 10 ^ 15) :
    (∀ order : Nat → List ContractEvent → List ContractEvent,
        (∀ k rows, ListedBy ContractEvent.ledgerSequence rows (order k rows)) →
        (collected (fun k => list (order k) stored merchantId contract (q k)) m).Perm
          (selected stored merchantId contract)) ↔
      ∀ ledger k,
        ¬ Straddles ContractEvent.ledgerSequence (selected stored merchantId contract) ledger
          (k * n) :=
  collected_perm_iff (nodup_selected stored) hasks hcover hm

/-- An event of the tests. -/
def testRow (ledger : Int) (token : String) : ContractEvent where
  contractId := "C"
  ledgerSequence := ledger
  pagingToken := token
  txHash := "T"
  eventType := "contract"
  topics := []
  value := none
  invoiceId := none
  merchantId := some 1

/-- Three events of one ledger. -/
def testTable : Table ContractEvent where
  rows := [testRow 7 "a", testRow 7 "b", testRow 7 "c"]
  unique := by decide

def testQuery (page : String) : PageQuery := ⟨some page, some "2"⟩

/-- On pages of two events, one of three is lost and another one comes twice. -/
theorem pages_complete_iff_testTable :
    ¬ ∀ order : Nat → List ContractEvent → List ContractEvent,
      (∀ k rows, ListedBy ContractEvent.ledgerSequence rows (order k rows)) →
      (collected (fun k => list (order k) testTable 1 none (testQuery (toString (k + 1)))) 2).Perm
        (selected testTable 1 none) := by
  have hasks : ∀ k < 2, Asks (testQuery (toString (k + 1))) k 2 := by decide +kernel
  rw [pages_complete_iff hasks (by decide) (by decide)]
  intro hnone
  exact hnone 7 1 (by decide)

/-! ## While the indexer runs -/

section Indexer

variable {contractId : String} {w w' : World}

theorem stored_prefix_of_step {s : Step} (h : (indexer contractId).step w s = some w') :
    w.stored.rows <+: w'.stored.rows := by
  cases s with
  | grow events latestLedger =>
    simp only [indexer] at h
    split at h
    · cases h
      exact List.prefix_rfl
    · cases h
  | platform db =>
    cases h
    exact List.prefix_rfl
  | poll answer =>
    simp only [indexer] at h
    split at h <;> cases h <;> exact List.prefix_rfl
  | index =>
    simp only [indexer] at h
    split at h
    · cases h
      exact List.prefix_rfl
    · split at h
      · next stored hs =>
        cases h
        show w.stored.rows <+: stored.rows
        rw [(store_some hs).2]
        exact List.prefix_append _ _
      · cases h
        exact List.prefix_rfl
    · cases h
  | fail =>
    simp only [indexer] at h
    split at h <;> cases h
    exact List.prefix_rfl

/-- **The indexer only adds rows.** -/
theorem stored_prefix_of_run {steps : List Step}
    (hr : (indexer contractId).run w steps = some w') : w.stored.rows <+: w'.stored.rows :=
  (indexer contractId).inv_of_run
    (I := fun u => w.stored.rows <+: u.stored.rows)
    (fun _ _ _ hI hs => hI.trans (stored_prefix_of_step hs)) List.prefix_rfl hr

theorem selected_grows {stored stored' : Table ContractEvent} (h : stored.rows <+: stored'.rows) :
    selected stored merchantId contract <+: selected stored' merchantId contract := h.filter _

/-- A merchant reads page after page while the indexer runs: the `k`-th request finds the table
of `w k`. No two of its events are of the same ledger, and only the last page is short. -/
structure Reads (contractId : String) (merchantId : Uuid) (contract : Option String)
    (w : Nat → World) (order : Nat → List ContractEvent → List ContractEvent)
    (q : Nat → PageQuery) (n m : Nat) : Prop where
  runs : ∀ k, ∃ steps, (indexer contractId).run (w k) steps = some (w (k + 1))
  ordered : ∀ k rows, ListedBy ContractEvent.ledgerSequence rows (order k rows)
  ledgers : ∀ k,
    ((selected (w k).stored merchantId contract).map ContractEvent.ledgerSequence).Nodup
  asks : ∀ k ≤ m, Asks (q k) k n
  small : (m + 1) * n < 10 ^ 15
  full : ∀ k < m, (answered (list (order k) (w k).stored merchantId contract (q k))).length = n
  last : (answered (list (order m) (w m).stored merchantId contract (q m))).length < n

variable {ws : Nat → World} {order : Nat → List ContractEvent → List ContractEvent}
  {q : Nat → PageQuery} {n m : Nat}

theorem Reads.walk (h : Reads contractId merchantId contract ws order q n m) :
    Walk ContractEvent.ledgerSequence q n m
      (fun k => selected (ws k).stored merchantId contract) order where
  asks := h.asks
  small := h.small
  ordered := h.ordered
  grows k := by
    obtain ⟨steps, hr⟩ := h.runs k
    exact (selected_grows (stored_prefix_of_run hr)).sublist.subperm
  keys := h.ledgers
  full := h.full
  last := h.last

/-- **From the network to the pages**: an event that the indexer has passed when the merchant
starts to read is stored, and if it is the merchant's, it is on one of the pages, whatever is
indexed while they are read. -/
theorem indexed_events_listed {first : Nat} {w₀ : World} {steps : List Step} (h₀ : Start first w₀)
    (hg : (indexer contractId).Guarded (fits contractId) w₀ steps)
    (hr : (indexer contractId).run w₀ steps = some (ws 0))
    (h : Reads contractId merchantId contract ws order q n m) :
    Below contractId first (ws 0).startLedger (ws 0) fun e =>
      ∃ r ∈ (ws 0).stored, r.Of e ∧
        (r.merchantId = some merchantId → ofContract contract r = true →
          r ∈ collected (fun k => list (order k) (ws k).stored merchantId contract (q k))
            (m + 1)) := by
  have hk : Kept contractId first (ws 0) :=
    (indexer contractId).inv_of_guarded_run (fun _ _ _ => kept_step) (.of_start h₀) hg hr
  intro e he hcontract hfirst hlt
  obtain ⟨r, hr, hof⟩ := hk.below e he hcontract hfirst hlt
  refine ⟨r, hr, hof, fun hmerchant hfilter => h.walk.mem_collected ?_⟩
  exact List.mem_filter.mpr ⟨hr, by simp [hmerchant, hfilter]⟩

/-- **Once**: no event comes twice exactly where what is indexed between two requests is of
older ledgers than what the first of them returned. -/
theorem listed_once_iff (h : Reads contractId merchantId contract ws order q n m) :
    (collected (fun k => list (order k) (ws k).stored merchantId contract (q k)) (m + 1)).Nodup ↔
      ∀ k < m, ∀ r ∈ selected (ws (k + 1)).stored merchantId contract,
        r ∉ selected (ws k).stored merchantId contract →
        ∀ a ∈ answered (list (order k) (ws k).stored merchantId contract (q k)),
          r.ledgerSequence < a.ledgerSequence :=
  h.walk.nodup_collected_iff

/-! ## A merchant with three events -/

/-- Its invoice is named by the muxed id of `seedInvoice`. -/
def invoiceEvent (ledger : Nat) : SorobanEvent :=
  { testEvent ledger with ledger, topic := [.string "99099".toList] }

/-- Two events are indexed before the first request, and one before the second. -/
def firstSteps : List Step :=
  [.grow [invoiceEvent 1, invoiceEvent 2] 4, .poll .events, .index, .index, .index]

def secondSteps : List Step := [.grow [invoiceEvent 4] 5, .poll .events, .index, .index]

def firstWorld : World := ((indexer "C").run quiet firstSteps).getD quiet

def secondWorld : World := ((indexer "C").run firstWorld secondSteps).getD firstWorld

def readWorlds : Nat → World
  | 0 => firstWorld
  | _ + 1 => secondWorld

theorem run_getD {w : World} {steps : List Step}
    (h : ((indexer "C").run w steps).isSome = true) :
    (indexer "C").run w steps = some (((indexer "C").run w steps).getD w) := by
  obtain ⟨t, ht⟩ := Option.isSome_iff_exists.mp h
  rw [ht, Option.getD_some]

theorem run_firstSteps : (indexer "C").run quiet firstSteps = some firstWorld :=
  run_getD (by decide +kernel)

theorem run_secondSteps : (indexer "C").run firstWorld secondSteps = some secondWorld :=
  run_getD (by decide +kernel)

/-- Pages of one event. -/
theorem reads_readWorlds : Reads "C" 1 none readWorlds
    (fun _ => listDesc ContractEvent.ledgerSequence)
    (fun k => ⟨some (toString (k + 1)), some "1"⟩) 1 3 where
  runs k := by
    cases k with
    | zero => exact ⟨_, run_secondSteps⟩
    | succ k => exact ⟨[], rfl⟩
  ordered _ rows := listedBy_listDesc _ rows
  ledgers k := by
    cases k with
    | zero => decide +kernel
    | succ k =>
      show ((selected secondWorld.stored 1 none).map ContractEvent.ledgerSequence).Nodup
      decide +kernel
  asks := by decide +kernel
  small := by decide
  full := by decide +kernel
  last := by decide +kernel

/-- Both events that were there are read, one of them twice. -/
theorem indexed_events_listed_readWorlds : ∃ w₀ steps, Start 0 w₀ ∧
    (indexer "C").run w₀ steps = some (readWorlds 0) ∧ (readWorlds 0).startLedger = 3 ∧
    (readWorlds 0).log.map SorobanEvent.ledger = [1, 2] ∧
    Below "C" 0 (readWorlds 0).startLedger (readWorlds 0) fun e =>
      ∃ r ∈ (readWorlds 0).stored, r.Of e ∧
        (r.merchantId = some 1 → ofContract none r = true →
          r ∈ collected (fun k => list (listDesc ContractEvent.ledgerSequence)
            (readWorlds k).stored 1 none ⟨some (toString (k + 1)), some "1"⟩) (3 + 1)) :=
  ⟨quiet, _, start_quiet, run_firstSteps, by decide +kernel, by decide +kernel,
    indexed_events_listed start_quiet (by decide +kernel) run_firstSteps reads_readWorlds⟩

theorem listed_once_iff_readWorlds :
    ¬ (collected (fun k => list (listDesc ContractEvent.ledgerSequence) (readWorlds k).stored 1
      none ⟨some (toString (k + 1)), some "1"⟩) (3 + 1)).Nodup := by
  rw [listed_once_iff reads_readWorlds]
  intro h
  -- the event of the fourth ledger came after the page with that of the second
  have hadded : (selected secondWorld.stored 1 none).any (·.ledgerSequence == 4) = true := by
    decide +kernel
  have hnew : (selected firstWorld.stored 1 none).all (·.ledgerSequence < 4) = true := by
    decide +kernel
  have hread : (answered (list (listDesc ContractEvent.ledgerSequence) firstWorld.stored 1 none
      ⟨some "1", some "1"⟩)).any (·.ledgerSequence == 2) = true := by decide +kernel
  obtain ⟨r, hr, hr4⟩ := List.any_eq_true.mp hadded
  obtain ⟨a, ha, ha2⟩ := List.any_eq_true.mp hread
  have hr4 := beq_iff_eq.mp hr4
  have ha2 := beq_iff_eq.mp ha2
  have hlt := h 0 (by decide) r hr (fun hold => by
    have := of_decide_eq_true (List.all_eq_true.mp hnew r hold)
    omega) a ha
  omega

end Indexer

end Stargate.Soroban
