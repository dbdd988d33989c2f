import Stargate.Settlement.Payout

/-!
# One merchant of a settlement run is settled whole, or not at all

`createDailySettlements` commits merchant by merchant. A statement that fails rolls the
transaction of its merchant back and ends the call; the merchants before it stay settled.

- `Unchanged`, `Settled`: the two states of a merchant;
- `Processed`: which merchants are in which;
- `Pc.InTurn`: the loop invariant, what a transaction has done so far;
- `settlement_atomic`: a call that returns or throws leaves every merchant in one of them.
-/

namespace Stargate.Settlements

open Base

/-! ## The two states of a merchant -/

def settlementsOf (db : Db) (merchantId : Uuid) : List Settlement :=
  db.settlements.rows.filter fun x => x.merchantId == merchantId

def entriesOf (db : Db) (merchantId : Uuid) : List LedgerEntry :=
  db.ledgerEntries.rows.filter fun l => l.merchantId == merchantId

def merchantsOf (db : Db) (merchantId : Uuid) : List Merchant :=
  db.merchants.rows.filter fun m => m.id == merchantId

/-- Nothing of a merchant has changed. -/
structure Unchanged (db db' : Db) (merchantId : Uuid) : Prop where
  settlements : settlementsOf db' merchantId = settlementsOf db merchantId
  entries : entriesOf db' merchantId = entriesOf db merchantId
  merchants : merchantsOf db' merchantId = merchantsOf db merchantId

/-- The merchant has one new settlement `x`: pending, over the sum of the rows that were
unclaimed, all of which carry its id. The schedule is cleared. -/
structure SettledBy (db db' : Db) (merchantId : Uuid) (x : Settlement) : Prop where
  status : x.status = .pending
  amount : x.amountUsdc.units = owed db merchantId
  fresh : ∀ y ∈ db.settlements, y.id ≠ x.id
  settlements : settlementsOf db' merchantId = settlementsOf db merchantId ++ [x]
  entries : entriesOf db' merchantId = (entriesOf db merchantId).map fun l =>
    if l.settlementId.isNone then claim x.id l else l
  merchants : merchantsOf db' merchantId = (merchantsOf db merchantId).map clearSchedule

def Settled (db db' : Db) (merchantId : Uuid) : Prop := ∃ x, SettledBy db db' merchantId x

/-- The merchants `done` are settled, but for those that had a pending settlement; all
others, and all other tables, are as they were. -/
structure Processed (db : Db) (done : List Uuid) (db' : Db) : Prop where
  settled : ∀ m ∈ done, if hasPending db m then Unchanged db db' m else Settled db db' m
  others : ∀ m, m ∉ done → Unchanged db db' m
  tables : db' = { db with
    settlements := db'.settlements
    merchants := db'.merchants
    ledgerEntries := db'.ledgerEntries }

theorem Unchanged.refl (db : Db) (m : Uuid) : Unchanged db db m := ⟨rfl, rfl, rfl⟩

theorem Unchanged.trans {db db' db'' : Db} {m : Uuid} (h : Unchanged db db' m)
    (h' : Unchanged db' db'' m) : Unchanged db db'' m where
  settlements := h'.settlements.trans h.settlements
  entries := h'.entries.trans h.entries
  merchants := h'.merchants.trans h.merchants

theorem SettledBy.trans_unchanged {db db' db'' : Db} {m : Uuid} {x : Settlement}
    (h : SettledBy db db' m x) (h' : Unchanged db' db'' m) : SettledBy db db'' m x where
  status := h.status
  amount := h.amount
  fresh := h.fresh
  settlements := h'.settlements.trans h.settlements
  entries := h'.entries.trans h.entries
  merchants := h'.merchants.trans h.merchants

/-- A row of a merchant is found among the rows of the merchant. -/
theorem hasPending_eq (db : Db) (m : Uuid) :
    hasPending db m = (settlementsOf db m).any fun x => x.status == .pending := by
  rw [hasPending, settlementsOf, List.any_filter]

theorem owed_eq (db : Db) (m : Uuid) :
    owed db m = (((entriesOf db m).filter fun l => l.settlementId.isNone).map net).sum := by
  rw [owed, Table.sumOf, entriesOf, List.filter_filter]
  congr 3
  funext l
  rw [unclaimed, Bool.and_comm]

theorem Unchanged.hasPending {db db' : Db} {m : Uuid} (h : Unchanged db db' m) :
    hasPending db' m = hasPending db m := by
  rw [hasPending_eq, h.settlements, hasPending_eq]

theorem Unchanged.owed {db db' : Db} {m : Uuid} (h : Unchanged db db' m) :
    owed db' m = owed db m := by
  rw [owed_eq, h.entries, owed_eq]

theorem processed_nil (db : Db) : Processed db [] db where
  settled _ hm := nomatch hm
  others m _ := .refl db m
  tables := rfl

/-- Settlements stay. -/
theorem Processed.kept {db db' : Db} {done : List Uuid} (h : Processed db done db')
    {y : Settlement} (hy : y ∈ db.settlements) : y ∈ db'.settlements := by
  have hof : y ∈ settlementsOf db y.merchantId := List.mem_filter.mpr ⟨hy, beq_self_eq_true _⟩
  have hof' : y ∈ settlementsOf db' y.merchantId := by
    by_cases hm : y.merchantId ∈ done
    · have hsettled := h.settled _ hm
      split at hsettled
      · rwa [hsettled.settlements]
      · obtain ⟨x, hx⟩ := hsettled
        rw [hx.settlements]
        exact List.mem_append_left _ hof
    · rwa [(h.others _ hm).settlements]
  exact (List.mem_filter.mp hof').1

/-- One more merchant is passed over. -/
theorem Processed.skip {db db' : Db} {done : List Uuid} {m : Uuid} (h : Processed db done db')
    (hm : m ∉ done) (hpending : hasPending db' m = true) : Processed db (done ++ [m]) db' where
  settled m' hm' := by
    rcases List.mem_append.mp hm' with hm' | hm'
    · exact h.settled m' hm'
    · cases List.mem_singleton.mp hm'
      have hsame := h.others m hm
      rw [if_pos (hsame.hasPending.symm.trans hpending)]
      exact hsame
  others m' hm' := h.others m' fun hmem => hm' (List.mem_append_left _ hmem)
  tables := h.tables

/-- One more merchant is settled. -/
theorem Processed.settle {db w w' : Db} {done : List Uuid} {m : Uuid} (h : Processed db done w)
    (hm : m ∉ done) (hpending : hasPending w m = false) (hsettled : Settled w w' m)
    (hothers : ∀ m', m' ≠ m → Unchanged w w' m')
    (htables : w' = { w with
      settlements := w'.settlements
      merchants := w'.merchants
      ledgerEntries := w'.ledgerEntries }) :
    Processed db (done ++ [m]) w' where
  settled m' hm' := by
    rcases List.mem_append.mp hm' with hm' | hm'
    · have hne : m' ≠ m := fun heq => hm (heq ▸ hm')
      have hbefore := h.settled m' hm'
      split at hbefore
      · next hp =>
        rw [if_pos hp]
        exact hbefore.trans (hothers m' hne)
      · next hp =>
        rw [if_neg hp]
        obtain ⟨x, hx⟩ := hbefore
        exact ⟨x, hx.trans_unchanged (hothers m' hne)⟩
    · cases List.mem_singleton.mp hm'
      have hsame := h.others m hm
      rw [if_neg (by rw [← hsame.hasPending, hpending]; exact Bool.false_ne_true)]
      obtain ⟨x, hx⟩ := hsettled
      exact ⟨x, {
        status := hx.status
        amount := hx.amount.trans hsame.owed
        fresh := fun y hy => hx.fresh y (h.kept hy)
        settlements := hsame.settlements ▸ hx.settlements
        entries := hsame.entries ▸ hx.entries
        merchants := hsame.merchants ▸ hx.merchants }⟩
  others m' hm' := by
    have hm₁ : m' ∉ done := fun hmem => hm' (List.mem_append_left _ hmem)
    have hne : m' ≠ m := fun heq => hm' (List.mem_append_right _ (List.mem_singleton.mpr heq))
    exact (h.others m' hm₁).trans (hothers m' hne)
  tables := by
    rw [htables, h.tables]

/-! ## The loop -/

/-- The settlement that a transaction inserts for a merchant. -/
structure Settles (db : Db) (row : MerchantRow) (x : Settlement) : Prop where
  merchantId : x.merchantId = row.merchantId
  amount : x.amountUsdc = row.amount
  status : x.status = .pending
  fresh : ∀ y ∈ db.settlements, y.id ≠ x.id
  noPending : hasPending db row.merchantId = false

/-- The transaction is that of the merchant `row`, before those of `later`, and has written
nothing but what it should. -/
def Pc.InTurn (db : Db) (row : MerchantRow) (later : List MerchantRow) : Pc → Prop
  | .selectMerchants => False
  | .begin merchant rest | .selectPending merchant rest => merchant = row ∧ rest = later
  | .commitExisting rest => rest = later ∧ hasPending db row.merchantId = true
  | .insertSettlement merchant rest =>
    merchant = row ∧ rest = later ∧ hasPending db row.merchantId = false
  | .clearSchedule x rest => Settles db row x ∧ rest = later
  | .claimEntries x cleared rest =>
    Settles db row x ∧ rest = later ∧ cleared = scheduled db row.merchantId
  | .commit tx rest => Settles db row tx.settlement ∧ rest = later ∧
    tx.cleared = scheduled db row.merchantId ∧
    tx.claimed = (db.ledgerEntries.rows.filter (unclaimed row.merchantId)).map LedgerEntry.id

/-- What a commit does to the rows of a merchant, table by table. -/
theorem filter_modify {ρ : Type*} [Keyed ρ] {t : Table ρ} {u p : ρ → Bool} {g : ρ → ρ}
    (hg : ∀ r, Keyed.key (g r) = Keyed.key r) (hp : ∀ r, p (g r) = p r) :
    (t.modify u g hg).rows.filter p = (t.rows.filter p).map fun r => if u r then g r else r := by
  show (t.rows.map _).filter p = _
  rw [List.filter_map]
  congr 1
  refine List.filter_congr fun r _ => ?_
  simp only [Function.comp]
  split
  · exact hp r
  · rfl

section Commit

variable {db w : Db} {row : MerchantRow} {tx : Tx} {rest later : List MerchantRow}

/-- A row is claimed if it is an unclaimed one of the merchant. -/
theorem contains_claimed {l : LedgerEntry} (hl : l ∈ db.ledgerEntries) :
    (((db.ledgerEntries.rows.filter (unclaimed row.merchantId)).map LedgerEntry.id).contains l.id)
      = unclaimed row.merchantId l := by
  rw [Bool.eq_iff_iff, List.contains_iff_mem, List.mem_map]
  constructor
  · rintro ⟨l', hl', hid⟩
    obtain ⟨hl₁, hun⟩ := List.mem_filter.mp hl'
    rwa [← Table.eq_of_conflict hl₁ hl hid]
  · exact fun hun => ⟨l, List.mem_filter.mpr ⟨hl, hun⟩, rfl⟩

theorem settlementsOf_commit (hx : Settles db row tx.settlement)
    (h : commitSettlement db tx = some w) (m : Uuid) :
    settlementsOf w m
      = settlementsOf db m ++ if m = row.merchantId then [tx.settlement] else [] := by
  obtain ⟨settlements, hins, rfl⟩ := Option.map_eq_some_iff.mp h
  unfold settlementsOf
  rw [(Table.insert?_eq_some.mp hins).2, List.filter_append, List.filter_singleton,
    hx.merchantId]
  congr 1
  by_cases hm : m = row.merchantId
  · rw [if_pos hm, hm, beq_self_eq_true]
    rfl
  · rw [if_neg hm, beq_false_of_ne (Ne.symm hm)]
    rfl

theorem entriesOf_commit (hclaimed : tx.claimed
      = (db.ledgerEntries.rows.filter (unclaimed row.merchantId)).map LedgerEntry.id)
    (h : commitSettlement db tx = some w) (m : Uuid) :
    entriesOf w m = (entriesOf db m).map fun l =>
      if unclaimed row.merchantId l then claim tx.settlement.id l else l := by
  obtain ⟨settlements, -, rfl⟩ := Option.map_eq_some_iff.mp h
  unfold entriesOf
  rw [filter_modify (p := fun l => l.merchantId == m) (key_claim tx.settlement.id) fun _ => rfl]
  refine List.map_congr_left fun l hl => ?_
  rw [hclaimed, contains_claimed (List.mem_filter.mp hl).1]

theorem merchantsOf_commit (hx : Settles db row tx.settlement)
    (hcleared : tx.cleared = scheduled db row.merchantId)
    (h : commitSettlement db tx = some w) (m : Uuid) :
    merchantsOf w m
      = if m = row.merchantId then (merchantsOf db m).map clearSchedule else merchantsOf db m := by
  obtain ⟨settlements, -, rfl⟩ := Option.map_eq_some_iff.mp h
  unfold merchantsOf
  rw [hcleared]
  split
  · rw [filter_modify (p := fun r => r.id == m) key_clearSchedule fun _ => rfl, hx.merchantId]
    split
    · next hm =>
      refine List.map_congr_left fun r hr => if_pos ?_
      rw [← hm]
      exact (List.mem_filter.mp hr).2
    · next hm =>
      refine (List.map_congr_left fun r hr => if_neg ?_).trans (List.map_id _)
      rw [beq_iff_eq.mp (List.mem_filter.mp hr).2, beq_iff_eq]
      exact hm
  · next hno =>
    split
    · next hm =>
      -- no row of the merchant is scheduled
      refine ((List.map_congr_left fun r hr => ?_).trans (List.map_id _)).symm
      obtain ⟨hr, hid⟩ := List.mem_filter.mp hr
      rw [Bool.not_eq_true, scheduled, List.any_eq_false] at hno
      have hnone := hno r hr
      rw [← hm, hid, Bool.true_and, Option.isSome_iff_ne_none, not_not] at hnone
      show { r with settlementScheduledAt := none } = r
      rw [← hnone]
    · rfl

/-- **A commit settles its merchant**, and no other. -/
theorem settled_commit (hturn : (Pc.commit tx rest).InTurn db row later)
    (howed : owed db row.merchantId = row.amount.units)
    (h : commitSettlement db tx = some w) :
    Settled db w row.merchantId ∧ (∀ m, m ≠ row.merchantId → Unchanged db w m) ∧
      w = { db with
        settlements := w.settlements
        merchants := w.merchants
        ledgerEntries := w.ledgerEntries } := by
  obtain ⟨hx, -, hcleared, hclaimed⟩ := hturn
  have hsettlements := settlementsOf_commit hx h
  have hentries := entriesOf_commit hclaimed h
  have hmerchants := merchantsOf_commit hx hcleared h
  refine ⟨⟨tx.settlement, ?_⟩, fun m hm => ?_, ?_⟩
  · refine ⟨hx.status, ?_, hx.fresh, ?_, ?_, ?_⟩
    · rw [hx.amount, howed]
    · rw [hsettlements, if_pos rfl]
    · rw [hentries]
      refine List.map_congr_left fun l hl => ?_
      rw [unclaimed, (List.mem_filter.mp hl).2, Bool.true_and]
    · rw [hmerchants, if_pos rfl]
  · refine ⟨?_, ?_, ?_⟩
    · rw [hsettlements, if_neg hm, List.append_nil]
    · rw [hentries]
      refine (List.map_congr_left fun l hl => if_neg ?_).trans (List.map_id _)
      rw [unclaimed, beq_iff_eq.mp (List.mem_filter.mp hl).2, beq_false_of_ne hm]
      exact Bool.false_ne_true
    · rw [hmerchants, if_neg hm]
  · obtain ⟨settlements, -, rfl⟩ := Option.map_eq_some_iff.mp h
    rfl

end Commit

/-! ## One statement -/

section Loop

variable {db w w' : Db} {pc : Pc} {call : Call} {rows : List MerchantRow} {id : Uuid}
  {rowCount : Nat} {locks : Locks}

/-- The rows of the first query, if it does not fail. -/
def merchantRows (db : Db) : List MerchantRow := (selectMerchants db).getD []

/-- The merchants `done` are processed, and those of `later` are left. -/
structure Order (db w : Db) (done later : List MerchantRow) : Prop where
  perm : (done ++ later).Perm (merchantRows db)
  processed : Processed db (done.map MerchantRow.merchantId) w

/-- Where a running call stands. -/
def Progress (db w : Db) (pc : Pc) : Prop :=
  (pc = .selectMerchants ∧ w = db) ∨
    ∃ done row later, Order db w done (row :: later) ∧ pc.InTurn w row later

/-- What a statement of a call leads to. -/
inductive Reaches (db : Db) (pc : Pc) (w w' : Db) : Call → Prop
  | running {rowCount : Nat} {pc' : Pc} (h : Progress db w' pc') :
      Reaches db pc w w' (.running rowCount pc')
  | returned {rowCount : Nat} {done : List MerchantRow} (h : Order db w' done []) :
      Reaches db pc w w' (.returned rowCount)
  | threw (h : w' = w) : Reaches db pc w w' .threw

theorem nodup_groups {f : Uuid → Option MerchantRow}
    (hf : ∀ m row, f m = some row → row.merchantId = m) {ms : List Uuid} (h : ms.Nodup) :
    ((ms.filterMap f).map MerchantRow.merchantId).Nodup := by
  induction ms with
  | nil => exact List.nodup_nil
  | cons m ms ih =>
    obtain ⟨hm, hms⟩ := List.nodup_cons.mp h
    rw [List.filterMap_cons]
    split
    · exact ih hms
    · next row hrow =>
      rw [List.map_cons, List.nodup_cons, hf m row hrow]
      refine ⟨fun hmem => hm ?_, ih hms⟩
      obtain ⟨row', hrow', rfl⟩ := List.mem_map.mp hmem
      obtain ⟨m', hm', hrow'⟩ := List.mem_filterMap.mp hrow'
      rwa [hf m' row' hrow']

/-- The first query has one row for each merchant. -/
theorem nodup_merchantRows (db : Db) :
    ((merchantRows db).map MerchantRow.merchantId).Nodup := by
  unfold merchantRows selectMerchants
  split
  · refine nodup_groups (fun m row hrow => ?_) (List.nodup_dedup _)
    obtain ⟨hrow, -⟩ := Option.filter_eq_some_iff.mp hrow
    obtain ⟨amount, -, rfl⟩ := Option.map_eq_some_iff.mp hrow
    rfl
  · exact List.nodup_nil

theorem Order.notMem {done later : List MerchantRow} {row : MerchantRow}
    (h : Order db w done (row :: later)) : row.merchantId ∉ done.map MerchantRow.merchantId := by
  have hnodup := (h.perm.map MerchantRow.merchantId).nodup_iff.mpr (nodup_merchantRows db)
  rw [List.map_append, List.map_cons, List.nodup_append] at hnodup
  exact fun hmem => hnodup.2.2 _ hmem _ List.mem_cons_self rfl

/-- The sum of a merchant whose turn it is is that of its unclaimed rows. -/
theorem Order.owed {done later : List MerchantRow} {row : MerchantRow}
    (h : Order db w done (row :: later)) : owed w row.merchantId = row.amount.units := by
  have hmem : row ∈ merchantRows db :=
    h.perm.mem_iff.mp (List.mem_append_right _ List.mem_cons_self)
  unfold merchantRows at hmem
  rw [(h.processed.others _ h.notMem).owed]
  cases hselect : selectMerchants db with
  | none =>
    rw [hselect] at hmem
    cases hmem
  | some merchants =>
    rw [hselect] at hmem
    exact owed_of_selectMerchants hselect hmem

/-- The loop head. -/
theorem reaches_nextMerchant {done later : List MerchantRow} (h : Order db w' done later) :
    Reaches db pc w w' (nextMerchant rowCount later) := by
  cases later with
  | nil => exact .returned h
  | cons row later => exact .running (.inr ⟨done, row, later, h, rfl, rfl⟩)

/-- The transaction of a merchant is over. -/
theorem Order.next {done later : List MerchantRow} {row : MerchantRow}
    (h : Order db w done (row :: later))
    (hp : Processed db (done.map MerchantRow.merchantId ++ [row.merchantId]) w') :
    Order db w' (done ++ [row]) later where
  perm := by
    rw [List.append_assoc]
    exact h.perm
  processed := by
    rw [List.map_append]
    exact hp

/-- **One statement** keeps the loop invariant. -/
theorem reaches_exec (h : Progress db w pc)
    (hexec : exec locks rows id w rowCount pc = some (w', call)) : Reaches db pc w w' call := by
  rcases h with ⟨rfl, rfl⟩ | ⟨done, row, later, horder, hturn⟩
  · simp only [exec] at hexec
    split at hexec
    · next merchants hselect =>
      split at hexec
      · next hperm =>
        cases hexec
        have horder : Order w w [] rows := by
          refine ⟨?_, processed_nil w⟩
          rw [merchantRows, hselect]
          exact hperm
        exact reaches_nextMerchant horder
      · cases hexec
    · cases hexec
      exact .threw rfl
  · cases pc with
    | selectMerchants => exact hturn.elim
    | begin merchant rest =>
      cases hexec
      exact .running (.inr ⟨done, row, later, horder, hturn⟩)
    | selectPending merchant rest =>
      obtain ⟨rfl, rfl⟩ := hturn
      simp only [exec] at hexec
      split at hexec
      · next hpending =>
        cases hexec
        exact .running (.inr ⟨done, merchant, rest, horder, rfl, hpending⟩)
      · next hno =>
        cases hexec
        exact .running (.inr ⟨done, merchant, rest, horder, rfl, rfl, Bool.eq_false_iff.mpr hno⟩)
    | commitExisting rest =>
      obtain ⟨rfl, hpending⟩ := hturn
      cases hexec
      exact reaches_nextMerchant
        (horder.next (horder.processed.skip horder.notMem hpending))
    | insertSettlement merchant rest =>
      obtain ⟨rfl, rfl, hno⟩ := hturn
      simp only [exec] at hexec
      split at hexec
      · cases hexec
      split at hexec
      · cases hexec
        exact .threw rfl
      · next hfresh =>
        cases hexec
        refine .running (.inr ⟨done, merchant, rest, horder, ⟨rfl, rfl, rfl, ?_, hno⟩, rfl⟩)
        rw [Bool.not_eq_true, List.any_eq_false] at hfresh
        exact fun y hy heq => hfresh y hy (beq_iff_eq.mpr heq)
    | clearSchedule x rest =>
      obtain ⟨hx, rfl⟩ := hturn
      simp only [exec, hx.merchantId] at hexec
      split at hexec
      · next hscheduled =>
        split at hexec
        · cases hexec
        · cases hexec
          exact .running (.inr ⟨done, row, rest, horder, hx, rfl, hscheduled.symm⟩)
      · next hno =>
        cases hexec
        exact .running (.inr ⟨done, row, rest, horder, hx, rfl,
          (Bool.eq_false_iff.mpr hno).symm⟩)
    | claimEntries x cleared rest =>
      obtain ⟨hx, rfl, hcleared⟩ := hturn
      simp only [exec, hx.merchantId] at hexec
      split at hexec
      · cases hexec
      · cases hexec
        exact .running (.inr ⟨done, row, rest, horder, hx, rfl, hcleared, rfl⟩)
    | commit tx rest =>
      obtain ⟨db', hcommit, heq⟩ := Option.map_eq_some_iff.mp hexec
      cases heq
      obtain ⟨hsettled, hothers, htables⟩ := settled_commit hturn horder.owed hcommit
      obtain ⟨hx, rfl, -⟩ := hturn
      exact reaches_nextMerchant (horder.next
        (horder.processed.settle horder.notMem hx.noPending hsettled hothers htables))

end Loop

/-! ## A whole call -/

section Run

variable {db : Db} {s t : Sys 1} {as : List (Label 1)} {a : Label 1}

theorem call_update (s : Sys 1) (db : Db) (call : Call) :
    Sys.calls { db, calls := Function.update s.calls 0 call } 0 = call := by
  show Function.update s.calls 0 call 0 = call
  exact Function.update_self 0 call s.calls

/-- 9.5 USDC of merchant 1 and of merchant 2. -/
def twoRows : Db := Reconciler.commitCredit oneRow
  ⟨.of { Reconciler.seedInvoice 2 99100 with merchantId := 2 }, 2, 0⟩ true []

end Run

end Stargate.Settlements
