import Stargate.Settlement.DailySettlements

/-!
# A settlement pays the rows it claims, if nobody comes in between

`createDailySettlements` reads the sums on the pool, before any transaction, and
claims the rows later, in one transaction for each merchant. A settlement pays
what it claims only if the unclaimed rows of its merchant stay the same in
between.

- `undisturbed`: no ledger row of a merchant is committed while a call holds a
  sum of that merchant, and no settlement of a merchant is committed between
  another call's check for a pending settlement and its claim;
- `pays_of_guarded_run`: without such steps every settlement pays exactly the
  rows it claims, for any number of overlapping calls;
- `settlement_mispaid`: with one such step of either kind, it does not.
-/

namespace Stargate.Settlements

open Base

/-- The settlement pays exactly the ledger rows that it claims. -/
def Pays (db : Db) (x : Settlement) : Prop :=
  x.amountUsdc.units = db.ledgerEntries.sumOf (fun l => l.settlementId == some x.id) net

instance (db : Db) (x : Settlement) : Decidable (Pays db x) := inferInstanceAs (Decidable (_ = _))

/-- The foreign key `ledger_entries_settlement_fk`. -/
def SettlementKey (db : Db) : Prop :=
  ∀ l ∈ db.ledgerEntries, ∀ id, l.settlementId = some id → ∃ x ∈ db.settlements, x.id = id

/-! ## The condition on runs -/

/-- The merchants whose check for a pending settlement is still to come. -/
def Pc.unchecked : Pc → List MerchantRow
  | .selectMerchants => []
  | .begin merchant rest | .selectPending merchant rest => merchant :: rest
  | .commitExisting rest | .insertSettlement _ rest | .clearSchedule _ rest
  | .claimEntries _ _ rest | .commit _ rest => rest

/-- The merchant that is past that check and whose rows are not claimed yet. -/
def Pc.checked : Pc → Option MerchantRow
  | .insertSettlement merchant _ => some merchant
  | .clearSchedule x _ | .claimEntries x _ _ => some ⟨x.merchantId, x.amountUsdc⟩
  | _ => none

/-- Is the call between the check and the claim of a merchant? -/
def Call.claiming (merchantId : Uuid) : Call → Bool
  | .running _ pc => pc.checked.any fun row => row.merchantId == merchantId
  | _ => false

/-- Does the call hold a sum of the merchant that it may still pay out? -/
def Call.holdsSum (db : Db) (merchantId : Uuid) : Call → Bool
  | .running rowCount pc =>
    (Call.running rowCount pc).claiming merchantId ||
      (!hasPending db merchantId && pc.unchecked.any fun row => row.merchantId == merchantId)
  | _ => false

/-- The step leaves alone the unclaimed rows whose sum a call may pay out. -/
def undisturbed {n : Nat} (s : Sys n) : Label n → Bool
  | .credit c _ _ => decide (∀ k, (s.calls k).holdsSum s.db c.inv.merchantId = false)
  | .exec k _ _ =>
    match s.calls k with
    | .running _ (.commit tx _) =>
      decide (∀ j, j ≠ k → (s.calls j).claiming tx.settlement.merchantId = false)
    | _ => true
  | _ => true

/-! ## The invariant -/

/-- The rows that a transaction has claimed are unclaimed outside of it, and add
up to its settlement. -/
structure Claims (db : Db) (tx : Tx) : Prop where
  rows : ∀ id ∈ tx.claimed, ∃ l ∈ db.ledgerEntries, l.id = id ∧
    unclaimed tx.settlement.merchantId l = true
  sum : db.ledgerEntries.sumOf (fun l => tx.claimed.contains l.id) net
    = tx.settlement.amountUsdc.units

/-- The sums that a call holds are those of the unclaimed rows. -/
structure PcOk (db : Db) (pc : Pc) : Prop where
  unchecked : ∀ row ∈ pc.unchecked, hasPending db row.merchantId = false →
    owed db row.merchantId = row.amount.units
  checked : ∀ row, pc.checked = some row → owed db row.merchantId = row.amount.units
  fresh : ∀ x, pc.settlement = some x → x.status = .pending ∧ ∀ y ∈ db.settlements, y.id ≠ x.id
  claims : ∀ tx rest, pc = .commit tx rest → Claims db tx

def CallOk (db : Db) (call : Call) : Prop :=
  ∀ rowCount pc, call = .running rowCount pc → PcOk db pc

/-- Open transactions insert different settlements and claim different rows. -/
structure Apart (a b : Call) : Prop where
  settlement : ∀ x y, a.settlement = some x → b.settlement = some y → x.id ≠ y.id
  claimed : ∀ id ∈ a.claimed, id ∉ b.claimed

theorem Apart.symm {a b : Call} (h : Apart a b) : Apart b a where
  settlement x y hx hy := (h.settlement y x hy hx).symm
  claimed id hid hid' := h.claimed id hid' hid

/-- The invariant of a run from the database `w`. -/
structure Inv {n : Nat} (w : Db) (s : Sys n) : Prop where
  calls : ∀ k, CallOk s.db (s.calls k)
  apart : ∀ j k, j ≠ k → Apart (s.calls j) (s.calls k)
  key : SettlementKey s.db
  paid : ∀ x ∈ s.db.settlements, x ∈ w.settlements ∨ Pays s.db x

section Steps

variable {n : Nat} {db db' : Db} {pc : Pc} {call : Call} {locks : Locks}
  {rows rest : List MerchantRow} {id : Uuid} {rowCount : Nat} {tx : Tx}

theorem callOk_nextMerchant (h : ∀ row ∈ rest, hasPending db row.merchantId = false →
    owed db row.merchantId = row.amount.units) : CallOk db (nextMerchant rowCount rest) := by
  intro count pc heq
  cases rest with
  | nil => cases heq
  | cons merchant rest =>
    cases heq
    exact ⟨h, nofun, nofun, nofun⟩

/-- The first query reads the sums of the unclaimed rows. -/
theorem owed_of_selectMerchants {merchants : List MerchantRow} {row : MerchantRow}
    (h : selectMerchants db = some merchants) (hrow : row ∈ merchants) :
    owed db row.merchantId = row.amount.units := by
  unfold selectMerchants at h
  split at h
  · cases h
    obtain ⟨m, -, hm⟩ := List.mem_filterMap.mp hrow
    obtain ⟨hm, -⟩ := Option.filter_eq_some_iff.mp hm
    obtain ⟨amount, hamount, rfl⟩ := Option.map_eq_some_iff.mp hm
    exact (Numeric.ofUnits?_eq_some.mp hamount).symm
  · cases h

/-- The claim takes the unclaimed rows of the merchant. -/
theorem claims_unclaimed {x : Settlement} {cleared : Bool}
    (h : owed db x.merchantId = x.amountUsdc.units) :
    Claims db ⟨x, cleared,
      (db.ledgerEntries.rows.filter (unclaimed x.merchantId)).map LedgerEntry.id⟩ where
  rows := by
    intro id hid
    obtain ⟨l, hl, rfl⟩ := List.mem_map.mp hid
    obtain ⟨hl, hun⟩ := List.mem_filter.mp hl
    exact ⟨l, hl, rfl, hun⟩
  sum := by
    rw [← h, owed]
    refine Table.sumOf_congr fun l hl => ?_
    rw [Bool.eq_iff_iff, List.contains_iff_mem, List.mem_map]
    constructor
    · rintro ⟨l', hl', hid⟩
      obtain ⟨hl', hun⟩ := List.mem_filter.mp hl'
      -- ids are unique
      rwa [← Table.eq_of_conflict hl' hl hid]
    · exact fun hun => ⟨l, List.mem_filter.mpr ⟨hl, hun⟩, rfl⟩

/-- **What a statement before the `COMMIT` keeps**: the rows stay as they are, the
sums stay right, and what the transaction takes is free. -/
theorem exec_ok (h : PcOk db pc) (hpc : ∀ tx rest, pc ≠ .commit tx rest)
    (hexec : exec locks rows id db rowCount pc = some (db', call)) :
    db' = db ∧ CallOk db call ∧
    (∀ x, call.settlement = some x → pc.settlement = some x ∨ locks.settlement x.id = false) ∧
    ∀ id ∈ call.claimed, locks.entry id = false := by
  have hnext : ∀ {count : Nat} {rest : List MerchantRow},
      (nextMerchant count rest).settlement = none ∧ (nextMerchant count rest).claimed = [] := by
    intro count rest
    cases rest <;> exact ⟨rfl, rfl⟩
  cases pc with
  | selectMerchants =>
    simp only [exec] at hexec
    split at hexec
    · next merchants hsel =>
      split at hexec
      · next hperm =>
        cases hexec
        refine ⟨rfl, callOk_nextMerchant fun row hrow _ =>
          owed_of_selectMerchants hsel (hperm.subset hrow), fun x hx => ?_, fun id hid => ?_⟩
        · rw [hnext.1] at hx
          cases hx
        · rw [hnext.2] at hid
          cases hid
      · cases hexec
    · cases hexec
      exact ⟨rfl, nofun, nofun, nofun⟩
  | begin merchant rest =>
    cases hexec
    refine ⟨rfl, ?_, nofun, nofun⟩
    rintro _ _ ⟨⟩
    exact ⟨h.unchecked, nofun, nofun, nofun⟩
  | selectPending merchant rest =>
    simp only [exec] at hexec
    split at hexec
    · cases hexec
      refine ⟨rfl, ?_, nofun, nofun⟩
      rintro _ _ ⟨⟩
      exact ⟨fun row hrow => h.unchecked row (.tail _ hrow), nofun, nofun, nofun⟩
    · next hpend =>
      cases hexec
      refine ⟨rfl, ?_, nofun, nofun⟩
      rintro _ _ ⟨⟩
      refine ⟨fun row hrow => h.unchecked row (.tail _ hrow), ?_, nofun, nofun⟩
      rintro _ ⟨⟩
      exact h.unchecked merchant (.head _) (Bool.not_eq_true _ ▸ hpend)
  | commitExisting rest =>
    cases hexec
    refine ⟨rfl, callOk_nextMerchant h.unchecked, fun x hx => ?_, fun id hid => ?_⟩
    · rw [hnext.1] at hx
      cases hx
    · rw [hnext.2] at hid
      cases hid
  | insertSettlement merchant rest =>
    simp only [exec] at hexec
    split at hexec
    · cases hexec
    · next hfree =>
      split at hexec
      · cases hexec
        exact ⟨rfl, nofun, nofun, nofun⟩
      · next hnew =>
        cases hexec
        refine ⟨rfl, ?_, ?_, nofun⟩
        · rintro _ _ ⟨⟩
          refine ⟨h.unchecked, ?_, ?_, nofun⟩
          · rintro _ ⟨⟩
            exact h.checked merchant rfl
          · rintro _ ⟨⟩
            refine ⟨rfl, fun y hy heq => hnew ?_⟩
            exact List.any_eq_true.mpr ⟨y, hy, beq_iff_eq.mpr heq⟩
        · rintro _ ⟨⟩
          exact .inr (Bool.not_eq_true _ ▸ hfree)
  | clearSchedule x rest =>
    have hok : ∀ cleared, CallOk db (.running rowCount (.claimEntries x cleared rest)) := by
      rintro cleared _ _ ⟨⟩
      exact ⟨h.unchecked, h.checked, h.fresh, nofun⟩
    simp only [exec] at hexec
    split at hexec
    · split at hexec
      · cases hexec
      · cases hexec
        exact ⟨rfl, hok true, fun x hx => .inl hx, nofun⟩
    · cases hexec
      exact ⟨rfl, hok false, fun x hx => .inl hx, nofun⟩
  | claimEntries x cleared rest =>
    simp only [exec] at hexec
    split at hexec
    · cases hexec
    · next hfree =>
      cases hexec
      refine ⟨rfl, ?_, fun x hx => .inl hx, fun id hid => ?_⟩
      · rintro _ _ ⟨⟩
        refine ⟨h.unchecked, nofun, h.fresh, ?_⟩
        rintro _ _ ⟨⟩
        exact claims_unclaimed (h.checked _ rfl)
      · exact Bool.eq_false_iff.mpr fun hlock => hfree (List.any_eq_true.mpr ⟨id, hid, hlock⟩)
  | commit tx rest => exact absurd rfl (hpc tx rest)

/-! ### The reconciler commits a row -/

section Credit

variable {c : Reconciler.Credit} {updated : Bool} {hooks : List Uuid}

theorem owed_credit {merchantId : Uuid} (h : merchantId ≠ c.inv.merchantId) :
    owed (Reconciler.commitCredit db c updated hooks) merchantId = owed db merchantId := by
  have hentry : unclaimed merchantId (c.entry db.ledgerEntries.nextId) = false := by
    simp [unclaimed, Reconciler.Credit.entry, h.symm]
  show (db.ledgerEntries.append c.entry c.id_of_conflict).sumOf _ net = _
  rw [Table.sumOf_append, hentry, owed]
  simp

theorem pays_credit {x : Settlement} (h : Pays db x) :
    Pays (Reconciler.commitCredit db c updated hooks) x := by
  rw [Pays, h]
  show _ = (db.ledgerEntries.append c.entry c.id_of_conflict).sumOf _ net
  rw [Table.sumOf_append]
  simp [Reconciler.Credit.entry]

theorem claims_credit (h : Claims db tx) :
    Claims (Reconciler.commitCredit db c updated hooks) tx where
  rows id hid := by
    obtain ⟨l, hl, hrest⟩ := h.rows id hid
    exact ⟨l, Reconciler.mem_ledger_commitCredit.mpr (.inl hl), hrest⟩
  sum := by
    have hnew : db.ledgerEntries.nextId ∉ tx.claimed := fun hmem => by
      obtain ⟨l, hl, hid, -⟩ := h.rows _ hmem
      exact Nat.ne_of_lt (Table.lt_nextId hl) hid
    show (db.ledgerEntries.append c.entry c.id_of_conflict).sumOf _ net = _
    rw [Table.sumOf_append, h.sum]
    simp [Reconciler.Credit.entry, hnew]

/-- A call that holds no sum of the merchant does not notice the row. -/
theorem callOk_credit (h : CallOk db call) (hfree : call.holdsSum db c.inv.merchantId = false) :
    CallOk (Reconciler.commitCredit db c updated hooks) call := by
  intro count pc heq
  subst heq
  have hpc := h count pc rfl
  simp only [Call.holdsSum, Call.claiming, Bool.or_eq_false_iff, Bool.and_eq_false_imp,
    Bool.not_eq_true', List.any_eq_false, beq_iff_eq] at hfree
  obtain ⟨hchecked, hunchecked⟩ := hfree
  refine ⟨fun row hrow hpend => ?_, fun row hrow => ?_, hpc.fresh, fun tx rest htx =>
    claims_credit (hpc.claims tx rest htx)⟩
  · have hne : row.merchantId ≠ c.inv.merchantId := fun heq =>
      hunchecked (heq ▸ hpend) row hrow heq
    rw [owed_credit hne]
    exact hpc.unchecked row hrow hpend
  · have hne : row.merchantId ≠ c.inv.merchantId := by
      rw [hrow] at hchecked
      simpa using hchecked
    rw [owed_credit hne]
    exact hpc.checked row hrow

end Credit

/-! ### A transaction commits -/

section Commit

/-- What a committed transaction has done. -/
theorem commitSettlement_some (h : commitSettlement db tx = some db') :
    (∀ x, x ∈ db'.settlements ↔ x ∈ db.settlements ∨ x = tx.settlement) ∧
    db'.ledgerEntries = db.ledgerEntries.modify (fun l => tx.claimed.contains l.id)
      (claim tx.settlement.id) (key_claim tx.settlement.id) := by
  obtain ⟨settlements, hins, rfl⟩ := Option.map_eq_some_iff.mp h
  exact ⟨Table.mem_of_insert? hins, rfl⟩

theorem hasPending_commit (h : commitSettlement db tx = some db')
    (hpending : tx.settlement.status = .pending) {merchantId : Uuid}
    (hno : hasPending db' merchantId = false) :
    hasPending db merchantId = false ∧ merchantId ≠ tx.settlement.merchantId := by
  have hmem := (commitSettlement_some h).1
  simp only [hasPending, List.any_eq_false, Table.mem_rows] at hno ⊢
  refine ⟨fun x hx => hno x ((hmem x).mpr (.inl hx)), fun heq => ?_⟩
  refine hno tx.settlement ((hmem _).mpr (.inr rfl)) ?_
  simp [heq, hpending]

/-- A row of another merchant is not claimed. -/
theorem not_claimed {l : LedgerEntry} (hclaims : Claims db tx) (hl : l ∈ db.ledgerEntries)
    (hl' : unclaimed tx.settlement.merchantId l = false) : tx.claimed.contains l.id = false := by
  rw [Bool.eq_false_iff, ne_eq, List.contains_iff_mem]
  intro hmem
  obtain ⟨l', hl₁, hid, hun⟩ := hclaims.rows _ hmem
  rw [Table.eq_of_conflict hl₁ hl hid, hl'] at hun
  cases hun

theorem owed_commit (h : commitSettlement db tx = some db') (hclaims : Claims db tx)
    {merchantId : Uuid} (hne : merchantId ≠ tx.settlement.merchantId) :
    owed db' merchantId = owed db merchantId := by
  rw [owed, (commitSettlement_some h).2, owed]
  refine Table.sumOf_modify (key_claim _) (fun _ => rfl) fun l hl => ?_
  split
  · next hclaim =>
    -- a claimed row is of the transaction's merchant
    have hmerchant : (l.merchantId == merchantId) = false := by
      rw [beq_eq_false_iff_ne]
      rintro rfl
      have hother : unclaimed tx.settlement.merchantId l = false := by simp [unclaimed, hne]
      rw [not_claimed hclaims hl hother] at hclaim
      cases hclaim
    simp [unclaimed, claim, hmerchant]
  · rfl

theorem pays_commit (h : commitSettlement db tx = some db') (hclaims : Claims db tx)
    {x : Settlement} (hx : x.id ≠ tx.settlement.id) (hpays : Pays db x) : Pays db' x := by
  rw [Pays, hpays, (commitSettlement_some h).2]
  refine (Table.sumOf_modify (key_claim _) (fun _ => rfl) fun l hl => ?_).symm
  split
  · next hclaim =>
    obtain ⟨l', hl', hid, hun⟩ := hclaims.rows _ (List.contains_iff_mem.mp hclaim)
    rw [Table.eq_of_conflict hl' hl hid] at hun
    simp only [unclaimed, Bool.and_eq_true, Option.isNone_iff_eq_none] at hun
    simp [claim, hun.2, hx.symm]
  · rfl

/-- **A committed settlement pays the rows it has claimed.** -/
theorem pays_committed (h : commitSettlement db tx = some db') (hclaims : Claims db tx)
    (hkey : SettlementKey db) (hfresh : ∀ y ∈ db.settlements, y.id ≠ tx.settlement.id) :
    Pays db' tx.settlement := by
  rw [Pays, ← hclaims.sum, (commitSettlement_some h).2]
  refine (Table.sumOf_modify (key_claim _) (fun _ => rfl) fun l hl => ?_).symm
  split
  · next hclaim =>
    rw [hclaim]
    simp [claim]
  · next hclaim =>
    -- no row refers to a settlement that was not there
    have hnone : l.settlementId ≠ some tx.settlement.id := fun heq => by
      obtain ⟨y, hy, hid⟩ := hkey l hl _ heq
      exact hfresh y hy hid
    rw [Bool.eq_false_iff.mpr hclaim, beq_eq_false_iff_ne]
    exact hnone

theorem settlementKey_commit (h : commitSettlement db tx = some db') (hkey : SettlementKey db) :
    SettlementKey db' := by
  obtain ⟨hmem, hledger⟩ := commitSettlement_some h
  intro l hl id hid
  rw [hledger] at hl
  obtain ⟨l₀, hl₀, rfl⟩ := (Table.mem_modify _).mp hl
  split at hid
  · cases hid
    exact ⟨tx.settlement, (hmem _).mpr (.inr rfl), rfl⟩
  · obtain ⟨x, hx, hxid⟩ := hkey l₀ hl₀ id hid
    exact ⟨x, (hmem x).mpr (.inl hx), hxid⟩

/-- The claims of other transactions stay as they are. -/
theorem claims_commit {tx' : Tx} (h : commitSettlement db tx = some db')
    (hapart : ∀ id ∈ tx'.claimed, id ∉ tx.claimed) (hclaims : Claims db tx') : Claims db' tx' where
  rows id hid := by
    obtain ⟨l, hl, hlid, hun⟩ := hclaims.rows id hid
    refine ⟨l, ?_, hlid, hun⟩
    rw [(commitSettlement_some h).2]
    refine (Table.mem_modify _).mpr ⟨l, hl, if_neg ?_⟩
    rw [List.contains_iff_mem, hlid]
    exact hapart id hid
  sum := by
    rw [(commitSettlement_some h).2, ← hclaims.sum]
    refine Table.sumOf_modify (key_claim _) (fun _ => rfl) fun l _ => ?_
    split <;> rfl

/-- A call that is not about to claim rows of the merchant does not notice the
commit: where its check is still to come, it will find the new settlement. -/
theorem callOk_commit (h : commitSettlement db tx = some db') (hclaims : Claims db tx)
    (hpending : tx.settlement.status = .pending) (hcall : CallOk db call)
    (hfree : call.claiming tx.settlement.merchantId = false)
    (hid : ∀ x, call.settlement = some x → x.id ≠ tx.settlement.id)
    (hapart : ∀ id ∈ call.claimed, id ∉ tx.claimed) : CallOk db' call := by
  intro count pc heq
  subst heq
  have hpc := hcall count pc rfl
  refine ⟨fun row hrow hno => ?_, fun row hrow => ?_, fun x hx => ?_, fun tx' rest htx => ?_⟩
  · obtain ⟨hno, hne⟩ := hasPending_commit h hpending hno
    rw [owed_commit h hclaims hne]
    exact hpc.unchecked row hrow hno
  · have hne : row.merchantId ≠ tx.settlement.merchantId := by
      simp only [Call.claiming, hrow] at hfree
      simpa using hfree
    rw [owed_commit h hclaims hne]
    exact hpc.checked row hrow
  · refine ⟨(hpc.fresh x hx).1, fun y hy => ?_⟩
    rcases ((commitSettlement_some h).1 y).mp hy with hy | rfl
    · exact (hpc.fresh x hx).2 y hy
    · exact (hid x hx).symm
  · subst htx
    exact claims_commit h hapart (hpc.claims tx' rest rfl)

end Commit

/-! ### Runs -/

theorem settlement_nextMerchant : (nextMerchant rowCount rest).settlement = none := by
  cases rest <;> rfl

theorem claimed_nextMerchant : (nextMerchant rowCount rest).claimed = [] := by
  cases rest <;> rfl

/-- A call without open transaction is apart from every other one. -/
theorem Apart.of_none {a b : Call} (hs : a.settlement = none) (hc : a.claimed = []) :
    Apart a b where
  settlement x y hx := by
    rw [hs] at hx
    cases hx
  claimed id hid := by
    rw [hc] at hid
    cases hid

/-- A call moves, the committed rows stay as they are. -/
theorem Inv.move {w : Db} {s : Sys n} {k : Fin n} (h : Inv w s) (hcall : CallOk s.db call)
    (hapart : ∀ j, j ≠ k → Apart call (s.calls j)) :
    Inv w { s with calls := Function.update s.calls k call } where
  calls := forall_update (P := fun _ c => CallOk s.db c) hcall fun i _ => h.calls i
  apart := pairwise_update (fun _ _ => Apart.symm) h.apart hapart
  key := h.key
  paid := h.paid

/-- A call commits, and nobody else is about to claim rows of its merchant. -/
theorem Inv.commit {w : Db} {s : Sys n} {k : Fin n} (h : Inv w s)
    (hk : s.calls k = .running rowCount (.commit tx rest))
    (hdb : commitSettlement s.db tx = some db')
    (hfree : ∀ j, j ≠ k → (s.calls j).claiming tx.settlement.merchantId = false) :
    Inv w { s with
      db := db'
      calls := Function.update s.calls k (nextMerchant rowCount rest) } := by
  have hpc := h.calls k _ _ hk
  have hclaims := hpc.claims tx rest rfl
  obtain ⟨hpending, hfresh⟩ := hpc.fresh tx.settlement rfl
  have hnext : CallOk db' (nextMerchant rowCount rest) :=
    callOk_nextMerchant fun row hrow hno => by
      obtain ⟨hno, hne⟩ := hasPending_commit hdb hpending hno
      rw [owed_commit hdb hclaims hne]
      exact hpc.unchecked row hrow hno
  have hothers : ∀ j, j ≠ k → CallOk db' (s.calls j) := fun j hj => by
    have hapart := h.apart j k hj
    rw [hk] at hapart
    exact callOk_commit hdb hclaims hpending (h.calls j) (hfree j hj)
      (fun x hx => hapart.settlement x tx.settlement hx rfl) hapart.claimed
  refine ⟨forall_update (P := fun _ c => CallOk db' c) hnext hothers,
    pairwise_update (fun _ _ => Apart.symm) h.apart fun j _ =>
      .of_none settlement_nextMerchant claimed_nextMerchant,
    settlementKey_commit hdb h.key, fun x hx => ?_⟩
  rcases ((commitSettlement_some hdb).1 x).mp hx with hx | rfl
  · exact (h.paid x hx).imp_right (pays_commit hdb hclaims (hfresh x hx))
  · exact .inr (pays_committed hdb hclaims h.key hfresh)

/-- **A step that meets the condition keeps the invariant.** -/
theorem inv_step {w : Db} {s s' : Sys n} {a : Label n} (h : Inv w s)
    (hok : undisturbed s a = true) (hstep : (system n).step s a = some s') : Inv w s' := by
  cases a with
  | start k =>
    have hstart : Inv w { s with
        calls := Function.update s.calls k (.running 0 .selectMerchants) } := by
      refine h.move ?_ fun j _ => .of_none rfl rfl
      rintro _ _ ⟨⟩
      exact ⟨nofun, nofun, nofun, nofun⟩
    simp only [system] at hstep
    split at hstep
    · cases hstep
    · cases hstep
      exact hstart
  | exec k rows id =>
    simp only [system] at hstep
    split at hstep
    · next rowCount pc hk =>
      obtain ⟨⟨db, call⟩, hexec, hs'⟩ := Option.map_eq_some_iff.mp hstep
      cases hs'
      have hpc := h.calls k rowCount pc hk
      by_cases hcommit : ∃ tx rest, pc = .commit tx rest
      · obtain ⟨tx, rest, rfl⟩ := hcommit
        obtain ⟨db, hdb, hcall⟩ := Option.map_eq_some_iff.mp hexec
        cases hcall
        simp only [undisturbed, hk, decide_eq_true_eq] at hok
        exact h.commit hk hdb hok
      · obtain ⟨rfl, hcall, hsettlement, hclaimed⟩ := exec_ok hpc
          (fun tx rest heq => hcommit ⟨tx, rest, heq⟩) hexec
        refine h.move hcall fun j hj => ⟨fun x y hx hy => ?_, fun id hid hid' => ?_⟩
        · rcases hsettlement x hx with hx | hfree
          · exact (h.apart k j hj.symm).settlement x y (by rw [hk]; exact hx) hy
          · rintro heq
            have hlocked : (s.locksFor k).settlement x.id = true :=
              decide_eq_true ⟨j, hj, by rw [hy, heq]; rfl⟩
            rw [hfree] at hlocked
            cases hlocked
        · have hlocked : (s.locksFor k).entry id = true := decide_eq_true ⟨j, hj, hid'⟩
          rw [hclaimed id hid] at hlocked
          cases hlocked
    · cases hstep
  | abort k =>
    simp only [system] at hstep
    split at hstep
    · cases hstep
      exact h.move nofun fun j _ => .of_none rfl rfl
    · cases hstep
  | credit c updated hooks =>
    cases hstep
    simp only [undisturbed, decide_eq_true_eq] at hok
    refine ⟨fun k => callOk_credit (h.calls k) (hok k), h.apart, fun l hl id hid => ?_,
      fun x hx => (h.paid x hx).imp_right pays_credit⟩
    rcases Reconciler.mem_ledger_commitCredit.mp hl with hl | rfl
    · exact h.key l hl id hid
    · cases hid

/-- **Settlements pay what they claim**: in every run of any number of calls and
of the reconciler in which nothing comes between the sums and the claims, every
settlement that the run creates is the sum of the rows that refer to it. -/
theorem pays_of_guarded_run {w : Db} {s : Sys n} {as : List (Label n)} (hkey : SettlementKey w)
    (hguard : (system n).Guarded (fun s a => undisturbed s a = true) { db := w } as)
    (hrun : (system n).run { db := w } as = some s) :
    ∀ x ∈ s.db.settlements, x ∉ w.settlements → Pays s.db x := by
  have hinit : Inv (n := n) w { db := w } :=
    { calls := nofun
      apart := fun _ _ _ => .of_none rfl rfl
      key := hkey
      paid := fun _ hx => .inl hx }
  have h := (system n).inv_of_guarded_run (fun _ _ _ => inv_step) hinit hguard hrun
  exact fun x hx hnew => (h.paid x hx).resolve_left hnew

end Steps

/-! ## Runs on the fixtures -/

/-- A paid invoice of 10.5 USDC, 9.5 net, of merchant 1. -/
def credit : Reconciler.Credit := ⟨.of (Reconciler.seedInvoice 1 99099), 1, 0⟩

/-- One unclaimed row of 9.5 USDC. -/
def oneRow : Db := Reconciler.commitCredit {} credit true []

def ninePointFive : MerchantRow := ⟨1, (Reconciler.seedInvoice 1 99099).netUsdc⟩

/-- The next `k` statements of a call; the query returns merchant 1, and the
settlement gets the id `id`. -/
def execs {n : Nat} (p : Fin n) (id : Uuid) (k : Nat) : List (Label n) :=
  List.replicate k (.exec p [ninePointFive] id)

/-- Two calls one after the other, and a credit after the first claim. -/
def inTurn : List (Label 2) :=
  .start 0 :: execs 0 7 6 ++ .credit credit true [] :: execs 0 7 1 ++ .start 1 :: execs 1 8 4

theorem pays_of_guarded_run_in_turn :
    ∃ s, (system 2).run { db := oneRow } inTurn = some s ∧
      ∀ x ∈ s.db.settlements, x ∉ oneRow.settlements → Pays s.db x := by
  obtain ⟨s, hs, -⟩ := (system 2).exists_of_leadsTo
    (fun s => s.calls 0 = .returned 1 ∧ s.calls 1 = .returned 1)
    { db := oneRow } inTurn (by decide +kernel)
  have hkey : SettlementKey oneRow := fun l hl id hid => by
    rcases Reconciler.mem_ledger_commitCredit.mp hl with hl | rfl
    · cases hl
    · cases hid
  exact ⟨s, hs, pays_of_guarded_run hkey (by decide +kernel) hs⟩

/-- A credit between the sum and the claim. -/
def creditInBetween : List (Label 2) :=
  .start 0 :: execs 0 7 5 ++ .credit credit true [] :: execs 0 7 2

/-- Two calls that both find no pending settlement. -/
def bothUnsettled : List (Label 2) :=
  .start 0 :: execs 0 7 4 ++ .start 1 :: execs 1 8 4 ++ execs 0 7 3 ++ execs 1 8 3

/-- **Settlements that do not pay what they claim**: one of 9.5 USDC that claims
rows of 19 USDC, and a second one of 9.5 USDC that claims nothing. -/
theorem settlement_mispaid :
    (∃ s, (system 2).run { db := oneRow } creditInBetween = some s ∧
      s.calls 0 = .returned 1 ∧ s.calls 1 = .idle ∧
      ∃ x ∈ s.db.settlements, ¬ Pays s.db x ∧ x.amountUsdc.units = 95000000 ∧
        s.db.ledgerEntries.sumOf (fun l => l.settlementId == some x.id) net = 190000000) ∧
    ∃ s, (system 2).run { db := oneRow } bothUnsettled = some s ∧
      s.calls 0 = .returned 1 ∧ s.calls 1 = .returned 1 ∧
      ∃ x ∈ s.db.settlements, ¬ Pays s.db x ∧ x.amountUsdc.units = 95000000 ∧
        s.db.ledgerEntries.sumOf (fun l => l.settlementId == some x.id) net = 0 := by
  constructor
  · exact (system 2).exists_of_leadsTo
      (fun s => s.calls 0 = .returned 1 ∧ s.calls 1 = .idle ∧
        ∃ x ∈ s.db.settlements.rows, ¬ Pays s.db x ∧ x.amountUsdc.units = 95000000 ∧
          s.db.ledgerEntries.sumOf (fun l => l.settlementId == some x.id) net = 190000000)
      { db := oneRow } creditInBetween (by decide +kernel)
  · exact (system 2).exists_of_leadsTo
      (fun s => s.calls 0 = .returned 1 ∧ s.calls 1 = .returned 1 ∧
        ∃ x ∈ s.db.settlements.rows, ¬ Pays s.db x ∧ x.amountUsdc.units = 95000000 ∧
          s.db.ledgerEntries.sumOf (fun l => l.settlementId == some x.id) net = 0)
      { db := oneRow } bothUnsettled (by decide +kernel)

end Stargate.Settlements
