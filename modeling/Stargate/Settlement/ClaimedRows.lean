import Stargate.Base.Sessions
import Stargate.Settlement.Payout

/-!
# A ledger row is claimed once

`UPDATE ledger_entries SET settlement_id=$1 WHERE merchant_id=$2 AND settlement_id
IS NULL` runs in `exec` as one step. In Postgres it is not: the statement takes a
snapshot of the rows that meet the condition, visits them one by one, waits where
another transaction has written a row, and then checks the condition again on the
row as it has become. `program` runs it that way, row by row.

- `updating_alone`: where nobody interferes, the rows are claimed as by `exec`;
- `claims_write_once`: a committed claim stays for ever, refers to a settlement of
  the row's merchant, and no row is ever claimed twice.
-/

namespace Stargate.Settlements

open Base

/-- A call, with the claiming `UPDATE` in progress. -/
inductive Worker where
  | statement (call : Call)
  /-- `scan` are the rows of the snapshot that are still to be visited, `claimed`
  those that have been written. -/
  | updating (rowCount : Nat) (settlement : Settlement) (cleared : Bool) (scan claimed : List Nat)
      (rest : List MerchantRow)
  deriving DecidableEq

namespace Worker

def settlement : Worker → Option Settlement
  | .statement call => call.settlement
  | .updating _ settlement _ _ _ _ => some settlement

def clears : Worker → Option Uuid
  | .statement call => call.clears
  | .updating _ settlement cleared _ _ _ => if cleared then some settlement.merchantId else none

def claimed : Worker → List Nat
  | .statement call => call.claimed
  | .updating _ _ _ _ claimed _ => claimed

end Worker

/-- What a statement is given: the order in which its query returns rows, the
order in which its `UPDATE` visits them, a random id. -/
inductive Input where
  | start
  | exec (rows : List MerchantRow) (scan : List Nat) (id : Uuid)
  /-- The statement fails, or the process crashes: the transaction is rolled back. -/
  | abort
  deriving DecidableEq

/-- A ledger transaction of the reconciler. -/
structure Crediting where
  credit : Reconciler.Credit
  updated : Bool
  hooks : List Uuid

/-- What the other transactions hold. -/
def locks (others : List Worker) : Locks where
  entry id := others.any fun w => w.claimed.contains id
  merchant id := others.any fun w => w.clears == some id
  settlement id := others.any fun w => w.settlement.map Settlement.id == some id

/-- The ids of the rows that the `UPDATE` is about to claim. -/
def claimable (db : Db) (merchantId : Uuid) : List Nat :=
  (db.ledgerEntries.rows.filter (unclaimed merchantId)).map LedgerEntry.id

/-- One statement, and of the claiming `UPDATE` one row. -/
def execRow (others : List Worker) : Input → Db → Worker → Option (Db × Worker)
  | .start, db, .statement call =>
    match call with
    | .running _ _ => none
    | _ => some (db, .statement (.running 0 .selectMerchants))
  | .start, _, .updating .. => none
  | .abort, db, .statement (.running _ _) => some (db, .statement .threw)
  | .abort, db, .updating .. => some (db, .statement .threw)
  | .abort, _, _ => none
  | .exec rows scan id, db, .statement (.running rowCount pc) =>
    match pc with
    | .claimEntries settlement cleared rest =>
      if scan.Perm (claimable db settlement.merchantId) then
        some (db, .updating rowCount settlement cleared scan [] rest)
      else none
    | _ => (exec (locks others) rows id db rowCount pc).map fun (db, call) => (db, .statement call)
  | .exec .., db, .updating rowCount settlement cleared scan claimed rest =>
    match scan with
    | [] => some (db, .statement (.running rowCount (.commit ⟨settlement, cleared, claimed⟩ rest)))
    | id :: scan =>
      -- a row that another transaction has written is waited for, then checked again
      if (locks others).entry id then none
      else if db.ledgerEntries.rows.any fun l =>
          l.id == id && unclaimed settlement.merchantId l then
        some (db, .updating rowCount settlement cleared scan (claimed ++ [id]) rest)
      else some (db, .updating rowCount settlement cleared scan claimed rest)
  | .exec .., _, .statement _ => none

/-- `createDailySettlements` beside the reconciler. -/
def program : Program Db Worker Input Crediting where
  exec := execRow
  env e db := some (Reconciler.commitCredit db e.credit e.updated e.hooks)

/-- Nobody has called yet. -/
def idle (db : Db) (n : Nat) : Program.Sys Db Worker n := { db, calls := fun _ => .statement .idle }

/-! ## What a statement does -/

section Steps

variable {others : List Worker} {input : Input} {db db' : Db} {w w' : Worker} {pc : Pc}
  {call : Call} {rows rest : List MerchantRow} {id : Uuid} {rowCount : Nat} {tx : Tx}

/-- Before its `UPDATE`, a transaction has claimed nothing. -/
theorem exec_claims_nothing {l : Locks} (hcommit : ∀ tx rest, pc ≠ .commit tx rest)
    (hclaim : ∀ x cleared rest, pc ≠ .claimEntries x cleared rest)
    (h : exec l rows id db rowCount pc = some (db', call)) : db' = db ∧ call.claimed = [] := by
  cases pc with
  | selectMerchants =>
    simp only [exec] at h
    split at h
    · split at h
      · cases h
        exact ⟨rfl, claimed_nextMerchant⟩
      · cases h
    · cases h
      exact ⟨rfl, rfl⟩
  | begin merchant rest =>
    cases h
    exact ⟨rfl, rfl⟩
  | selectPending merchant rest =>
    simp only [exec] at h
    split at h <;> cases h <;> exact ⟨rfl, rfl⟩
  | commitExisting rest =>
    cases h
    exact ⟨rfl, claimed_nextMerchant⟩
  | insertSettlement merchant rest =>
    simp only [exec] at h
    split at h
    · cases h
    · split at h <;> cases h <;> exact ⟨rfl, rfl⟩
  | clearSchedule x rest =>
    simp only [exec] at h
    split at h
    · split at h
      · cases h
      · cases h
        exact ⟨rfl, rfl⟩
    · cases h
      exact ⟨rfl, rfl⟩
  | claimEntries x cleared rest => exact absurd rfl (hclaim x cleared rest)
  | commit tx rest => exact absurd rfl (hcommit tx rest)

/-- The row with this id can be claimed for the settlement of `w`. -/
def Free (db : Db) (w : Worker) (id : Nat) : Prop :=
  ∃ l ∈ db.ledgerEntries, l.id = id ∧ ∃ x, w.settlement = some x ∧ unclaimed x.merchantId l = true

/-- A statement claims at most one row, which is free and not locked, or it commits. -/
theorem execRow_cases (h : execRow others input db w = some (db', w')) :
    (db' = db ∧ ∀ id ∈ w'.claimed, w'.settlement = w.settlement ∧
      (id ∈ w.claimed ∨ (locks others).entry id = false ∧ Free db w' id)) ∨
    ∃ rowCount tx rest, w = .statement (.running rowCount (.commit tx rest)) ∧
      commitSettlement db tx = some db' ∧ w'.claimed = [] := by
  have hnone : ∀ {w' : Worker}, w'.claimed = [] → ∀ id ∈ w'.claimed,
      w'.settlement = w.settlement ∧
        (id ∈ w.claimed ∨ (locks others).entry id = false ∧ Free db w' id) := by
    intro w' hw' id hid
    rw [hw'] at hid
    cases hid
  cases input with
  | start =>
    left
    cases w with
    | statement call =>
      cases call with
      | running _ _ => cases h
      | _ =>
        cases h
        exact ⟨rfl, hnone rfl⟩
    | updating => cases h
  | abort =>
    left
    cases w with
    | statement call =>
      cases call with
      | running _ _ =>
        cases h
        exact ⟨rfl, hnone rfl⟩
      | _ => cases h
    | updating =>
      cases h
      exact ⟨rfl, hnone rfl⟩
  | exec rows scan id =>
    cases w with
    | statement call =>
      cases call with
      | running rowCount pc =>
        by_cases hclaim : ∃ x cleared rest, pc = .claimEntries x cleared rest
        · obtain ⟨x, cleared, rest, rfl⟩ := hclaim
          simp only [execRow] at h
          split at h
          · cases h
            exact .inl ⟨rfl, hnone rfl⟩
          · cases h
        · have hexec : execRow others (.exec rows scan id) db (.statement (.running rowCount pc))
              = (exec (locks others) rows id db rowCount pc).map fun (db, call) =>
                (db, .statement call) := by
            cases pc with
            | claimEntries x cleared rest => exact absurd ⟨x, cleared, rest, rfl⟩ hclaim
            | _ => rfl
          rw [hexec] at h
          obtain ⟨⟨db₁, call⟩, hexec, hw'⟩ := Option.map_eq_some_iff.mp h
          cases hw'
          by_cases hcommit : ∃ tx rest, pc = .commit tx rest
          · obtain ⟨tx, rest, rfl⟩ := hcommit
            obtain ⟨db₂, hdb, hcall⟩ := Option.map_eq_some_iff.mp hexec
            cases hcall
            exact .inr ⟨rowCount, tx, rest, rfl, hdb, claimed_nextMerchant⟩
          · obtain ⟨rfl, hcall⟩ := exec_claims_nothing
              (fun tx rest heq => hcommit ⟨tx, rest, heq⟩)
              (fun x cleared rest heq => hclaim ⟨x, cleared, rest, heq⟩) hexec
            exact .inl ⟨rfl, hnone hcall⟩
      | idle => cases h
      | returned _ => cases h
      | threw => cases h
    | updating rowCount x cleared scan claimed rest =>
      left
      cases scan with
      | nil =>
        cases h
        exact ⟨rfl, fun id hid => ⟨rfl, .inl hid⟩⟩
      | cons next scan =>
        simp only [execRow] at h
        split at h
        · cases h
        · next hlock =>
          split at h
          · next hfree =>
            cases h
            refine ⟨rfl, fun id hid => ⟨rfl, ?_⟩⟩
            rcases List.mem_append.mp hid with hid | hid
            · exact .inl hid
            · rw [List.mem_singleton.mp hid]
              obtain ⟨l, hl, hrow⟩ := List.any_eq_true.mp hfree
              obtain ⟨hlid, hun⟩ := (Bool.and_eq_true _ _).mp hrow
              exact .inr ⟨Bool.not_eq_true _ ▸ hlock, l, hl, beq_iff_eq.mp hlid, x, rfl, hun⟩
          · cases h
            exact ⟨rfl, fun id hid => ⟨rfl, .inl hid⟩⟩

/-- Where nobody has locked or claimed a row of the snapshot, the `UPDATE` claims
them all, as in `exec`. -/
theorem updating_alone {n : Nat} {s : Program.Sys Db Worker n} {k : Fin n} {x : Settlement}
    {cleared : Bool} {scan claimed : List Nat}
    (hk : s.calls k = .updating rowCount x cleared scan claimed rest)
    (hfree : ∀ id ∈ scan, (locks (s.others k)).entry id = false ∧
      ∃ l ∈ s.db.ledgerEntries, l.id = id ∧ unclaimed x.merchantId l = true) :
    (program.interleave n).run s
        (List.replicate (scan.length + 1) (.call k (.exec [] [] 0)))
      = some { s with
          calls := Function.update s.calls k
            (.statement (.running rowCount (.commit ⟨x, cleared, claimed ++ scan⟩ rest))) } := by
  induction scan generalizing s claimed with
  | nil =>
    have hstep : (program.interleave n).step s (.call k (.exec [] [] 0))
        = some { s with
            calls := Function.update s.calls k
              (.statement (.running rowCount (.commit ⟨x, cleared, claimed⟩ rest))) } := by
      refine program.step_call.mpr ⟨s.db, _, ?_, rfl⟩
      rw [hk]
      rfl
    rw [List.append_nil]
    exact (Lts.run_cons _).mpr ⟨_, hstep, rfl⟩
  | cons id scan ih =>
    obtain ⟨hlock, l, hl, hlid, hun⟩ := hfree id (.head _)
    have hrow : (s.db.ledgerEntries.rows.any fun l => l.id == id && unclaimed x.merchantId l)
        = true :=
      List.any_eq_true.mpr ⟨l, hl, by rw [hun, hlid]; simp⟩
    have hstep : (program.interleave n).step s (.call k (.exec [] [] 0))
        = some { s with
            calls := Function.update s.calls k
              (.updating rowCount x cleared scan (claimed ++ [id]) rest) } := by
      refine program.step_call.mpr ⟨s.db, _, ?_, rfl⟩
      rw [hk]
      simp only [program, execRow, hlock, hrow, if_true, Bool.false_eq_true, if_false]
    refine (Lts.run_cons _).mpr ⟨_, hstep, (ih (Function.update_self ..) ?_).trans ?_⟩
    · intro id' hid'
      rw [Program.Sys.others_update]
      exact hfree id' (.tail _ hid')
    · rw [Function.update_idem, List.append_assoc]
      rfl

/-! ## The invariant -/

/-- Claims refer to settlements of the row's merchant. -/
def WithinMerchant (db : Db) : Prop :=
  ∀ l ∈ db.ledgerEntries, ∀ id, l.settlementId = some id →
    ∃ x ∈ db.settlements, x.id = id ∧ x.merchantId = l.merchantId

/-- The rows that are claimed in `w` are still there, as they were. -/
def KeepsClaims (w db : Db) : Prop :=
  ∀ l ∈ w.ledgerEntries, l.settlementId.isSome = true → l ∈ db.ledgerEntries

/-- What an open transaction has claimed is unclaimed outside of it. -/
def Held (db : Db) (w : Worker) : Prop := ∀ id ∈ w.claimed, Free db w id

/-- Open transactions have claimed different rows. -/
def ClaimsApart (a b : Worker) : Prop := ∀ id ∈ a.claimed, id ∉ b.claimed

theorem entry_locks {o : Worker} (ho : o ∈ others) (hid : id ∈ o.claimed) :
    (locks others).entry id = true :=
  List.any_eq_true.mpr ⟨o, ho, List.contains_iff_mem.mpr hid⟩

/-- The commit writes the claims of the transaction, to rows that were unclaimed. -/
theorem mem_ledger_commit (h : commitSettlement db tx = some db') {l : LedgerEntry}
    (hl : l ∈ db'.ledgerEntries) :
    (l ∈ db.ledgerEntries ∧ l.id ∉ tx.claimed) ∨
      ∃ l₀ ∈ db.ledgerEntries, l₀.id ∈ tx.claimed ∧ l = claim tx.settlement.id l₀ := by
  rw [(commitSettlement_some h).2] at hl
  obtain ⟨l₀, hl₀, rfl⟩ := (Table.mem_modify _).mp hl
  split
  · next hclaim => exact .inr ⟨l₀, hl₀, List.contains_iff_mem.mp hclaim, rfl⟩
  · next hclaim => exact .inl ⟨hl₀, fun hmem => hclaim (List.contains_iff_mem.mpr hmem)⟩

/-- A row outside of the claims stays as it is. -/
theorem mem_ledger_commit_of (h : commitSettlement db tx = some db') {l : LedgerEntry}
    (hl : l ∈ db.ledgerEntries) (hid : l.id ∉ tx.claimed) : l ∈ db'.ledgerEntries := by
  rw [(commitSettlement_some h).2]
  exact (Table.mem_modify _).mpr ⟨l, hl, if_neg fun hc => hid (List.contains_iff_mem.mp hc)⟩

/-- What a transaction has claimed, with its settlement. -/
theorem free_of_held (hheld : Held db (.statement (.running rowCount (.commit tx rest))))
    (hid : id ∈ tx.claimed) :
    ∃ l ∈ db.ledgerEntries, l.id = id ∧ l.merchantId = tx.settlement.merchantId ∧
      l.settlementId = none := by
  obtain ⟨l, hl, hlid, x, hx, hun⟩ := hheld id hid
  cases hx
  simp only [unclaimed, Bool.and_eq_true, beq_iff_eq, Option.isNone_iff_eq_none] at hun
  exact ⟨l, hl, hlid, hun.1, hun.2⟩

theorem withinMerchant_commit (h : commitSettlement db tx = some db')
    (hheld : Held db (.statement (.running rowCount (.commit tx rest))))
    (hdb : WithinMerchant db) : WithinMerchant db' := by
  have hmem := (commitSettlement_some h).1
  intro l hl id hid
  rcases mem_ledger_commit h hl with ⟨hl, -⟩ | ⟨l₀, hl₀, hclaim, rfl⟩
  · obtain ⟨x, hx, hxid, hmerchant⟩ := hdb l hl id hid
    exact ⟨x, (hmem x).mpr (.inl hx), hxid, hmerchant⟩
  · cases hid
    obtain ⟨l₁, hl₁, hlid, hmerchant, -⟩ := free_of_held hheld hclaim
    -- ids are unique
    rw [Table.eq_of_conflict hl₁ hl₀ hlid] at hmerchant
    exact ⟨tx.settlement, (hmem _).mpr (.inr rfl), rfl, hmerchant.symm⟩

theorem keepsClaims_commit {w : Db} (h : commitSettlement db tx = some db')
    (hheld : Held db (.statement (.running rowCount (.commit tx rest))))
    (hdb : KeepsClaims w db) : KeepsClaims w db' := by
  intro l hl hsome
  refine mem_ledger_commit_of h (hdb l hl hsome) fun hclaim => ?_
  obtain ⟨l₁, hl₁, hlid, -, hnone⟩ := free_of_held hheld hclaim
  rw [Table.eq_of_conflict hl₁ (hdb l hl hsome) hlid] at hnone
  rw [hnone] at hsome
  cases hsome

/-- The claims of the other transactions are not touched. -/
theorem held_commit {o : Worker} (h : commitSettlement db tx = some db') (ho : Held db o)
    (hdisjoint : ∀ id ∈ tx.claimed, id ∉ o.claimed) : Held db' o := by
  intro id hid
  obtain ⟨l, hl, hlid, hrest⟩ := ho id hid
  refine ⟨l, mem_ledger_commit_of h hl fun hclaim => hdisjoint id ?_ hid, hlid, hrest⟩
  rwa [← hlid]

theorem held_credit {e : Crediting} (h : Held db w) :
    Held (Reconciler.commitCredit db e.credit e.updated e.hooks) w := by
  intro id hid
  obtain ⟨l, hl, hrest⟩ := h id hid
  exact ⟨l, Reconciler.mem_ledger_commitCredit.mpr (.inl hl), hrest⟩

/-- **Every statement keeps the claims**, its own and those of others. -/
theorem claims_local (w₀ : Db) :
    program.Local .free (fun db => WithinMerchant db ∧ KeepsClaims w₀ db) Held ClaimsApart where
  symm a b h id hid hid' := h id hid' hid
  seq := by
    intro cs i db w db' w' hexec _ hdb hw _
    rcases execRow_cases hexec with ⟨rfl, hclaims⟩ | ⟨rowCount, tx, rest, rfl, hcommit, hnone⟩
    · refine ⟨hdb, fun id hid => ?_⟩
      obtain ⟨hx, hold | ⟨-, hfree⟩⟩ := hclaims id hid
      · unfold Free
        rw [hx]
        exact hw id hold
      · exact hfree
    · refine ⟨⟨withinMerchant_commit hcommit hw hdb.1, keepsClaims_commit hcommit hw hdb.2⟩, ?_⟩
      intro id hid
      rw [hnone] at hid
      cases hid
  free := by
    intro cs i db w db' w' hexec _ hdb hw o ho hheld hdisjoint
    rcases execRow_cases hexec with ⟨rfl, hclaims⟩ | ⟨rowCount, tx, rest, rfl, hcommit, hnone⟩
    · refine ⟨hheld, fun id hid hid' => ?_⟩
      obtain ⟨-, hold | ⟨hlock, -⟩⟩ := hclaims id hid
      · exact hdisjoint id hold hid'
      · rw [entry_locks ho hid'] at hlock
        cases hlock
    · refine ⟨held_commit hcommit hheld hdisjoint, fun id hid => ?_⟩
      rw [hnone] at hid
      cases hid
  env := by
    intro cs e db db' henv _ hdb hcs
    cases henv
    refine ⟨⟨fun l hl id hid => ?_, fun l hl hsome => ?_⟩, fun o ho => held_credit (hcs o ho)⟩
    · rcases Reconciler.mem_ledger_commitCredit.mp hl with hl | rfl
      · exact hdb.1 l hl id hid
      · cases hid
    · exact Reconciler.mem_ledger_commitCredit.mpr (.inl (hdb.2 l hl hsome))

/-- **Claims are write-once and stay within the merchant**: whatever calls and
reconcilers run side by side, and whichever of them roll back, from a state `s`
of a run to a later one `t` a claimed row stays as it is; in `t` every claim
refers to a settlement of the row's merchant, and what an open transaction has
claimed is neither claimed by a committed settlement nor by another transaction. -/
theorem claims_write_once {n : Nat} {w : Db} {s t : Program.Sys Db Worker n}
    {as bs : List (Program.Label Input Crediting n)} (hw : WithinMerchant w)
    (hs : (program.interleave n).run (idle w n) as = some s)
    (ht : (program.interleave n).run s bs = some t) :
    (∀ l ∈ s.db.ledgerEntries, l.settlementId.isSome = true → l ∈ t.db.ledgerEntries) ∧
    (∀ l ∈ t.db.ledgerEntries, ∀ id, l.settlementId = some id →
      ∃ x ∈ t.db.settlements, x.id = id ∧ x.merchantId = l.merchantId) ∧
    ∀ k, ∀ id ∈ (t.calls k).claimed,
      (∀ l ∈ t.db.ledgerEntries, l.id = id → l.settlementId = none) ∧
        ∀ j, j ≠ k → id ∉ (t.calls j).claimed := by
  have hidle : Program.Inv (fun db => WithinMerchant db ∧ KeepsClaims w db) Held ClaimsApart
      (idle w n) := ⟨⟨hw, fun l hl _ => hl⟩, fun _ => nofun, fun _ _ _ => nofun⟩
  have hinv := (claims_local w).inv_of_run hidle hs
  have hlast := (claims_local s.db).inv_of_run
    ⟨⟨hinv.db.1, fun l hl _ => hl⟩, hinv.calls, hinv.apart⟩ ht
  refine ⟨hlast.db.2, hlast.db.1, fun k id hid => ⟨fun l hl hlid => ?_, fun j hj hid' => ?_⟩⟩
  · obtain ⟨l', hl', hlid', x, -, hun⟩ := hlast.calls k id hid
    rw [Table.eq_of_conflict hl' hl (hlid'.trans hlid.symm)] at hun
    simp only [unclaimed, Bool.and_eq_true, Option.isNone_iff_eq_none] at hun
    exact hun.2
  · exact hlast.apart k j hj.symm id hid hid'

end Steps

/-! ## A run on the fixtures -/

/-- The next `k` statements of a worker: the query returns merchant 1, the `UPDATE`
visits row 1, and the settlement gets the id `id`. -/
def rowSteps (p : Fin 2) (id : Uuid) (k : Nat) : List (Program.Label Input Crediting 2) :=
  List.replicate k (.call p (.exec [ninePointFive] [1] id))

/-- Both workers find the row unclaimed; the first one takes it. -/
def bothScan : List (Program.Label Input Crediting 2) :=
  .call 0 .start :: .call 1 .start :: rowSteps 0 7 6 ++ rowSteps 1 8 6 ++ rowSteps 0 7 2

/-- It commits, and the second one finds the row claimed. -/
def firstCommits : List (Program.Label Input Crediting 2) :=
  rowSteps 0 7 1 ++ .env ⟨credit, true, []⟩ :: rowSteps 1 8 3

theorem claims_write_once_both_scan :
    ∃ s t, (program.interleave 2).run (idle oneRow 2) bothScan = some s ∧
      (program.interleave 2).run s firstCommits = some t ∧
      t.calls 0 = .statement (.returned 1) ∧ t.calls 1 = .statement (.returned 1) ∧
      ∀ l ∈ t.db.ledgerEntries, ∀ id, l.settlementId = some id →
        ∃ x ∈ t.db.settlements, x.id = id ∧ x.merchantId = l.merchantId := by
  obtain ⟨t, ht, h₀, h₁⟩ := (program.interleave 2).exists_of_leadsTo
    (fun t => t.calls 0 = .statement (.returned 1) ∧ t.calls 1 = .statement (.returned 1))
    (idle oneRow 2) (bothScan ++ firstCommits) (by decide +kernel)
  obtain ⟨s, hs, ht⟩ := (Lts.run_append _).mp ht
  have hwithin : WithinMerchant oneRow := fun l hl id hid => by
    rcases Reconciler.mem_ledger_commitCredit.mp hl with hl | rfl
    · cases hl
    · cases hid
  exact ⟨s, t, hs, ht, h₀, h₁, (claims_write_once hwithin hs ht).2.1⟩

end Stargate.Settlements
