import Mathlib.Data.List.Dedup
import Stargate.Base.Transition
import Stargate.Reconciler.Processor

/-!
# `SettlementService.createDailySettlements`

One query reads the sum of the unclaimed ledger rows of every merchant. For each
merchant in turn, a transaction then checks for a pending settlement, inserts a
settlement over the sum that was read, and claims the rows that are unclaimed by
then.

`Pc` names the statement a call is about to run and `exec` runs it on the
committed rows; what an open transaction has written stays in its `Pc` until the
`COMMIT`. `system` interleaves any number of calls with ledger transactions of
the reconciler.
-/

namespace Stargate.Settlements

open Base

/-- A row of the first query. -/
structure MerchantRow where
  merchantId : Uuid
  amount : Numeric
  deriving DecidableEq

/-- `merchant_id=$1 AND settlement_id IS NULL`. -/
def unclaimed (merchantId : Uuid) (l : LedgerEntry) : Bool :=
  l.merchantId == merchantId && l.settlementId.isNone

/-- The summed column, in units. -/
def net (l : LedgerEntry) : Int := l.netUsdc.units

/-- `SUM(net_usdc)` over the unclaimed rows of a merchant. -/
def owed (db : Db) (merchantId : Uuid) : Int := db.ledgerEntries.sumOf (unclaimed merchantId) net

/-- The groups of the first query. -/
def groups (db : Db) : List Uuid :=
  ((db.ledgerEntries.rows.filter fun l => l.settlementId.isNone).map LedgerEntry.merchantId).dedup

/-- The first query, up to the order of its rows. It fails if a sum does not fit
`NUMERIC(18,7)`. -/
def selectMerchants (db : Db) : Option (List MerchantRow) :=
  if (groups db).all fun m => (Numeric.ofUnits? (owed db m)).isSome then
    some <| (groups db).filterMap fun m =>
      ((Numeric.ofUnits? (owed db m)).map (MerchantRow.mk m)).filter fun row =>
        -- HAVING SUM(net_usdc)::NUMERIC(18,7) >= 1.00
        10 ^ 7 ≤ row.amount.units
  else none

/-- Is there a row in `SELECT id FROM settlements WHERE merchant_id=$1 AND
status='pending'`? -/
def hasPending (db : Db) (merchantId : Uuid) : Bool :=
  db.settlements.rows.any fun x => x.merchantId == merchantId && x.status == .pending

/-- `settlement_scheduled_at IS NOT NULL`. -/
def scheduled (db : Db) (merchantId : Uuid) : Bool :=
  db.merchants.rows.any fun m => m.id == merchantId && m.settlementScheduledAt.isSome

/-- What a transaction has written when it commits. -/
structure Tx where
  settlement : Settlement
  /-- The schedule of the merchant is cleared. -/
  cleared : Bool
  /-- The ledger rows that the settlement claims. -/
  claimed : List Nat
  deriving DecidableEq

def clearSchedule (m : Merchant) : Merchant := { m with settlementScheduledAt := none }

theorem key_clearSchedule (m : Merchant) : Keyed.key (clearSchedule m) = Keyed.key m := rfl

def claim (settlementId : Uuid) (l : LedgerEntry) : LedgerEntry :=
  { l with settlementId := some settlementId }

theorem key_claim (settlementId : Uuid) (l : LedgerEntry) :
    Keyed.key (claim settlementId l) = Keyed.key l := rfl

/-- The writes of a transaction become visible. -/
def commitSettlement (db : Db) (tx : Tx) : Option Db :=
  (db.settlements.insert? tx.settlement).map fun settlements =>
    { db with
      settlements
      merchants :=
        if tx.cleared then
          db.merchants.modify (fun m => m.id == tx.settlement.merchantId) clearSchedule
            key_clearSchedule
        else db.merchants
      ledgerEntries :=
        db.ledgerEntries.modify (fun l => tx.claimed.contains l.id) (claim tx.settlement.id)
          (key_claim tx.settlement.id) }

/-! ## Statements -/

/-- The statement that a call is about to run; `rest` are the merchants after the
current one. -/
inductive Pc where
  | selectMerchants
  | begin (merchant : MerchantRow) (rest : List MerchantRow)
  | selectPending (merchant : MerchantRow) (rest : List MerchantRow)
  /-- `COMMIT` where a pending settlement exists. -/
  | commitExisting (rest : List MerchantRow)
  | insertSettlement (merchant : MerchantRow) (rest : List MerchantRow)
  | clearSchedule (settlement : Settlement) (rest : List MerchantRow)
  | claimEntries (settlement : Settlement) (cleared : Bool) (rest : List MerchantRow)
  | commit (tx : Tx) (rest : List MerchantRow)
  deriving DecidableEq

/-- A call of `createDailySettlements`. -/
inductive Call where
  | idle
  /-- `rowCount` is `merchants.rowCount`. -/
  | running (rowCount : Nat) (pc : Pc)
  | returned (rowCount : Nat)
  | threw
  deriving DecidableEq

/-- The loop head. -/
def nextMerchant (rowCount : Nat) : List MerchantRow → Call
  | [] => .returned rowCount
  | merchant :: rest => .running rowCount (.begin merchant rest)

/-- What other open transactions hold. -/
structure Locks where
  /-- Ledger rows. -/
  entry : Nat → Bool
  /-- Rows of merchants. -/
  merchant : Uuid → Bool
  /-- Ids of settlements that are not committed yet. -/
  settlement : Uuid → Bool

/-- Run one statement. `rows` is the order in which the first query returns its
rows and `id` the random id of an inserted settlement. `none` means that the
statement waits for a lock, or that `rows` is not what the query can return. -/
def exec (locks : Locks) (rows : List MerchantRow) (id : Uuid) (db : Db) (rowCount : Nat) :
    Pc → Option (Db × Call)
  | .selectMerchants =>
    match selectMerchants db with
    | some merchants =>
      if rows.Perm merchants then some (db, nextMerchant rows.length rows) else none
    | none => some (db, .threw)
  | .begin merchant rest => some (db, .running rowCount (.selectPending merchant rest))
  | .selectPending merchant rest =>
    if hasPending db merchant.merchantId then
      some (db, .running rowCount (.commitExisting rest))
    else some (db, .running rowCount (.insertSettlement merchant rest))
  | .commitExisting rest => some (db, nextMerchant rowCount rest)
  | .insertSettlement merchant rest =>
    if locks.settlement id then none
    else if db.settlements.rows.any fun x => x.id == id then some (db, .threw)
    else
      let settlement := ⟨id, merchant.merchantId, merchant.amount, .pending⟩
      some (db, .running rowCount (.clearSchedule settlement rest))
  | .clearSchedule settlement rest =>
    if scheduled db settlement.merchantId then
      if locks.merchant settlement.merchantId then none
      else some (db, .running rowCount (.claimEntries settlement true rest))
    else some (db, .running rowCount (.claimEntries settlement false rest))
  | .claimEntries settlement cleared rest =>
    let claimed := (db.ledgerEntries.rows.filter (unclaimed settlement.merchantId)).map
      LedgerEntry.id
    if claimed.any locks.entry then none
    else some (db, .running rowCount (.commit ⟨settlement, cleared, claimed⟩ rest))
  | .commit tx rest => (commitSettlement db tx).map fun db => (db, nextMerchant rowCount rest)

/-! ## Interleavings -/

/-- The settlement that a transaction has inserted. -/
def Pc.settlement : Pc → Option Settlement
  | .clearSchedule settlement _ | .claimEntries settlement _ _ => some settlement
  | .commit tx _ => some tx.settlement
  | _ => none

/-- The merchant row that a transaction has locked. -/
def Pc.clears : Pc → Option Uuid
  | .claimEntries settlement true _ => some settlement.merchantId
  | .commit tx _ => if tx.cleared then some tx.settlement.merchantId else none
  | _ => none

/-- The ledger rows that a transaction has claimed. -/
def Pc.claimed : Pc → List Nat
  | .commit tx _ => tx.claimed
  | _ => []

def Call.settlement : Call → Option Settlement
  | .running _ pc => pc.settlement
  | _ => none

def Call.clears : Call → Option Uuid
  | .running _ pc => pc.clears
  | _ => none

def Call.claimed : Call → List Nat
  | .running _ pc => pc.claimed
  | _ => []

structure Sys (n : Nat) where
  db : Db
  calls : Fin n → Call := fun _ => .idle

/-- What may happen next. -/
inductive Label (n : Nat) where
  /-- A worker calls `createDailySettlements`. -/
  | start (k : Fin n)
  | exec (k : Fin n) (rows : List MerchantRow) (id : Uuid)
  /-- A statement fails, or the process crashes: its transaction is rolled back. -/
  | abort (k : Fin n)
  /-- The reconciler commits a ledger transaction. -/
  | credit (c : Reconciler.Credit) (updated : Bool) (hooks : List Uuid)

section System

variable {n : Nat}

/-- The locks of the transactions of other calls. -/
def Sys.locksFor (s : Sys n) (k : Fin n) : Locks where
  entry id := decide (∃ j, j ≠ k ∧ id ∈ (s.calls j).claimed)
  merchant id := decide (∃ j, j ≠ k ∧ (s.calls j).clears = some id)
  settlement id := decide (∃ j, j ≠ k ∧ (s.calls j).settlement.map Settlement.id = some id)

/-- The interleavings of `n` workers and the reconciler. -/
def system (n : Nat) : Lts (Sys n) (Label n) where
  step s
    | .start k =>
      match s.calls k with
      | .running _ _ => none
      | _ => some { s with calls := Function.update s.calls k (.running 0 .selectMerchants) }
    | .exec k rows id =>
      match s.calls k with
      | .running rowCount pc =>
        (exec (s.locksFor k) rows id s.db rowCount pc).map fun (db, call) =>
          { db, calls := Function.update s.calls k call }
      | _ => none
    | .abort k =>
      match s.calls k with
      | .running _ _ => some { s with calls := Function.update s.calls k .threw }
      | _ => none
    | .credit c updated hooks => some { s with db := Reconciler.commitCredit s.db c updated hooks }

end System

end Stargate.Settlements
