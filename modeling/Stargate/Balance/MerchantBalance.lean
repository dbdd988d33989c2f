import Stargate.Base.DoubleSums
import Stargate.Base.Grouping
import Stargate.Settlement.ClaimedRows
import Stargate.Settlement.DeferredSettlements

/-!
# The balance of a merchant (`BalanceService.getMerchantBalance`)

What Horizon holds for the merchant, what is still to be settled, and the sum of both, added as
doubles.

- `getMerchantBalance`: the response;
- `credited`, `settled`: what the ledger has for a merchant, and what its settlements pay;
- `credited_eq_owed_add_claimed`: whatever calls of `createDailySettlements` run side by side,
  every ledger row is either pending or claimed by one settlement;
- `balance_of_run`: where nobody comes in between, the response shows what was credited and not
  settled, and the exact total.
-/

namespace Stargate.Balance

open Base Settlements

/-! ## The response -/

/-- A line of `account.balances`. -/
structure BalanceLine where
  assetType : String
  assetCode : Option String
  assetIssuer : Option String
  balance : String

/-- The configuration, and `horizonServer.loadAccount`: `none` where it throws. -/
structure Env where
  stellarAssetCode : Option String
  stellarAssetIssuer : Option String
  loadAccount : String → Option (List BalanceLine)

structure BalanceResponse where
  merchantId : Uuid
  onChainBalanceUsdc : String
  pendingSettlementBalanceUsdc : String
  totalBalanceUsdc : String
  deriving DecidableEq

/-- The line of the asset. -/
def isAsset (assetCode assetIssuer : String) (b : BalanceLine) : Bool :=
  if b.assetType == "credit_alphanum4" || b.assetType == "credit_alphanum12" then
    b.assetCode == some assetCode && b.assetIssuer == some assetIssuer
  else false

/-- What the `try` block gives; an error in it leaves '0'. -/
def onChainBalance (env : Env) (stellarAddress : Option String) : String :=
  match stellarAddress with
  | none => "0"
  | some address =>
    if address = "" then "0"
    else
      let assetBalance := do
        let balances ← env.loadAccount address
        let assetIssuer ← env.stellarAssetIssuer
        balances.find? (isAsset (env.stellarAssetCode.getD "USDC") assetIssuer)
      ((assetBalance.map BalanceLine.balance).filter (· ≠ "")).getD "0"

/-- `COALESCE(SUM(net_usdc)::NUMERIC(18,7), '0')`, as text. -/
def pendingBalance (db : Db) (merchantId : Uuid) : Option String :=
  if db.ledgerEntries.rows.any (unclaimed merchantId) then
    (Numeric.ofUnits? (owed db merchantId)).map Numeric.text
  else some "0"

/-- `getMerchantBalance(merchantId)`, with the message of its error. -/
def getMerchantBalance (env : Env) (db : Db) (merchantId : Uuid) :
    Except String BalanceResponse := do
  let some merchant := db.merchants.find? fun m => m.id == merchantId
    | throw "Merchant not found"
  let some pending := pendingBalance db merchantId
    | throw "numeric field overflow"
  let onChain := onChainBalance env merchant.stellarAddress
  let total := (JsNumber.parseFloat onChain.toList).add (JsNumber.parseFloat pending.toList)
  return {
    merchantId
    onChainBalanceUsdc := onChain
    pendingSettlementBalanceUsdc := pending
    totalBalanceUsdc := String.ofList total.toFixed7 }

/-! ## What the ledger says -/

/-- The net amounts of all ledger rows of a merchant. -/
def credited (db : Db) (merchantId : Uuid) : Int :=
  db.ledgerEntries.sumOf (fun l => l.merchantId == merchantId) net

/-- The settlements of a merchant. -/
def settlementsOf (db : Db) (merchantId : Uuid) : List Settlement :=
  db.settlements.rows.filter fun x => x.merchantId == merchantId

/-- What the settlements of a merchant pay. -/
def settled (db : Db) (merchantId : Uuid) : Int :=
  ((settlementsOf db merchantId).map fun x => x.amountUsdc.units).sum

/-- The net amounts of the rows that a settlement has claimed. -/
def claimedBy (db : Db) (x : Settlement) : Int :=
  db.ledgerEntries.sumOf (fun l => l.settlementId == some x.id) net

section Ledger

variable {db : Db} {merchantId : Uuid}

/-- A claimed row of a merchant is in the class of one settlement of the merchant. -/
theorem countP_settlementsOf (hwithin : WithinMerchant db) {l : LedgerEntry}
    (hl : l ∈ db.ledgerEntries) {id : Uuid} (hid : l.settlementId = some id) :
    (settlementsOf db merchantId).countP (fun x => l.settlementId == some x.id)
      = if l.merchantId == merchantId then 1 else 0 := by
  obtain ⟨x, hx, hxid, hmerchant⟩ := hwithin l hl id hid
  have honly : ∀ y ∈ db.settlements.rows, (l.settlementId == some y.id) = true → y = x := by
    intro y hy heq
    rw [hid, beq_iff_eq, Option.some.injEq] at heq
    exact Table.eq_of_conflict hy hx (heq.symm.trans hxid.symm)
  split
  · next hm =>
    have hmem : x ∈ settlementsOf db merchantId :=
      List.mem_filter.mpr ⟨hx, by rw [hmerchant]; exact hm⟩
    have hnodup : (settlementsOf db merchantId).Nodup :=
      (db.settlements.unique.imp fun hapart heq => hapart (congrArg Settlement.id heq)).filter _
    rw [← List.count_eq_one_of_mem hnodup hmem]
    refine List.countP_congr fun y hy => ⟨fun heq => ?_, fun heq => ?_⟩
    · exact beq_iff_eq.mpr (honly y (List.mem_filter.mp hy).1 heq)
    · rw [beq_iff_eq.mp heq, hxid, hid]
      exact beq_self_eq_true _
  · next hm =>
    refine List.countP_eq_zero.mpr fun y hy heq => hm ?_
    obtain ⟨hy, hym⟩ := List.mem_filter.mp hy
    rw [← hmerchant, ← honly y hy heq]
    exact hym

/-- **Every row is pending or claimed**, by one settlement of its merchant. -/
theorem credited_eq_of_within (hwithin : WithinMerchant db) :
    credited db merchantId
      = owed db merchantId + ((settlementsOf db merchantId).map (claimedBy db)).sum := by
  have h := @sum_classes _ db.ledgerEntries.rows net (fun l => l.merchantId == merchantId)
    (unclaimed merchantId ::
      (settlementsOf db merchantId).map fun x l => l.settlementId == some x.id) ?_
  · rw [List.map_cons, List.sum_cons, List.map_map] at h
    exact h.symm
  · intro l hl
    rw [List.countP_cons, List.countP_map]
    cases hid : l.settlementId with
    | none => simp [unclaimed, hid, Function.comp_def]
    | some id =>
      have hcount : (settlementsOf db merchantId).countP (fun x => some id == some x.id) = _ :=
        hid ▸ countP_settlementsOf hwithin hl hid
      simp only [Function.comp_def, hid, hcount, unclaimed]
      simp

theorem shows_pendingBalance {text : String} (h : pendingBalance db merchantId = some text) :
    Shows text.toList (owed db merchantId) := by
  unfold pendingBalance at h
  split at h
  · obtain ⟨amount, hamount, rfl⟩ := Option.map_eq_some_iff.mp h
    left
    rw [← Numeric.ofUnits?_eq_some.mp hamount, Numeric.text, Numeric.unitsText, signedText]
    split <;> rw [String.toList_ofList]
  · next hnone =>
    cases h
    have hfilter : db.ledgerEntries.rows.filter (unclaimed merchantId) = [] :=
      List.filter_eq_nil_iff.mpr fun l hl hun => hnone (List.any_eq_true.mpr ⟨l, hl, hun⟩)
    exact .inr ⟨rfl, by rw [owed, Table.sumOf, hfilter]; rfl⟩

/-- The total that is shown. -/
theorem total_of_ok {env : Env} {res : BalanceResponse} {onChain : Int}
    (hres : getMerchantBalance env db merchantId = .ok res)
    (hchain : Shows res.onChainBalanceUsdc.toList onChain)
    (hsize : |(onChain : ℚ) / 10 ^ 7| + |(owed db merchantId : ℚ) / 10 ^ 7| < 2 ^ 28 - 1) :
    Shows res.pendingSettlementBalanceUsdc.toList (owed db merchantId) ∧
      res.totalBalanceUsdc.toList = signedText (onChain + owed db merchantId) := by
  unfold getMerchantBalance at hres
  split at hres
  · next merchant _ =>
    split at hres
    · next pending hpending =>
      obtain rfl := Except.ok.inj hres
      have hshows := shows_pendingBalance hpending
      exact ⟨hshows, by rw [String.toList_ofList, toFixed7_add_of_shows hchain hshows hsize]⟩
    · cases hres
  · cases hres

end Ledger

/-! ## Runs -/

section Runs

variable {n : Nat} {w : Db} {merchantId : Uuid}

/-- **No row is lost between pending and settled, and none counts twice**: over every
interleaving of calls of `createDailySettlements`, row by row, with the reconciler. -/
theorem credited_eq_owed_add_claimed {t : Program.Sys Db Worker n}
    {as : List (Program.Label Settlements.Input Crediting n)} (hw : WithinMerchant w)
    (hrun : (program.interleave n).run (idle w n) as = some t) (merchantId : Uuid) :
    credited t.db merchantId
      = owed t.db merchantId + ((settlementsOf t.db merchantId).map (claimedBy t.db)).sum := by
  have hidle : Program.Inv (fun db => WithinMerchant db ∧ KeepsClaims w db) Held ClaimsApart
      (idle w n) := ⟨⟨hw, fun l hl _ => hl⟩, fun _ => nofun, fun _ _ _ => nofun⟩
  exact credited_eq_of_within ((claims_local w).inv_of_run hidle hrun).db.1

theorem held_of_claims {db : Db} {tx : Tx} {rowCount : Nat} {rest : List MerchantRow}
    (h : Claims db tx) : Held db (.statement (.running rowCount (.commit tx rest))) := by
  intro id hid
  obtain ⟨l, hl, hlid, hun⟩ := h.rows id hid
  exact ⟨l, hl, hlid, tx.settlement, rfl, hun⟩

theorem withinMerchant_credit {db : Db} {c : Reconciler.Credit} {updated : Bool}
    {hooks : List Uuid} (h : WithinMerchant db) :
    WithinMerchant (Reconciler.commitCredit db c updated hooks) := by
  intro l hl id hid
  rcases Reconciler.mem_ledger_commitCredit.mp hl with hl | rfl
  · exact h l hl id hid
  · cases hid

/-- The claims of a step stay within the merchant. -/
theorem withinMerchant_step {s s' : Settlements.Sys n} {a : Settlements.Label n}
    (hinv : Settlements.Inv w s) (h : WithinMerchant s.db)
    (hstep : (system n).step s a = some s') : WithinMerchant s'.db := by
  cases a with
  | start k =>
    simp only [system] at hstep
    split at hstep
    · cases hstep
    · cases hstep
      exact h
  | exec k rows id =>
    simp only [system] at hstep
    split at hstep
    · next rowCount pc hk =>
      obtain ⟨⟨db, call⟩, hexec, hs'⟩ := Option.map_eq_some_iff.mp hstep
      cases hs'
      have hpc := hinv.calls k rowCount pc hk
      by_cases hcommit : ∃ tx rest, pc = .commit tx rest
      · obtain ⟨tx, rest, rfl⟩ := hcommit
        obtain ⟨db, hdb, hcall⟩ := Option.map_eq_some_iff.mp hexec
        cases hcall
        have hheld : Held s.db (.statement (.running rowCount (.commit tx rest))) :=
          held_of_claims (hpc.claims tx rest rfl)
        exact withinMerchant_commit hdb hheld h
      · obtain ⟨rfl, -⟩ := exec_ok hpc (fun tx rest heq => hcommit ⟨tx, rest, heq⟩) hexec
        exact h
    · cases hstep
  | abort k =>
    simp only [system] at hstep
    split at hstep
    · cases hstep
      exact h
    · cases hstep
  | credit c updated hooks =>
    cases hstep
    exact withinMerchant_credit h

/-- The books of every undisturbed run. -/
theorem owed_of_run {s : Settlements.Sys n} {as : List (Settlements.Label n)}
    (hwithin : WithinMerchant w) (hpays : ∀ x ∈ w.settlements, Pays w x)
    (hguard : (system n).Guarded (fun s a => undisturbed s a = true) { db := w } as)
    (hrun : (system n).run { db := w } as = some s) :
    owed s.db merchantId = credited s.db merchantId - settled s.db merchantId := by
  have hkey : SettlementKey w := fun l hl id hid => by
    obtain ⟨x, hx, hxid, -⟩ := hwithin l hl id hid
    exact ⟨x, hx, hxid⟩
  -- no settlement of `w` is exempt
  have hinit : Settlements.Inv (n := n) {} { db := w } :=
    ⟨nofun, fun _ _ _ => .of_none rfl rfl, hkey, fun x hx => .inr (hpays x hx)⟩
  obtain ⟨hinv, hdb⟩ := (system n).inv_of_guarded_run
    (I := fun s => Settlements.Inv {} s ∧ WithinMerchant s.db)
    (fun s a s' h hok hstep => ⟨inv_step h.1 hok hstep, withinMerchant_step h.1 h.2 hstep⟩)
    ⟨hinit, hwithin⟩ hguard hrun
  have hsame : (settlementsOf s.db merchantId).map (claimedBy s.db)
      = (settlementsOf s.db merchantId).map fun x => x.amountUsdc.units :=
    List.map_congr_left fun x hx =>
      ((hinv.paid x (List.mem_filter.mp hx).1).resolve_left (fun hold => nomatch hold)).symm
  rw [credited_eq_of_within hdb, hsame, settled]
  omega

/-- **What the response shows**: in every run without such a disturbance, the pending balance is
what was credited and not settled, and the total is exact below `2²⁸ - 1`. -/
theorem balance_of_run {s : Settlements.Sys n} {as : List (Settlements.Label n)}
    (hwithin : WithinMerchant w) (hpays : ∀ x ∈ w.settlements, Pays w x)
    (hguard : (system n).Guarded (fun s a => undisturbed s a = true) { db := w } as)
    (hrun : (system n).run { db := w } as = some s) {env : Env} {res : BalanceResponse}
    {onChain : Int} (hres : getMerchantBalance env s.db merchantId = .ok res)
    (hchain : Shows res.onChainBalanceUsdc.toList onChain)
    (hsize : |(onChain : ℚ) / 10 ^ 7|
      + |((credited s.db merchantId - settled s.db merchantId : Int) : ℚ) / 10 ^ 7| < 2 ^ 28 - 1) :
    Shows res.pendingSettlementBalanceUsdc.toList
      (credited s.db merchantId - settled s.db merchantId) ∧
    res.totalBalanceUsdc.toList
      = signedText (onChain + (credited s.db merchantId - settled s.db merchantId)) := by
  rw [← owed_of_run hwithin hpays hguard hrun] at hsize ⊢
  exact total_of_ok hres hchain hsize

end Runs

/-! ## A shop with 100 USDC on its account -/

theorem withinMerchant_oneRow : WithinMerchant oneRow :=
  withinMerchant_credit fun _ hl => nomatch hl

/-- Both workers, row by row, after a first credit of 9.5 USDC. -/
theorem credited_eq_owed_add_claimed_both_scan :
    ∃ t, (program.interleave 2).run (idle oneRow 2) (bothScan ++ firstCommits) = some t ∧
      t.calls 0 = .statement (.returned 1) ∧
      credited t.db 1 = owed t.db 1 + ((settlementsOf t.db 1).map (claimedBy t.db)).sum := by
  obtain ⟨t, hrun, hreturned⟩ := (program.interleave 2).exists_of_leadsTo
    (fun t => t.calls 0 = .statement (.returned 1)) (idle oneRow 2) (bothScan ++ firstCommits)
    (by decide +kernel)
  exact ⟨t, hrun, hreturned, credited_eq_owed_add_claimed withinMerchant_oneRow hrun 1⟩

def shop : Db := { oneRow with
  merchants := ⟨[{ deferredMerchant with
    settlementScheduledAt := none, stellarAddress := some "GSHOP" }],
    List.pairwise_singleton _ _⟩ }

def shopEnv : Env where
  stellarAssetCode := none
  stellarAssetIssuer := some "GISSUER"
  loadAccount _ := some [⟨"native", none, none, "3.0000000"⟩,
    ⟨"credit_alphanum4", some "USDC", some "GISSUER", "100.0000000"⟩]

/-- Of 19 USDC that were credited, 9.5 are settled. -/
theorem balance_of_run_inTurn :
    ∃ s res, (system 2).run { db := shop } inTurn = some s ∧
      getMerchantBalance shopEnv s.db 1 = .ok res ∧
      Shows res.pendingSettlementBalanceUsdc.toList 95000000 ∧
      res.totalBalanceUsdc.toList = signedText 1095000000 := by
  obtain ⟨s, hrun, hcredited, hsettled, hres⟩ := (system 2).exists_of_leadsTo
    (fun s => credited s.db 1 = 190000000 ∧ settled s.db 1 = 95000000 ∧
      (getMerchantBalance shopEnv s.db 1).toOption
        = some ⟨1, "100.0000000", "9.5000000", "109.5000000"⟩) { db := shop } inTurn
    (by decide +kernel)
  obtain ⟨res, hok⟩ : ∃ res, getMerchantBalance shopEnv s.db 1 = .ok res := by
    cases h : getMerchantBalance shopEnv s.db 1 with
    | error message => rw [h] at hres; cases hres
    | ok res => exact ⟨res, rfl⟩
  rw [hok] at hres
  have hchain : Shows res.onChainBalanceUsdc.toList 1000000000 := by
    rw [Option.some.inj hres]
    exact .inl (by decide +kernel)
  have hwithin : WithinMerchant shop := withinMerchant_oneRow
  have hguard : (system 2).Guarded (fun s a => undisturbed s a = true) { db := shop } inTurn := by
    decide +kernel
  have h := balance_of_run hwithin nofun hguard hrun hok hchain (by
    rw [hcredited, hsettled]
    norm_num)
  rw [hcredited, hsettled] at h
  exact ⟨s, res, hrun, hok, h⟩

end Stargate.Balance
