import Mathlib.Algebra.Order.BigOperators.Group.List
import Stargate.Idempotency.InvoiceKeys
import Stargate.Invoices.SpendLimits

/-!
# Spend limits over runs

`enforceSpendLimits` compares the stored total and the amount of the request. What is stored
later is `gross_usdc_equiv`, which has the fee of an invoice in USDC as well, and other calls may
have passed the check before, with rows that are not in the table yet.

- `Call.admitted`: what a call has passed the check with, and not made visible yet;
- `leavesRoom`: a check that passes has room for that of all calls, and for its own amount with
  the fee;
- `stays_within`: then the total never exceeds the limit;
- `fee_exceeds`: otherwise it does, for one call already.
-/

namespace Stargate.CreateCalls

open Base Invoices

/-! ## The two limits -/

inductive Period where
  | day | month
  deriving DecidableEq

/-- The limit of a merchant for a period. -/
def Period.limit : Period → Merchant → Option Numeric
  | .day, m => m.dailySpendLimitUsdc
  | .month, m => m.monthlySpendLimitUsdc

/-- `date_trunc`. -/
def Period.start (env : CreateEnv) : Period → Timestamp → Timestamp
  | .day => env.startOfDay
  | .month => env.startOfMonth

/-! ## What calls have been admitted for -/

/-- What an amount takes of a limit. A negative one gives nothing back. -/
def taken (equiv : Option Numeric) : Int := (equiv.map fun e => max 0 e.units).getD 0

/-- The `gross_usdc_equiv` that a request leads to, if it does. -/
def Priced.equiv? (p : Priced) : Option Numeric :=
  if p.dto.currency = .usdc then
    match toUnits p.dto.amount, calculateFee p.usdcEquiv p.merchant with
    | .ok amount, .ok fee => Numeric.ofText? (fromUnits (amount + fee))
    | _, _ => none
  else Numeric.ofText? p.usdcEquivStr

section Admitted

variable (k : Period) (merchantId : Uuid)

/-- What the statements from the check on are about to store. -/
def Pc.admitted : Pc → Int
  | .sumMonth p _ => if k = .day ∧ p.merchant.id = merchantId then taken p.equiv? else 0
  | .getRate p _ => if p.merchant.id = merchantId then taken p.equiv? else 0
  | .selectBase q _ => if q.merchant.id = merchantId then taken (grossUsdcEquiv? q) else 0
  | .countMerchants q _ => if q.merchant.id = merchantId then taken (grossUsdcEquiv? q) else 0
  | .updateBase q _ _ => if q.merchant.id = merchantId then taken (grossUsdcEquiv? q) else 0
  | .nextSequence q _ _ => if q.merchant.id = merchantId then taken (grossUsdcEquiv? q) else 0
  | _ => 0

/-- What rows of the merchant take. -/
def rowsTaken (rows : List Invoice) : Int :=
  (rows.map fun r => if r.merchantId = merchantId then max 0 r.grossUsdcEquiv.units else 0).sum

/-- What a call has passed the check with, and not made visible yet. -/
def Call.admitted (c : Call) : Int :=
  rowsTaken merchantId c.pending +
    match c with
    | .running _ _ pc => pc.admitted k merchantId
    | .inserting _ _ q _ _ => if q.merchant.id = merchantId then taken (grossUsdcEquiv? q) else 0
    | _ => 0

/-- The request that a call is about to check. -/
def Call.checking : Call → Option Priced
  | .running _ _ (.sumDay p) => if k = .day ∧ p.merchant.id = merchantId then some p else none
  | .running _ _ (.sumMonth p _) => if k = .month ∧ p.merchant.id = merchantId then some p else none
  | _ => none

/-! ## The condition -/

/-- The check refuses the amount, as it does whenever the total is zero; or the limit has room for
the total, all that calls have been admitted for, and the amount with its fee. -/
def roomFor (env : CreateEnv) (l : Numeric) (now : Timestamp) (w : World) (calls : List Call)
    (p : Priced) : Bool :=
  let total := total w.db merchantId (k.start env now)
  total == 0 || l.units < total + p.usdcEquiv ||
    total + (calls.map (Call.admitted k merchantId)).sum + taken p.equiv? ≤ l.units

/-- The invoices that a request cancels. -/
def Request.cancels (db : Db) : Request → Invoice → Bool
  | .cancel merchantId id, i => i.status.active && isCancelled merchantId id i
  | .autoCancelUnpaidInvoices now, i => i.status.active && isUnpaid db now i
  | _, _ => false

/-- Does the check that a statement is about to make leave room? -/
def checkLeavesRoom (env : CreateEnv) (l : Numeric) (others : List Call) (i : Input) (w : World)
    (c : Call) : Bool :=
  match i, c.checking k merchantId with
  | .exec now _, some p => roomFor k merchantId env l now w (c :: others) p
  | _, _ => true

/-- Every check that passes leaves room, and no negative amount is cancelled. -/
def leavesRoom (env : CreateEnv) (l : Numeric) : Program.Guard World Call Input Request where
  call others i w c := checkLeavesRoom k merchantId env l others i w c = true
  env _ r w := ∀ i ∈ w.db.invoices.rows, i.merchantId = merchantId → r.cancels w.db i = true →
    0 ≤ i.grossUsdcEquiv.units

instance decidableLeavesRoom (env : CreateEnv) (l : Numeric) :
    ∀ cs i w c, Decidable ((leavesRoom k merchantId env l).call cs i w c) :=
  fun cs i w c => inferInstanceAs (Decidable (checkLeavesRoom k merchantId env l cs i w c = true))

instance decidableLeavesRoomEnv (env : CreateEnv) (l : Numeric) :
    ∀ cs r w, Decidable ((leavesRoom k merchantId env l).env cs r w) :=
  fun _ r w => inferInstanceAs (Decidable (∀ i ∈ w.db.invoices.rows, i.merchantId = merchantId →
    r.cancels w.db i = true → 0 ≤ i.grossUsdcEquiv.units))

end Admitted

/-! ## Totals -/

section Totals

variable {merchantId : Uuid} {since : Timestamp} {db db' : Db} {rows : List Invoice}

/-- What a row adds to the total. -/
def contribution (merchantId : Uuid) (since : Timestamp) (i : Invoice) : Int :=
  if i.merchantId == merchantId && decide (since ≤ i.createdAt) && i.status != .cancelled then
    i.grossUsdcEquiv.units
  else 0

theorem total_eq (db : Db) :
    total db merchantId since = (db.invoices.rows.map (contribution merchantId since)).sum := by
  unfold total spent
  induction db.invoices.rows with
  | nil => rfl
  | cons i rows ih =>
    rw [List.map_cons, List.sum_cons, ← ih, List.filter_cons, contribution]
    split
    · rw [List.map_cons, List.sum_cons]
    · rw [Int.zero_add]

theorem contribution_le (i : Invoice) :
    contribution merchantId since i ≤
      if i.merchantId = merchantId then max 0 i.grossUsdcEquiv.units else 0 := by
  unfold contribution
  by_cases hid : i.merchantId = merchantId
  · rw [if_pos hid]
    split
    · exact le_max_right _ _
    · exact le_max_left _ _
  · rw [if_neg hid, if_neg]
    simp [hid]

theorem rowsTaken_nonneg (rows : List Invoice) : 0 ≤ rowsTaken merchantId rows := by
  refine List.sum_nonneg fun x hx => ?_
  obtain ⟨i, -, rfl⟩ := List.mem_map.mp hx
  split
  · exact le_max_left _ _
  · exact le_rfl

theorem rowsTaken_append (rows rows' : List Invoice) :
    rowsTaken merchantId (rows ++ rows') =
      rowsTaken merchantId rows + rowsTaken merchantId rows' := by
  rw [rowsTaken, List.map_append, List.sum_append, rowsTaken, rowsTaken]

/-- Rows that become visible add no more than they take. -/
theorem total_append_le (h : db'.invoices.rows = db.invoices.rows ++ rows) :
    total db' merchantId since ≤ total db merchantId since + rowsTaken merchantId rows := by
  rw [total_eq, total_eq, h, List.map_append, List.sum_append]
  exact Int.add_le_add_left (List.sum_le_sum fun i _ => contribution_le i) _

theorem not_cancelled_of_active {status : InvoiceStatus} (h : status.active = true) :
    (status != .cancelled) = true := by
  cases status with
  | pending => rfl
  | partiallyPaid => rfl
  | _ => cases h

/-- A cancellation of amounts that are not negative does not add to the total, and other changes
of status leave it alone. -/
theorem total_setStatus_le {p : Invoice → Bool} {status : InvoiceStatus}
    (h : status = .cancelled → ∀ i ∈ db.invoices.rows, i.merchantId = merchantId →
      (i.status.active && p i) = true → 0 ≤ i.grossUsdcEquiv.units) :
    total (setStatus db p status) merchantId since ≤ total db merchantId since := by
  rw [total_eq, total_eq, setStatus, Table.modify, List.map_map]
  refine List.sum_le_sum fun i hi => ?_
  rw [Function.comp_apply]
  split
  · next hp =>
    have hactive := not_cancelled_of_active (Bool.and_eq_true_iff.mp hp).1
    by_cases hcancel : status = .cancelled
    · rw [contribution, if_neg (by simp [hcancel]), contribution]
      split
      · next hcounts =>
        simp only [Bool.and_eq_true, beq_iff_eq] at hcounts
        exact h hcancel i hi hcounts.1.1 hp
      · exact le_rfl
    · simp only [contribution, hactive, bne_iff_ne.mpr hcancel]
      exact le_rfl
  · exact le_rfl

theorem taken_nonneg (equiv : Option Numeric) : 0 ≤ taken equiv := by
  cases equiv with
  | none => exact le_rfl
  | some e => exact le_max_left _ _

/-- A check that passes has read a total that is not zero, and as no less than it is. -/
theorem within_of_readLimit {l : Numeric} {usdcAmount : Int} {message : String}
    {read : Option Int} (hl : 0 ≤ l.units)
    (h : readLimit db merchantId (some l) since usdcAmount message = .ok read) :
    total db merchantId since ≠ 0 ∧ total db merchantId since + usdcAmount ≤ l.units := by
  simp only [readLimit] at h
  obtain ⟨sum, hsum, h⟩ := bind_eq_ok.mp h
  obtain ⟨bound, hbound, h⟩ := bind_eq_ok.mp h
  have hbound : bound = l.units := by
    rw [Numeric.toUnits_text hl] at hbound
    split at hbound
    · cases hbound
    · cases hbound
      rfl
  -- a sum between -1 and 0 loses its sign, and is read as more than it is
  have hsum : total db merchantId since ≠ 0 ∧ total db merchantId since ≤ sum := by
    rw [spentText_eq, toUnits_sumText] at hsum
    split at hsum
    · next hpos =>
      cases hsum
      exact ⟨hpos.ne', le_rfl⟩
    · split at hsum
      · next hneg =>
        cases hsum
        exact ⟨hneg.2.ne, le_trans hneg.2.le (Int.neg_nonneg_of_nonpos hneg.2.le)⟩
      · cases hsum
  split at h
  · cases h
  · next hle => exact ⟨hsum.1, by omega⟩

end Totals

/-! ## What calls are admitted for -/

section Calls

variable {env : CreateEnv} {k : Period} {merchantId : Uuid} {l : Numeric} {since : Timestamp}
  {others : List Call} {i : Input} {w w' : World} {c c' : Call} {args : Args} {tx : Option Tx}

/-- The rows that a transaction has inserted, where there is one. -/
def pendingRows (tx : Option Tx) : List Invoice :=
  tx.elim [] fun tx => tx.rows.map Prod.snd

theorem admitted_running (args : Args) (tx : Option Tx) (pc : Pc) :
    (Call.running args tx pc).admitted k merchantId =
      rowsTaken merchantId (pendingRows tx) + pc.admitted k merchantId := by
  cases tx with
  | none => rfl
  | some tx => rfl

theorem admitted_inserting (args : Args) (tx : Option Tx) (q : Quote) (check : Checked)
    (muxedId : Int) :
    (Call.inserting args tx q check muxedId).admitted k merchantId =
      rowsTaken merchantId (pendingRows tx) +
        if q.merchant.id = merchantId then taken (grossUsdcEquiv? q) else 0 := by
  cases tx with
  | none => rfl
  | some tx => rfl

theorem Pc.admitted_nonneg (pc : Pc) : 0 ≤ pc.admitted k merchantId := by
  unfold Pc.admitted
  split
  case h_7 => exact le_rfl
  all_goals
    split
    · exact taken_nonneg _
    · exact le_rfl

theorem admitted_nonneg (c : Call) : 0 ≤ c.admitted k merchantId := by
  unfold Call.admitted
  refine Int.add_nonneg (rowsTaken_nonneg _) ?_
  split
  · exact Pc.admitted_nonneg _
  · split
    · exact taken_nonneg _
    · exact le_rfl
  · exact le_rfl

theorem admitted_entered (h : Entered args tx c) :
    c.admitted k merchantId ≤ rowsTaken merchantId (pendingRows tx) := by
  cases h with
  | keyed _ =>
    rw [admitted_running]
    exact (Int.add_zero _).le
  | plain _ _ =>
    rw [admitted_running]
    exact (Int.add_zero _).le
  | threw => exact rowsTaken_nonneg _

/-- Between two inputs, the rows are all that a transaction holds. -/
theorem admitted_nextInput (id : Uuid) (tx : Tx) :
    (nextInput id tx).admitted k merchantId ≤ rowsTaken merchantId (tx.rows.map Prod.snd) :=
  nextInput_of (P := fun c => c.admitted k merchantId ≤ rowsTaken merchantId (tx.rows.map Prod.snd))
    id tx (Int.add_zero _).le fun _ _ _ => admitted_entered

theorem admitted_finish (args : Args) (tx : Option Tx) (response : Response) :
    (finish args tx response).admitted k merchantId ≤ rowsTaken merchantId (pendingRows tx) := by
  cases tx with
  | none => exact le_rfl
  | some tx => exact admitted_nextInput _ _

/-! ## The merchant -/

/-- The merchant is registered, with the limit. -/
structure Limited (k : Period) (merchantId : Uuid) (l : Numeric) (db : Db) : Prop where
  registered : ∃ m ∈ db.merchants, m.id = merchantId
  limit : ∀ m ∈ db.merchants, m.id = merchantId → k.limit m = some l

theorem Limited.of_map {db db' : Db} (h : Limited k merchantId l db) {f : Merchant → Merchant}
    (hrows : db'.merchants.rows = db.merchants.rows.map f)
    (hf : ∀ m, (f m).id = m.id ∧ k.limit (f m) = k.limit m) : Limited k merchantId l db' := by
  obtain ⟨m, hm, hid⟩ := h.registered
  refine ⟨⟨f m, ?_, (hf m).1.trans hid⟩, fun m' hm' hid' => ?_⟩
  · rw [← Table.mem_rows, hrows]
    exact List.mem_map_of_mem hm
  · rw [← Table.mem_rows, hrows] at hm'
    obtain ⟨m, hm, rfl⟩ := List.mem_map.mp hm'
    rw [(hf m).2]
    exact h.limit m hm ((hf m).1.symm.trans hid')

theorem limited_moves (h : Moves env others i w c w' c') (hl : Limited k merchantId l w.db) :
    Limited k merchantId l w'.db := by
  obtain ⟨f, hrows, hf⟩ := merchants_moves h
  refine hl.of_map hrows fun m => ?_
  obtain ⟨base, seq, heq⟩ := hf m
  rw [heq]
  exact ⟨rfl, by cases k <;> rfl⟩

/-- Nobody else registers with the id of the merchant. -/
theorem limited_request {r : Request} {db db' : Db} (h : r.exec db = some db')
    (hl : Limited k merchantId l db) : Limited k merchantId l db' := by
  cases r with
  | register id name createdAt =>
    obtain ⟨merchants, hins, rfl⟩ := Option.map_eq_some_iff.mp h
    obtain ⟨m, hm, hid⟩ := hl.registered
    refine ⟨⟨m, (Table.mem_of_insert? hins m).mpr (.inl hm), hid⟩, fun m' hm' hid' => ?_⟩
    rcases (Table.mem_of_insert? hins m').mp hm' with hm' | rfl
    · exact hl.limit m' hm' hid'
    · exact absurd (.inl (hid.trans hid'.symm)) ((Table.insert?_eq_some.mp hins).1 m hm)
  | _ =>
    cases h
    exact ⟨hl.registered, hl.limit⟩

/-- A call that has looked the merchant up has its limit. -/
def Knows (k : Period) (merchantId : Uuid) (l : Numeric) : Call → Prop
  | .running _ _ (.toUsdc _ m) => m.id = merchantId → k.limit m = some l
  | .running _ _ (.sumDay p) => p.merchant.id = merchantId → k.limit p.merchant = some l
  | .running _ _ (.sumMonth p _) => p.merchant.id = merchantId → k.limit p.merchant = some l
  | _ => True

theorem knows_entered (h : Entered args tx c) : Knows k merchantId l c := by
  cases h with
  | keyed _ => trivial
  | plain _ _ => trivial
  | threw => trivial

theorem knows_nextInput (id : Uuid) (tx : Tx) : Knows k merchantId l (nextInput id tx) :=
  nextInput_of id tx trivial fun _ _ _ => knows_entered

theorem knows_finish (args : Args) (tx : Option Tx) (response : Response) :
    Knows k merchantId l (finish args tx response) := by
  cases tx with
  | none => trivial
  | some tx => exact knows_nextInput _ _

theorem knows_leads {now : Timestamp} {db db' : Db} {pc : Pc} {next : Next}
    (h : Leads env now args db pc next db') (hl : Limited k merchantId l db)
    (hc : Knows k merchantId l (.running args tx pc)) :
    Knows k merchantId l (next.call args tx) := by
  cases h with
  | merchant hfind => exact hl.limit _ (Table.find?_some hfind).1
  | priced _ => exact hc
  | day _ => exact hc
  | replayed _ | found _ | saved => exact knows_finish args tx _
  | _ => trivial

theorem knows_moves (h : Moves env others i w c w' c') (hl : Limited k merchantId l w.db)
    (hc : Knows k merchantId l c) : Knows k merchantId l c' := by
  cases h with
  | started _ => exact knows_entered (entered_enter _ _)
  | startedBulk _ => exact knows_nextInput _ _
  | stopped hstop =>
    rcases hstop with rfl | ⟨e, rfl⟩
    · trivial
    · trivial
  | ran hleads => exact knows_leads hleads hl hc
  | inserted _ _ _ =>
    split
    · trivial
    · trivial
  | pended _ _ _ => exact knows_nextInput _ _
  | committed _ => trivial

/-! ## The steps of a call -/

/-- The amount of the row is known from the request. -/
theorem equiv?_of_amounts {db : Db} {p : Priced} {q : Quote} (h : amounts db p = .ok q) :
    grossUsdcEquiv? q = p.equiv? := by
  have hq := quoteOf_amounts h
  rw [grossUsdcEquiv?, Priced.equiv?, hq.dto, hq.usdcEquivStr]
  by_cases husdc : p.dto.currency = .usdc
  · obtain ⟨feeIn, hfeeIn, hgross⟩ := hq.gross
    rw [feeInCurrency, if_pos husdc] at hfeeIn
    cases hfeeIn
    simp only [if_pos husdc, hq.amount, hq.fee, hgross]
  · simp only [if_neg husdc]

/-- A check that passes admits its amount; no other statement admits anything. -/
theorem admitted_leads {now : Timestamp} {db db' : Db} {pc : Pc} {next : Next}
    (hl : 0 ≤ l.units) (hstart : k.start env now = since)
    (h : Leads env now args db pc next db') (hc : Knows k merchantId l (.running args tx pc)) :
    (next.call args tx).admitted k merchantId ≤ (Call.running args tx pc).admitted k merchantId ∨
    ∃ p, (Call.running args tx pc).checking k merchantId = some p ∧
      (next.call args tx).admitted k merchantId =
        (Call.running args tx pc).admitted k merchantId + taken p.equiv? ∧
      total db merchantId since ≠ 0 ∧ total db merchantId since + p.usdcEquiv ≤ l.units := by
  subst hstart
  cases h with
  | replayed _ | found _ | saved =>
    left
    rw [admitted_running]
    exact (admitted_finish _ _ _).trans (Int.le_add_of_nonneg_right (Pc.admitted_nonneg _))
  | @day p day hread =>
    by_cases hk : k = .day ∧ p.merchant.id = merchantId
    · right
      refine ⟨p, if_pos hk, ?_, ?_⟩
      · rw [Next.call, admitted_running, admitted_running]
        show _ + ite _ _ _ = _ + 0 + _
        rw [if_pos hk, Int.add_zero]
      · obtain ⟨rfl, rfl⟩ := hk
        have hlimit : p.merchant.dailySpendLimitUsdc = some l := hc rfl
        rw [hlimit] at hread
        exact within_of_readLimit hl hread
    · left
      rw [Next.call, admitted_running, admitted_running]
      show _ + ite _ _ _ ≤ _ + 0
      rw [if_neg hk]
  | @month p day month hread =>
    by_cases hk : k = .month ∧ p.merchant.id = merchantId
    · right
      refine ⟨p, if_pos hk, ?_, ?_⟩
      · rw [Next.call, admitted_running, admitted_running]
        show _ + ite _ _ _ = _ + ite _ _ _ + _
        rw [if_pos hk.2, if_neg (by simp [hk.1]), Int.add_zero]
      · obtain ⟨rfl, rfl⟩ := hk
        have hlimit : p.merchant.monthlySpendLimitUsdc = some l := hc rfl
        rw [hlimit] at hread
        exact within_of_readLimit hl hread
    · left
      rw [Next.call, admitted_running, admitted_running]
      show _ + ite _ _ _ ≤ _ + ite _ _ _
      cases k with
      | day => simp
      | month => rw [if_neg fun hid => hk ⟨rfl, hid⟩, if_neg (by simp)]
  | quoted hq =>
    left
    rw [Next.call, admitted_running, admitted_running, Pc.admitted, Pc.admitted,
      equiv?_of_amounts hq, (quoteOf_amounts hq).merchant]
  | numbered hfind hnext =>
    left
    rw [Next.call, admitted_inserting, admitted_running, Pc.admitted]
  | _ =>
    left
    rw [Next.call, admitted_running, admitted_running]
    exact le_rfl

/-- A new row takes what its call was admitted for. -/
theorem rowsTaken_row {now : Timestamp} {id : Uuid} {q : Quote} {muxedId : Int} {r : Invoice}
    (h : rowOf env now id args tx q muxedId = some r) :
    rowsTaken merchantId [r] =
      if q.merchant.id = merchantId then taken (grossUsdcEquiv? q) else 0 := by
  obtain ⟨row, hrow, rfl⟩ := Option.map_eq_some_iff.mp h
  obtain ⟨hmerchant, -, -, hequiv⟩ := row_of_invoiceRow hrow
  rw [hequiv, rowsTaken, List.map_singleton, List.sum_singleton, ← hmerchant]
  rfl

/-- **A step of a call** keeps the total and all that calls are admitted for within the limit. -/
theorem within_moves (h : Moves env others i w c w' c') (hl : 0 ≤ l.units)
    (hc : Knows k merchantId l c)
    (hclock : ∀ now id, i = .exec now id → k.start env now = since)
    (hroom : checkLeavesRoom k merchantId env l others i w c = true)
    (hsum : total w.db merchantId since +
      ((c :: others).map (Call.admitted k merchantId)).sum ≤ l.units) :
    total w'.db merchantId since +
      ((c' :: others).map (Call.admitted k merchantId)).sum ≤ l.units := by
  rw [List.map_cons, List.sum_cons] at hsum ⊢
  have hnonneg : 0 ≤ c.admitted k merchantId := admitted_nonneg c
  cases h with
  -- a call that starts or stops holds nothing any more
  | @started args =>
    have hle : (enter args none).admitted k merchantId ≤ 0 :=
      admitted_entered (entered_enter args none)
    omega
  | @startedBulk id inputs start =>
    have hle : (nextInput id ⟨start, [], inputs⟩).admitted k merchantId ≤ 0 :=
      admitted_nextInput id _
    omega
  | stopped hstop =>
    have hle : c'.admitted k merchantId = 0 := by
      rcases hstop with rfl | ⟨e, rfl⟩
      · rfl
      · rfl
    omega
  | @ran now id w args tx pc next db hleads =>
    have htotal : total db merchantId since = total w.db merchantId since := by
      rw [total, total, spent, spent, (leads_cases hleads).1]
    rcases admitted_leads hl (hclock now id rfl) hleads hc with
      hle | ⟨p, hcheck, hadmits, hne, hle⟩
    · dsimp only
      omega
    · -- the check has passed, so the condition says that there is room
      simp only [checkLeavesRoom, hcheck] at hroom
      rw [roomFor, Bool.or_eq_true, Bool.or_eq_true, decide_eq_true_eq, decide_eq_true_eq,
        hclock now id rfl, beq_iff_eq, List.map_cons, List.sum_cons] at hroom
      dsimp only
      omega
  -- what a call was admitted for moves into the table, or into its transaction
  | @inserted now id w args q check muxedId r invoices hrow hfree hins =>
    have htotal : total { w.db with invoices } merchantId since ≤
        total w.db merchantId since + rowsTaken merchantId [r] :=
      total_append_le (Table.insert?_eq_some.mp hins).2
    rw [rowsTaken_row hrow] at htotal
    rw [admitted_inserting] at hsum
    have hdone : rowsTaken merchantId (pendingRows none) = 0 := rfl
    split
    · next key _ =>
      have hsaving : (Call.running args none (.saveKey key r)).admitted k merchantId = 0 := rfl
      dsimp only at htotal ⊢
      omega
    · have hreturned : (Call.returned args (.invoice r)).admitted k merchantId = 0 := rfl
      dsimp only at htotal ⊢
      omega
  | @pended now id w args tx q check muxedId r hrow hfree hown =>
    have hnext : (nextInput args.merchantId { tx with rows := tx.rows ++ [(check, r)] }).admitted k
        merchantId ≤ rowsTaken merchantId (tx.rows.map Prod.snd) + rowsTaken merchantId [r] := by
      refine (admitted_nextInput _ _).trans (le_of_eq ?_)
      rw [List.map_append, rowsTaken_append]
      rfl
    rw [rowsTaken_row hrow] at hnext
    rw [admitted_inserting] at hsum
    have hrows : pendingRows (some tx) = tx.rows.map Prod.snd := rfl
    rw [hrows] at hsum
    dsimp only
    omega
  | @committed now id id' w tx invoices hcommit =>
    have htotal : total { w.db with invoices } merchantId since ≤
        total w.db merchantId since + rowsTaken merchantId (tx.rows.map Prod.snd) :=
      total_append_le (rows_of_commit hcommit)
    have hbefore : (Call.committing id' tx).admitted k merchantId =
        rowsTaken merchantId (tx.rows.map Prod.snd) + 0 := rfl
    have hafter : (Call.returnedBulk id' (tx.rows.map Prod.snd)).admitted k merchantId = 0 := rfl
    dsimp only at htotal ⊢
    omega

/-- **Another request** does not add to the total. -/
theorem within_request {r : Request} {db db' : Db} (h : r.exec db = some db')
    (hcancels : ∀ i ∈ db.invoices.rows, i.merchantId = merchantId → r.cancels db i = true →
      0 ≤ i.grossUsdcEquiv.units) :
    total db' merchantId since ≤ total db merchantId since := by
  cases r with
  | cancel id invoiceId =>
    cases h
    exact total_setStatus_le fun _ => hcancels
  | expireInvoices now =>
    cases h
    exact total_setStatus_le nofun
  | autoCancelUnpaidInvoices now =>
    cases h
    exact total_setStatus_le fun _ => hcancels
  | register id name createdAt =>
    obtain ⟨merchants, -, rfl⟩ := Option.map_eq_some_iff.mp h
    exact le_rfl

end Calls

/-! ## Runs -/

section Runs

variable {env : CreateEnv} {k : Period} {merchantId : Uuid} {l : Numeric} {since : Timestamp}
  {n : Nat}

/-- The clock of a statement is in the period that begins at this time. -/
def InPeriod (env : CreateEnv) (k : Period) (since : Timestamp) :
    Program.Label Input Request n → Prop
  | .call _ (.exec now _) => k.start env now = since
  | _ => True

/-- The total, and all that calls have been admitted for, are within the limit. -/
structure Capped (k : Period) (merchantId : Uuid) (l : Numeric) (since : Timestamp)
    (s : Program.Sys World Call n) : Prop where
  limited : Limited k merchantId l s.db.db
  knows : ∀ j, Knows k merchantId l (s.calls j)
  within : total s.db.db merchantId since + (s.all.map (Call.admitted k merchantId)).sum ≤ l.units

theorem capped_step (hl : 0 ≤ l.units) {s s' : Program.Sys World Call n}
    {a : Program.Label Input Request n} (h : Capped k merchantId l since s)
    (hclock : InPeriod env k since a) (hroom : (leavesRoom k merchantId env l).admits s a)
    (hstep : ((program env).interleave n).step s a = some s') :
    Capped k merchantId l since s' := by
  cases a with
  | call j i =>
    obtain ⟨w, c, hexec, rfl⟩ := (program env).step_call.mp hstep
    have hmoves := moves_of_exec hexec
    refine ⟨limited_moves hmoves h.limited, ?_, ?_⟩
    · exact forall_update (knows_moves hmoves h.limited (h.knows j)) fun j' _ => h.knows j'
    · have hwithin := h.within
      rw [((s.perm_all j).map _).sum_eq] at hwithin
      rw [((Program.Sys.perm_all _ j).map _).sum_eq, Program.Sys.others_update]
      dsimp only
      rw [Function.update_self]
      refine within_moves hmoves hl (h.knows j) (fun now id hi => ?_) hroom hwithin
      subst hi
      exact hclock
  | env r =>
    obtain ⟨w, henv, rfl⟩ := (program env).step_env.mp hstep
    obtain ⟨db, hdb, rfl⟩ := Option.map_eq_some_iff.mp henv
    exact ⟨limited_request hdb h.limited, h.knows,
      (Int.add_le_add_right (within_request hdb hroom) _).trans h.within⟩

/-- **Where every check that passes leaves room, the total stays within the limit**, in every
state of every run in the period. -/
theorem stays_within {db : Db} {t : Program.Sys World Call n}
    {as : List (Program.Label Input Request n)} (hl : 0 ≤ l.units)
    (hmerchant : ∃ m ∈ db.merchants, m.id = merchantId ∧ k.limit m = some l)
    (hsum : total db merchantId since ≤ l.units) (hclock : ∀ a ∈ as, InPeriod env k since a)
    (hg : ((program env).interleave n).Guarded (leavesRoom k merchantId env l).admits
      (idle db n) as)
    (hrun : ((program env).interleave n).run (idle db n) as = some t) :
    total t.db.db merchantId since ≤ l.units := by
  have hcapped : Capped k merchantId l since (idle db n) := by
    obtain ⟨m, hm, hid, hlimit⟩ := hmerchant
    refine ⟨⟨⟨m, hm, hid⟩, fun m' hm' hid' => ?_⟩, fun _ => trivial, ?_⟩
    · rw [eq_of_id hm' hm (hid'.trans hid.symm)]
      exact hlimit
    · have hidle : ((idle db n).all.map (Call.admitted k merchantId)).sum = 0 := by
        refine List.sum_eq_zero fun x hx => ?_
        obtain ⟨c, hc, rfl⟩ := List.mem_map.mp hx
        obtain ⟨j, rfl⟩ := Program.Sys.mem_all.mp hc
        rfl
      rw [hidle, Int.add_zero]
      exact hsum
  have hperiod : ((program env).interleave n).Guarded (fun _ a => InPeriod env k since a)
      (idle db n) as := ((program env).interleave n).guarded_of_forall fun _ => hclock
  have hlast : Capped k merchantId l since t :=
    ((program env).interleave n).inv_of_guarded_run
      (fun _ _ _ h ha hstep => capped_step hl h ha.1 ha.2 hstep) hcapped
      (Lts.Guarded.and _ hperiod hg) hrun
  have hnonneg : 0 ≤ (t.all.map (Call.admitted k merchantId)).sum := by
    refine List.sum_nonneg fun x hx => ?_
    obtain ⟨c, -, rfl⟩ := List.mem_map.mp hx
    exact admitted_nonneg c
  have hwithin := hlast.within
  omega

end Runs

/-! ## A day with a limit of 25 USDC -/

/-- The limit of `limitedDb`. -/
def dailyLimit : Numeric := ⟨250000000, inRange_limit⟩

/-- An invoice in USDC, by the first of two calls. -/
def oneInvoice (amount : String) : List (Program.Label Input Request 2) :=
  .call 0 (.create ⟨1, { tenUsdc with amountUsdc := some (.text amount) }, none⟩) ::
    statements 0 7 8

theorem mem_limitedDb : limitedMerchant ∈ limitedDb.merchants := List.mem_singleton_self _

theorem inPeriod_oneInvoice (amount : String) :
    ∀ a ∈ oneInvoice amount, InPeriod testEnv .day 0 a := by
  intro a _
  cases a with
  | call j i => cases i <;> trivial
  | env r => trivial

/-- 10.50 USDC are spent; an invoice of 10 USDC, with its fee, leaves room. -/
theorem stays_within_ten :
    total limitedDb 1 0 ≤ dailyLimit.units ∧ ∃ t,
    ((program testEnv).interleave 2).run (idle limitedDb 2) (oneInvoice "10") = some t ∧
    t.db.db.invoices.rows.length = 2 ∧ total t.db.db 1 0 ≤ dailyLimit.units := by
  have hsum : total limitedDb 1 0 ≤ dailyLimit.units := by decide +kernel
  obtain ⟨t, hrun, hrows⟩ := ((program testEnv).interleave 2).exists_of_leadsTo
    (fun t => t.db.db.invoices.rows.length = 2) (idle limitedDb 2) (oneInvoice "10")
    (by decide +kernel)
  have hg : ((program testEnv).interleave 2).Guarded (leavesRoom .day 1 testEnv dailyLimit).admits
      (idle limitedDb 2) (oneInvoice "10") := by decide +kernel
  exact ⟨hsum, t, hrun, hrows, stays_within (by decide) ⟨limitedMerchant, mem_limitedDb, rfl, rfl⟩
    hsum (inPeriod_oneInvoice "10") hg hrun⟩

/-- **The fee exceeds the limit**: an invoice of 14.50 USDC is what is left of the day, and is
stored with 14.8225. -/
theorem fee_exceeds :
    (∃ m ∈ limitedDb.merchants, m.id = 1 ∧ m.dailySpendLimitUsdc = some dailyLimit) ∧
    total limitedDb 1 0 ≤ dailyLimit.units ∧
    (∀ a ∈ oneInvoice "14.50", InPeriod testEnv .day 0 a) ∧ ∃ t,
    ((program testEnv).interleave 2).run (idle limitedDb 2) (oneInvoice "14.50") = some t ∧
    dailyLimit.units < total t.db.db 1 0 := by
  refine ⟨⟨limitedMerchant, mem_limitedDb, rfl, rfl⟩, by decide +kernel,
    inPeriod_oneInvoice "14.50", ?_⟩
  exact ((program testEnv).interleave 2).exists_of_leadsTo
    (fun t => dailyLimit.units < total t.db.db 1 0) (idle limitedDb 2) (oneInvoice "14.50")
    (by decide +kernel)

end Stargate.CreateCalls
