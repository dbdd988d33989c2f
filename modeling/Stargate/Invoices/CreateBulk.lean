import Stargate.Invoices.Bookkeeping

/-!
# `InvoicesService.createBulk`

`createBulk` runs the code of `create` for each input, inside one transaction. Only
the `INSERT`s go through the transaction; the merchant, its counters and the sums of
the spend limits are read and written on the pool, which does not see the rows that
are not committed yet.

- `createBulk`, `createEach`: the call, and `create` on the inputs one by one;
- `charge?`: what an input is to the spend limits, before any call;
- `Accepted`: every input passes all other checks, and its row can be stored;
- `createEach_spec`, `createBulk_spec`: what each of them needs beside that;
- `agrees_iff`: they agree unless the limits have room for each input, but not for
  all of them.
-/

namespace Stargate.Invoices

open Base

/-! ## The call -/

/-- An input, the clock when it is processed, and the random id of its row. -/
structure Item where
  now : Timestamp
  id : Uuid
  input : CreateInput

/-- The muxed id of a new invoice, and its address. -/
def allocate (env : CreateEnv) (db : Db) (merchant : Merchant) :
    Except ApiError (Int × String) × Db :=
  match ensureMuxedBase db merchant with
  | .error e => (.error e, db)
  | .ok (base, db) =>
    match nextInvoiceSequence db merchant with
    | .error e => (.error e, db)
    | .ok (next, db) =>
      let muxedId := base + next
      if muxedId < 0 then (.error .library, db)
      else
        (.ok (muxedId, Stellar.buildMuxedAddress Stellar.crc16 env.treasury muxedId.toNat), db)

/-- `create` from the muxed id on, where the `INSERT` goes to a connection that sees
`invoices`, and the time of its transaction is `createdAt`. -/
def insertOn (env : CreateEnv) (now createdAt : Timestamp) (id : Uuid) (db : Db)
    (invoices : Table Invoice) (key : Option String) (q : Quote) :
    Except ApiError (Invoice × Table Invoice) × Db :=
  match allocate env db q.merchant with
  | (.error e, db) => (.error e, db)
  | (.ok (muxedId, address), db) =>
    match (invoiceRow now id key muxedId address q).map fun r => { r with createdAt } with
    | none => (.error .database, db)
    | some invoice =>
      match invoices.insert? invoice with
      | none => (.error .database, db)
      | some invoices => (.ok (invoice, invoices), db)

/-- The loop of `createBulk`. `start` is the time of the transaction, `invoices` what
it sees. -/
def bulkLoop (env : CreateEnv) (start : Timestamp) (merchantId : Uuid) :
    List Item → Db → Table Invoice → Except ApiError (List Invoice × Table Invoice) × Db
  | [], db, invoices => (.ok ([], invoices), db)
  | item :: items, db, invoices =>
    match quote env item.now db merchantId item.input with
    | .error e => (.error e, db)
    | .ok q =>
      match insertOn env item.now start item.id db invoices none q with
      | (.error e, db) => (.error e, db)
      | (.ok (invoice, invoices), db) =>
        match bulkLoop env start merchantId items db invoices with
        | (.error e, db) => (.error e, db)
        | (.ok (results, invoices), db) => (.ok (invoice :: results, invoices), db)

/-- `createBulk(merchantId, inputs)`. -/
def createBulk (env : CreateEnv) (start : Timestamp) (db : Db) (merchantId : Uuid)
    (items : List Item) : Except ApiError (List Invoice) × Db :=
  if items.length = 0 ∨ 100 < items.length then
    (.error (.badRequest "Provide between 1 and 100 invoices"), db)
  else
    match bulkLoop env start merchantId items db db.invoices with
    -- ROLLBACK
    | (.error e, db) => (.error e, db)
    -- COMMIT
    | (.ok (results, invoices), db) => (.ok results, { db with invoices })

/-- `create` on the inputs, one after the other, up to the first that fails. -/
def createEach (env : CreateEnv) (merchantId : Uuid) :
    List Item → Db → Except ApiError (List Response) × Db
  | [], db => (.ok [], db)
  | item :: items, db =>
    match create env item.now item.id db merchantId item.input none with
    | (.error e, db) => (.error e, db)
    | (.ok response, db) =>
      match createEach env merchantId items db with
      | (.error e, db) => (.error e, db)
      | (.ok responses, db) => (.ok (response :: responses), db)

/-- A row but for its generated time. -/
def unstamped (r : Invoice) : Invoice := { r with createdAt := 0 }

/-- `createBulk` succeeds if and only if all calls of `create` do, and then the tables
agree but for the times of creation. -/
def Agrees (env : CreateEnv) (start : Timestamp) (db : Db) (merchantId : Uuid)
    (items : List Item) : Prop :=
  ((∃ rs, (createBulk env start db merchantId items).1 = .ok rs) ↔
    ∃ rs, (createEach env merchantId items db).1 = .ok rs) ∧
  ((∃ rs, (createBulk env start db merchantId items).1 = .ok rs) →
    (createBulk env start db merchantId items).2.invoices.rows.map unstamped
      = (createEach env merchantId items db).2.invoices.rows.map unstamped)

/-! ## The checks -/

/-- `quote` after the lookups, without the spend limits, and the amount that they are
about. -/
def priceFor (db : Db) (merchant : Merchant) (dto : CreateDto) :
    Except ApiError (Quote × Int) := do
  if merchant.acceptedAssets.any fun assets => !assets.contains dto.currency.code then
    throw (.badRequest ("Merchant does not accept " ++ dto.currency.code))
  let usdcEquivStr := toUsdc db dto.amount dto.currency
  let usdcEquiv ← toUnits usdcEquivStr
  checkBounds merchant usdcEquiv
  let amount ← toUnits dto.amount
  let fee ← calculateFee usdcEquiv merchant
  let gross := amount + (← feeInCurrency db fee dto.currency)
  let net := amount - (← fixedFeeUnits merchant)
  if net < 0 then
    throw (.badRequest
      "Invoice amount is less than the fixed fee; net payout would be negative")
  return ({ dto, merchant, usdcEquivStr, amount, fee, gross, net }, usdcEquiv)

/-- `quote` without the spend limits. -/
def price (db : Db) (merchantId : Uuid) (input : CreateInput) : Except ApiError (Quote × Int) := do
  let dto ← parseCreate input
  let some merchant := db.merchants.find? fun m => m.id == merchantId
    | throw (.notFound "Merchant not found")
  priceFor db merchant dto

/-- What was spent since a time, invoice by invoice. -/
def spent (db : Db) (merchantId : Uuid) (since : Timestamp) : List Int :=
  (db.invoices.rows.filter fun i =>
    i.merchantId == merchantId && decide (since ≤ i.createdAt) && i.status != .cancelled).map
    fun i => i.grossUsdcEquiv.units

/-- The text of a sum in the database. -/
def sumText (xs : List Int) : String := if xs = [] then "0" else Numeric.unitsText xs.sum

theorem spentText_eq (db : Db) (merchantId : Uuid) (since : Timestamp) :
    spentText db merchantId since = sumText (spent db merchantId since) := by
  simp only [spentText, sumText, spent, List.map_eq_nil_iff]

/-- A limit has room for an amount next to what was spent. -/
def HasRoom (limit : Option Numeric) (xs : List Int) (usdcAmount : Int) : Prop :=
  ∀ l, limit = some l → ∃ total bound, toUnits (sumText xs) = .ok total ∧
    toUnits l.text = .ok bound ∧ total + usdcAmount ≤ bound

/-- What an input is to the limits: the amount that they check, the one that they count
later, and the time. -/
structure Charge where
  usdc : Int
  equiv : Numeric
  now : Timestamp

/-- The `gross_usdc_equiv` of a new row. -/
def grossUsdcEquiv? (q : Quote) : Option Numeric :=
  Numeric.ofText? (if q.dto.currency = .usdc then fromUnits q.gross else q.usdcEquivStr)

/-- The charge of an input, if it passes the other checks. -/
def charge? (db : Db) (merchantId : Uuid) (item : Item) : Option Charge :=
  match price db merchantId item.input with
  | .ok (q, usdc) => (grossUsdcEquiv? q).map fun equiv => ⟨usdc, equiv, item.now⟩
  | .error _ => none

def charges (db : Db) (merchantId : Uuid) (items : List Item) : List Charge :=
  items.filterMap (charge? db merchantId)

/-- The charges of earlier inputs that count towards a limit. -/
def counted (since : Timestamp) (earlier : List Charge) : List Int :=
  (earlier.filter fun c => decide (since ≤ c.now)).map fun c => c.equiv.units

/-- The limits of a merchant. -/
def limits (db : Db) (merchantId : Uuid) : Option (Option Numeric × Option Numeric) :=
  (db.merchants.find? fun m => m.id == merchantId).map fun m =>
    (m.dailySpendLimitUsdc, m.monthlySpendLimitUsdc)

/-- Both limits have room for a charge next to what was spent before the call, and the
charges of earlier inputs. -/
def Fits (env : CreateEnv) (db : Db) (merchantId : Uuid) (earlier : List Charge) (c : Charge) :
    Prop :=
  ∀ daily monthly, limits db merchantId = some (daily, monthly) →
    HasRoom daily (spent db merchantId (env.startOfDay c.now)
      ++ counted (env.startOfDay c.now) earlier) c.usdc ∧
    HasRoom monthly (spent db merchantId (env.startOfMonth c.now)
      ++ counted (env.startOfMonth c.now) earlier) c.usdc

/-- The limits have room for each input alone. -/
def FitsAlone (env : CreateEnv) (db : Db) (merchantId : Uuid) (cs : List Charge) : Prop :=
  ∀ c ∈ cs, Fits env db merchantId [] c

/-- The limits have room for each input together with those before it. -/
def FitsTogether (env : CreateEnv) (db : Db) (merchantId : Uuid) (cs : List Charge) : Prop :=
  ∀ earlier c later, cs = earlier ++ c :: later → Fits env db merchantId earlier c

/-- Every input passes the other checks, and its row can be stored. -/
inductive Accepted (env : CreateEnv) (merchantId : Uuid) : Db → List Item → List Invoice → Prop
  | nil {db : Db} : Accepted env merchantId db [] []
  | cons {db db' : Db} {item : Item} {items : List Item} {rows : List Invoice} {q : Quote}
      {usdc : Int} {r : Invoice} (hprice : price db merchantId item.input = .ok (q, usdc))
      (hinsert : insertQuote env item.now item.id db none q = (.ok r, db'))
      (hrest : Accepted env merchantId db' items rows) :
      Accepted env merchantId db (item :: items) (r :: rows)

/-! ## One input -/

section Step

variable {env : CreateEnv} {now start : Timestamp} {id : Uuid} {db db' : Db} {merchantId : Uuid}
  {input : CreateInput} {key : Option String} {q : Quote} {r : Invoice} {usdc : Int}

theorem hasRoom_iff {limit : Option Numeric} {since : Timestamp} {message : String} :
    enforceLimit db merchantId limit since usdc message = .ok () ↔
      HasRoom limit (spent db merchantId since) usdc := by
  unfold enforceLimit HasRoom
  cases limit with
  | none => simp
  | some l =>
    dsimp only
    rw [spentText_eq]
    constructor
    · intro h l' hl'
      cases hl'
      obtain ⟨total, htotal, h⟩ := bind_eq_ok.mp h
      obtain ⟨bound, hbound, h⟩ := bind_eq_ok.mp h
      refine ⟨total, bound, htotal, hbound, ?_⟩
      split at h
      · cases h
      · next hle => exact not_lt.mp hle
    · intro h
      obtain ⟨total, bound, htotal, hbound, hle⟩ := h l rfl
      refine bind_eq_ok.mpr ⟨total, htotal, bind_eq_ok.mpr ⟨bound, hbound, ?_⟩⟩
      rw [if_neg (not_lt.mpr hle)]
      rfl

/-- What a price is made of. -/
theorem priceFor_ok_iff {m : Merchant} {dto : CreateDto} : priceFor db m dto = .ok (q, usdc) ↔
    (m.acceptedAssets.any fun assets => !assets.contains dto.currency.code) = false ∧
    toUnits (toUsdc db dto.amount dto.currency) = .ok usdc ∧ checkBounds m usdc = .ok () ∧
    ∃ amount fixed feeIn, toUnits dto.amount = .ok amount ∧ fixedFeeUnits m = .ok fixed ∧
      feeInCurrency db ((usdc * feeRate m).tdiv 10000 + fixed) dto.currency = .ok feeIn ∧
      0 ≤ amount - fixed ∧
      q = { dto, amount, merchant := m, usdcEquivStr := toUsdc db dto.amount dto.currency,
            fee := (usdc * feeRate m).tdiv 10000 + fixed, gross := amount + feeIn,
            net := amount - fixed } := by
  unfold priceFor calculateFee
  constructor
  · intro h
    split at h
    · cases h
    · next hassets =>
      obtain ⟨x, hx, h⟩ := bind_eq_ok.mp h
      obtain ⟨⟨⟩, hbounds, h⟩ := bind_eq_ok.mp h
      obtain ⟨amount, hamount, h⟩ := bind_eq_ok.mp h
      obtain ⟨fee, hfee, h⟩ := bind_eq_ok.mp h
      obtain ⟨feeIn, hfeeIn, h⟩ := bind_eq_ok.mp h
      obtain ⟨fixed, hfixed, h⟩ := bind_eq_ok.mp h
      obtain ⟨fixed', hfixed', hfee⟩ := bind_eq_ok.mp hfee
      cases hfixed.symm.trans hfixed'
      cases hfee
      dsimp only at h
      split at h
      · cases h
      · next hnet =>
        cases h
        exact ⟨eq_false_of_ne_true hassets, hx, hbounds, amount, fixed, feeIn, hamount, hfixed,
          hfeeIn, not_lt.mp hnet, rfl⟩
  · rintro ⟨hassets, husdc, hbounds, amount, fixed, feeIn, hamount, hfixed, hfeeIn, hnet, rfl⟩
    rw [if_neg (by rw [hassets]; exact Bool.false_ne_true)]
    dsimp only
    rw [husdc]
    dsimp only [bind, Except.bind]
    rw [hbounds]
    dsimp only
    rw [hamount, hfixed]
    dsimp only [pure, Except.pure]
    rw [hfeeIn]
    dsimp only
    rw [if_neg (not_lt.mpr hnet)]

theorem priceFor_merchant {merchant : Merchant} {dto : CreateDto}
    (h : priceFor db merchant dto = .ok (q, usdc)) : q.merchant = merchant := by
  obtain ⟨-, -, -, _, _, _, -, -, -, -, rfl⟩ := priceFor_ok_iff.mp h
  rfl

theorem price_ok_iff : price db merchantId input = .ok (q, usdc) ↔
    ∃ dto, parseCreate input = .ok dto ∧
      db.merchants.find? (fun m => m.id == merchantId) = some q.merchant ∧
      priceFor db q.merchant dto = .ok (q, usdc) := by
  unfold price
  constructor
  · intro h
    obtain ⟨dto, hdto, h⟩ := bind_eq_ok.mp h
    split at h
    · next merchant hmerchant =>
      cases priceFor_merchant h
      exact ⟨dto, hdto, hmerchant, h⟩
    · cases h
  · rintro ⟨dto, hdto, hmerchant, h⟩
    refine bind_eq_ok.mpr ⟨dto, hdto, ?_⟩
    rw [hmerchant]
    exact h

theorem merchant_of_price (h : price db merchantId input = .ok (q, usdc)) :
    db.merchants.find? (fun m => m.id == merchantId) = some q.merchant := by
  obtain ⟨_, -, hmerchant, -⟩ := price_ok_iff.mp h
  exact hmerchant

/-- **A quote is a price within the limits.** -/
theorem quote_ok_iff : quote env now db merchantId input = .ok q ↔
    ∃ usdc, price db merchantId input = .ok (q, usdc) ∧
      enforceSpendLimits env now db q.merchant usdc = .ok () := by
  constructor
  · intro h
    unfold quote at h
    obtain ⟨dto, hdto, h⟩ := bind_eq_ok.mp h
    split at h
    · next merchant hmerchant =>
      split at h
      · cases h
      · next hasset =>
        obtain ⟨usdcEquiv, husdc, h⟩ := bind_eq_ok.mp h
        obtain ⟨⟨⟩, hlimits, h⟩ := bind_eq_ok.mp h
        obtain ⟨⟨⟩, hbounds, h⟩ := bind_eq_ok.mp h
        obtain ⟨amount, hamount, h⟩ := bind_eq_ok.mp h
        obtain ⟨fee, hfee, h⟩ := bind_eq_ok.mp h
        obtain ⟨native, hnative, h⟩ := bind_eq_ok.mp h
        obtain ⟨fixed, hfixed, h⟩ := bind_eq_ok.mp h
        dsimp only at h
        split at h
        · cases h
        · next hnet =>
          cases h
          obtain ⟨fixed', hfixed', hfee⟩ := bind_eq_ok.mp hfee
          cases hfixed.symm.trans hfixed'
          cases hfee
          refine ⟨usdcEquiv, price_ok_iff.mpr ⟨dto, hdto, hmerchant, priceFor_ok_iff.mpr ?_⟩,
            hlimits⟩
          exact ⟨eq_false_of_ne_true hasset, husdc, hbounds, amount, fixed, native, hamount, hfixed,
            hnative, not_lt.mp hnet, rfl⟩
    · cases h
  · rintro ⟨usdc, h, hlimits⟩
    obtain ⟨dto, hdto, hmerchant, h⟩ := price_ok_iff.mp h
    obtain ⟨hasset, husdc, hbounds, amount, fixed, native, hamount, hfixed, hnative, hnet, hq⟩ :=
      priceFor_ok_iff.mp h
    refine bind_eq_ok.mpr ⟨dto, hdto, ?_⟩
    rw [hmerchant]
    dsimp only
    rw [hasset]
    simp only [calculateFee, husdc, hlimits, hbounds, hamount, hfixed, hnative, not_lt.mpr hnet,
      if_false, bind, Except.bind, pure, Except.pure, Bool.false_eq_true]
    exact congrArg Except.ok hq.symm

/-- The limits are checked for the merchant of the call. -/
theorem enforceSpendLimits_iff (h : price db merchantId input = .ok (q, usdc)) :
    enforceSpendLimits env now db q.merchant usdc = .ok () ↔
      HasRoom q.merchant.dailySpendLimitUsdc (spent db merchantId (env.startOfDay now)) usdc ∧
      HasRoom q.merchant.monthlySpendLimitUsdc (spent db merchantId (env.startOfMonth now))
        usdc := by
  have hid : q.merchant.id = merchantId := beq_iff_eq.mp (Table.find?_some (merchant_of_price h)).2
  rw [enforceSpendLimits, bind_eq_ok, ← hid, ← hasRoom_iff, ← hasRoom_iff]
  constructor
  · rintro ⟨⟨⟩, hdaily, hmonthly⟩
    exact ⟨hdaily, hmonthly⟩
  · rintro ⟨hdaily, hmonthly⟩
    exact ⟨(), hdaily, hmonthly⟩

/-- The counters do not depend on the invoices. -/
theorem allocate_invoices (env : CreateEnv) (db : Db) (merchant : Merchant)
    (invoices : Table Invoice) :
    allocate env { db with invoices } merchant
      = ((allocate env db merchant).1, { (allocate env db merchant).2 with invoices }) := by
  have hbase : ensureMuxedBase { db with invoices } merchant
      = (ensureMuxedBase db merchant).map fun (base, db) => (base, { db with invoices }) := by
    unfold ensureMuxedBase
    dsimp only
    repeat' split
    all_goals rfl
  have hnext : ∀ db : Db, nextInvoiceSequence { db with invoices } merchant
      = (nextInvoiceSequence db merchant).map fun (next, db) => (next, { db with invoices }) := by
    intro db
    unfold nextInvoiceSequence
    dsimp only
    split <;> rfl
  unfold allocate
  rw [hbase]
  cases ensureMuxedBase db merchant with
  | error e => rfl
  | ok res =>
    obtain ⟨base, db₁⟩ := res
    dsimp only [Except.map]
    rw [hnext]
    cases nextInvoiceSequence db₁ merchant with
    | error e => rfl
    | ok res =>
      obtain ⟨next, db₂⟩ := res
      dsimp only [Except.map]
      split <;> rfl

/-- `create` from the muxed id on, once more. -/
theorem insertQuote_eq (env : CreateEnv) (now : Timestamp) (id : Uuid) (db : Db)
    (key : Option String) (q : Quote) :
    insertQuote env now id db key q = match allocate env db q.merchant with
      | (.error e, db) => (.error e, db)
      | (.ok (muxedId, address), db) =>
        match invoiceRow now id key muxedId address q with
        | none => (.error .database, db)
        | some invoice =>
          match db.invoices.insert? invoice with
          | none => (.error .database, db)
          | some invoices => (.ok invoice, { db with invoices }) := by
  unfold insertQuote allocate
  -- how the row is made up is of no account
  generalize invoiceRow now id key = row
  cases ensureMuxedBase db q.merchant with
  | error e => rfl
  | ok res =>
    obtain ⟨base, db₁⟩ := res
    dsimp only
    cases nextInvoiceSequence db₁ q.merchant with
    | error e => rfl
    | ok res =>
      dsimp only
      split
      · rfl
      · rfl

/-- What a call stores, in terms of its muxed id. -/
theorem insertQuote_ok_iff : insertQuote env now id db key q = (.ok r, db') ↔
    ∃ muxedId address db₁ invoices, allocate env db q.merchant = (.ok (muxedId, address), db₁) ∧
      invoiceRow now id key muxedId address q = some r ∧ db₁.invoices.insert? r = some invoices ∧
      db' = { db₁ with invoices } := by
  rw [insertQuote_eq]
  constructor
  · intro h
    split at h
    · cases h
    · next muxedId address db₁ hallocate =>
      split at h
      · cases h
      · next invoice hrow =>
        split at h
        · cases h
        · next invoices hins =>
          cases h
          exact ⟨muxedId, address, db₁, invoices, hallocate, hrow, hins, rfl⟩
  · rintro ⟨muxedId, address, db₁, invoices, hallocate, hrow, hins, rfl⟩
    simp only [hallocate, hrow, hins]

theorem insertOn_ok_iff {tx tx' : Table Invoice} :
    insertOn env now start id db tx key q = (.ok (r, tx'), db') ↔
      ∃ muxedId address r₀, allocate env db q.merchant = (.ok (muxedId, address), db') ∧
        invoiceRow now id key muxedId address q = some r₀ ∧ r = { r₀ with createdAt := start } ∧
        tx.insert? r = some tx' := by
  unfold insertOn
  constructor
  · intro h
    split at h
    · cases h
    · next muxedId address db₁ hallocate =>
      split at h
      · cases h
      · next invoice hrow =>
        obtain ⟨r₀, hr₀, rfl⟩ := Option.map_eq_some_iff.mp hrow
        split at h
        · cases h
        · next invoices hins =>
          cases h
          exact ⟨muxedId, address, r₀, hallocate, hr₀, rfl, hins⟩
  · rintro ⟨muxedId, address, r₀, hallocate, hrow, rfl, hins⟩
    simp only [hallocate, hrow, Option.map_some, hins]

/-- What the row of a call has from its arguments. -/
theorem row_of_invoiceRow {muxedId : Int} {address : String}
    (h : invoiceRow now id key muxedId address q = some r) :
    r.merchantId = q.merchant.id ∧ r.createdAt = now ∧ r.status = .pending ∧
      grossUsdcEquiv? q = some r.grossUsdcEquiv := by
  simp only [invoiceRow, Option.bind_eq_bind, Option.bind_eq_some_iff] at h
  obtain ⟨_, -, _, -, _, -, _, -, _, -, equiv, hequiv, h⟩ := h
  split at h
  · cases h
  · cases h
    exact ⟨rfl, rfl, rfl, hequiv⟩

theorem numbered_allocate {merchant : Merchant} {number : Int × String}
    (h : allocate env db merchant = (.ok number, db')) : Numbered db db' := by
  unfold allocate at h
  split at h
  · cases h
  · next base db₁ hbase =>
    split at h
    · cases h
    · next next db₂ hnext =>
      dsimp only at h
      split at h
      · cases h
      · cases h
        exact (numbered_ensureMuxedBase hbase).trans (numbered_nextInvoiceSequence hnext)

/-- A merchant is found as before, but for its numbers. -/
theorem Numbered.find? (h : Numbered db db') (merchantId : Uuid) :
    ∃ f : Merchant → Merchant, db'.merchants.find? (fun m => m.id == merchantId)
        = (db.merchants.find? fun m => m.id == merchantId).map f ∧
      ∀ m, ∃ base seq, f m = { m with muxedBaseId := base, invoiceSeq := seq } := by
  obtain ⟨f, hrows, hf⟩ := h.rows
  refine ⟨f, ?_, hf⟩
  have hid : ((fun m : Merchant => m.id == merchantId) ∘ f) = fun m => m.id == merchantId := by
    funext m
    obtain ⟨base, seq, heq⟩ := hf m
    rw [Function.comp_apply, heq]
  rw [Table.find?, hrows, List.find?_map, hid]
  rfl

/-- The limits are no numbers. -/
theorem Numbered.limits (h : Numbered db db') : limits db' merchantId = limits db merchantId := by
  obtain ⟨f, hfind, hf⟩ := h.find? merchantId
  rw [Invoices.limits, hfind, Option.map_map, Invoices.limits]
  refine congrArg (fun g => Option.map g _) (funext fun m => ?_)
  obtain ⟨base, seq, heq⟩ := hf m
  rw [Function.comp_apply, heq]

/-- The price is the same for a merchant with other numbers. -/
theorem priceFor_numbers (db : Db) (m : Merchant) (dto : CreateDto) (base : Option Int)
    (seq : Int) : priceFor db { m with muxedBaseId := base, invoiceSeq := seq } dto
      = (fun (q, usdc) =>
          ({ q with merchant := { m with muxedBaseId := base, invoiceSeq := seq } }, usdc))
        <$> priceFor db m dto := by
  have hbounds : ∀ u, checkBounds { m with muxedBaseId := base, invoiceSeq := seq } u
      = checkBounds m u := fun _ => rfl
  have hfee : ∀ u, calculateFee u { m with muxedBaseId := base, invoiceSeq := seq }
      = calculateFee u m := fun _ => rfl
  have hfixed : fixedFeeUnits { m with muxedBaseId := base, invoiceSeq := seq }
      = fixedFeeUnits m := rfl
  unfold priceFor
  simp only [hbounds, hfee, hfixed]
  split
  · rfl
  · simp only [map_bind]
    refine bind_congr fun usdcEquiv => bind_congr fun _ => bind_congr fun amount =>
      bind_congr fun fee => bind_congr fun native => bind_congr fun fixed => ?_
    split <;> rfl

/-- A charge is known before any number is taken. -/
theorem Numbered.charge? (h : Numbered db db') (item : Item) :
    charge? db' merchantId item = Invoices.charge? db merchantId item := by
  obtain ⟨f, hfind, hf⟩ := h.find? merchantId
  have hprice : ∃ g : Quote → Quote, (∀ q, grossUsdcEquiv? (g q) = grossUsdcEquiv? q) ∧
      price db' merchantId item.input
        = (fun (q, usdc) => (g q, usdc)) <$> price db merchantId item.input := by
    unfold price
    cases parseCreate item.input with
    | error e => exact ⟨id, fun _ => rfl, rfl⟩
    | ok dto =>
      simp only [bind, Except.bind]
      rw [hfind]
      cases db.merchants.find? fun m => m.id == merchantId with
      | none => exact ⟨id, fun _ => rfl, rfl⟩
      | some m =>
        obtain ⟨base, seq, heq⟩ := hf m
        refine ⟨fun q => { q with merchant := f m }, fun _ => rfl, ?_⟩
        rw [Option.map_some, heq, ← priceFor_numbers, h.rest]
        rfl
  obtain ⟨g, hg, hprice⟩ := hprice
  unfold Invoices.charge?
  rw [hprice]
  cases price db merchantId item.input with
  | error e => rfl
  | ok res =>
    dsimp only [Functor.map, Except.map]
    rw [hg]

end Step

/-! ## One by one -/

section Each

variable {env : CreateEnv} {db db' db₀ : Db} {merchantId : Uuid} {item : Item} {items : List Item}
  {earlier cs : List Charge} {c : Charge} {rows rows' : List Invoice} {q : Quote} {usdc : Int}
  {r : Invoice}

/-- What the calls that came before have left of the limits, and of the prices. -/
structure After (db₀ : Db) (merchantId : Uuid) (earlier : List Charge) (db : Db) : Prop where
  spent : ∀ since, spent db merchantId since = Invoices.spent db₀ merchantId since
    ++ counted since earlier
  limits : limits db merchantId = Invoices.limits db₀ merchantId
  charge : ∀ item, charge? db merchantId item = charge? db₀ merchantId item

theorem After.refl (db : Db) (merchantId : Uuid) : After db merchantId [] db :=
  ⟨fun _ => (List.append_nil _).symm, rfl, fun _ => rfl⟩

/-- The charge of a row that is stored. -/
theorem charge_of_insertQuote (hprice : price db merchantId item.input = .ok (q, usdc))
    (hinsert : insertQuote env item.now item.id db none q = (.ok r, db')) :
    charge? db merchantId item = some ⟨usdc, r.grossUsdcEquiv, item.now⟩ := by
  obtain ⟨_, _, _, _, -, hrow, -, -⟩ := insertQuote_ok_iff.mp hinsert
  obtain ⟨-, -, -, hequiv⟩ := row_of_invoiceRow hrow
  simp only [charge?, hprice, hequiv, Option.map_some]

/-- The check of a call, in terms of the first database. -/
theorem After.enforceSpendLimits_iff {equiv : Numeric} (h : After db₀ merchantId earlier db)
    (hprice : price db merchantId item.input = .ok (q, usdc)) :
    enforceSpendLimits env item.now db q.merchant usdc = .ok () ↔
      Fits env db₀ merchantId earlier ⟨usdc, equiv, item.now⟩ := by
  have hlimits : Invoices.limits db₀ merchantId
      = some (q.merchant.dailySpendLimitUsdc, q.merchant.monthlySpendLimitUsdc) := by
    rw [← h.limits, Invoices.limits, merchant_of_price hprice]
    rfl
  rw [Invoices.enforceSpendLimits_iff hprice, Fits, hlimits, h.spent, h.spent]
  constructor
  · rintro hroom _ _ ⟨⟩
    exact hroom
  · exact fun hroom => hroom _ _ rfl

/-- A call that stores a row counts it. -/
theorem After.step (h : After db₀ merchantId earlier db)
    (hprice : price db merchantId item.input = .ok (q, usdc))
    (hinsert : insertQuote env item.now item.id db none q = (.ok r, db')) :
    After db₀ merchantId (earlier ++ [⟨usdc, r.grossUsdcEquiv, item.now⟩]) db' ∧
      db'.invoices.rows = db.invoices.rows ++ [r] := by
  obtain ⟨muxedId, address, db₁, invoices, hallocate, hrow, hins, rfl⟩ :=
    insertQuote_ok_iff.mp hinsert
  have hnumbered := numbered_allocate hallocate
  obtain ⟨hmerchant, hcreated, hstatus, -⟩ := row_of_invoiceRow hrow
  have hrows : invoices.rows = db.invoices.rows ++ [r] := by
    rw [(Table.insert?_eq_some.mp hins).2, hnumbered.rest]
  have hid : r.merchantId = merchantId :=
    hmerchant.trans (beq_iff_eq.mp (Table.find?_some (merchant_of_price hprice)).2)
  have hspent : ∀ since, Invoices.spent { db₁ with invoices } merchantId since
      = Invoices.spent db merchantId since
        ++ counted since [⟨usdc, r.grossUsdcEquiv, item.now⟩] := by
    intro since
    simp only [Invoices.spent, counted, hrows, List.filter_append, List.map_append,
      List.append_cancel_left_eq]
    by_cases hsince : since ≤ item.now <;> simp [hid, hstatus, hcreated, hsince]
  refine ⟨⟨fun since => ?_, hnumbered.limits.trans h.limits, fun item' => ?_⟩, hrows⟩
  · rw [hspent, h.spent, List.append_assoc]
    simp only [counted, List.filter_append, List.map_append]
  · exact (hnumbered.charge? item').trans (h.charge item')

/-- The limits have room for each of the inputs next to those before it, and `earlier`. -/
def FitsAfter (env : CreateEnv) (db : Db) (merchantId : Uuid) :
    List Charge → List Charge → Prop
  | _, [] => True
  | earlier, c :: cs =>
    Fits env db merchantId earlier c ∧ FitsAfter env db merchantId (earlier ++ [c]) cs

theorem fitsAfter_iff : FitsAfter env db merchantId earlier cs ↔
    ∀ done c later, cs = done ++ c :: later → Fits env db merchantId (earlier ++ done) c := by
  induction cs generalizing earlier with
  | nil => simp [FitsAfter]
  | cons c cs ih =>
    rw [FitsAfter, ih]
    constructor
    · rintro ⟨hfits, hrest⟩ done c' later heq
      cases done with
      | nil =>
        obtain ⟨rfl, rfl⟩ := List.cons.inj heq
        rwa [List.append_nil]
      | cons d done =>
        obtain ⟨rfl, hcs⟩ := List.cons.inj heq
        have := hrest done c' later hcs
        rwa [List.append_assoc] at this
    · intro h
      refine ⟨?_, fun done c' later heq => ?_⟩
      · have := h [] c cs rfl
        rwa [List.append_nil] at this
      · rw [List.append_assoc]
        exact h (c :: done) c' later (by rw [heq]; rfl)

theorem fitsTogether_iff :
    FitsTogether env db merchantId cs ↔ FitsAfter env db merchantId [] cs := by
  rw [fitsAfter_iff]
  simp only [FitsTogether, List.nil_append]

/-- A call of `create` without a key. -/
theorem create_none_ok_iff {response : Response} :
    create env item.now item.id db merchantId item.input none = (.ok response, db') ↔
      ∃ q r, quote env item.now db merchantId item.input = .ok q ∧
        insertQuote env item.now item.id db none q = (.ok r, db') ∧ response = .invoice r := by
  unfold create
  simp only [Option.filter_none, Option.elim_none]
  cases hq : quote env item.now db merchantId item.input with
  | error e =>
    constructor
    · intro h
      cases h
    · rintro ⟨q, r, hq', -⟩
      cases hq'
  | ok q =>
    simp only
    rcases hinsert : insertQuote env item.now item.id db none q with ⟨_ | r, db₁⟩
    · constructor
      · intro h
        cases h
      · rintro ⟨q', r, hq', hr, -⟩
        cases hq'
        cases hinsert.symm.trans hr
    · constructor
      · intro h
        cases h
        exact ⟨q, r, rfl, hinsert, rfl⟩
      · rintro ⟨q', r', hq', hr, rfl⟩
        cases hq'
        cases hinsert.symm.trans hr
        rfl

theorem charges_cons {c : Charge} (h : charge? db merchantId item = some c) :
    charges db merchantId (item :: items) = c :: charges db merchantId items := by
  simp only [charges, List.filterMap_cons, h]

/-- **One by one**, every input fits next to those before it. -/
theorem createEach_spec {rs : List Response} (h : After db₀ merchantId earlier db)
    (hok : createEach env merchantId items db = (.ok rs, db')) :
    ∃ rows, Accepted env merchantId db items rows ∧
      FitsAfter env db₀ merchantId earlier (charges db₀ merchantId items) ∧
      db'.invoices.rows = db.invoices.rows ++ rows := by
  induction items generalizing db earlier rs with
  | nil =>
    cases hok
    exact ⟨[], .nil, trivial, (List.append_nil _).symm⟩
  | cons item items ih =>
    unfold createEach at hok
    split at hok
    · cases hok
    · next response db₁ hcreate =>
      obtain ⟨q, r, hq, hinsert, -⟩ := create_none_ok_iff.mp hcreate
      obtain ⟨usdc, hprice, hlimits⟩ := quote_ok_iff.mp hq
      obtain ⟨hafter, hrows⟩ := h.step hprice hinsert
      split at hok
      · cases hok
      · next rs' db₂ heach =>
        cases hok
        obtain ⟨rows, hacc, hfits, hrest⟩ := ih hafter heach
        refine ⟨r :: rows, .cons hprice hinsert hacc, ?_, ?_⟩
        · rw [charges_cons ((h.charge item).symm.trans (charge_of_insertQuote hprice hinsert))]
          exact ⟨(h.enforceSpendLimits_iff hprice).mp hlimits, hfits⟩
        · rw [hrest, hrows, List.append_assoc]
          rfl

theorem createEach_of_accepted (h : After db₀ merchantId earlier db)
    (hacc : Accepted env merchantId db items rows)
    (hfits : FitsAfter env db₀ merchantId earlier (charges db₀ merchantId items)) :
    ∃ rs db', createEach env merchantId items db = (.ok rs, db') := by
  induction hacc generalizing earlier with
  | nil => exact ⟨[], _, rfl⟩
  | cons hprice hinsert hacc ih =>
    next db db₁ item items rows q usdc r =>
    rw [charges_cons ((h.charge item).symm.trans (charge_of_insertQuote hprice hinsert))] at hfits
    obtain ⟨hafter, -⟩ := h.step hprice hinsert
    have hlimits := (h.enforceSpendLimits_iff hprice).mpr hfits.1
    have hcreate := create_none_ok_iff.mpr
      ⟨q, r, quote_ok_iff.mpr ⟨usdc, hprice, hlimits⟩, hinsert, rfl⟩
    obtain ⟨rs, db', heach⟩ := ih hafter hfits.2
    refine ⟨.invoice r :: rs, db', ?_⟩
    simp only [createEach, hcreate, heach]

/-- The rows do not depend on the limits. -/
theorem Accepted.eq (h : Accepted env merchantId db items rows)
    (h' : Accepted env merchantId db items rows') : rows = rows' := by
  induction h generalizing rows' with
  | nil =>
    cases h'
    rfl
  | cons hprice hinsert _ ih =>
    cases h' with
    | cons hprice' hinsert' hrest' =>
      cases hprice.symm.trans hprice'
      cases hinsert.symm.trans hinsert'
      rw [ih hrest']

end Each

/-! ## In one transaction -/

section Bulk

variable {env : CreateEnv} {start : Timestamp} {db db' db₀ dbₑ dbₑ' : Db} {merchantId : Uuid}
  {item : Item} {items : List Item} {rows : List Invoice} {tx tx' : Table Invoice} {q : Quote}
  {r : Invoice}

/-- A row goes into each of two tables that agree but for the times. -/
theorem insert?_unstamped {t t' t₁ : Table Invoice} {r r' : Invoice}
    (h : t.rows.map unstamped = t'.rows.map unstamped) (hins : t.insert? r = some t₁)
    (hr : unstamped r = unstamped r') :
    ∃ t₂, t'.insert? r' = some t₂ ∧
      t₁.rows.map unstamped = t.rows.map unstamped ++ [unstamped r] ∧
      t₁.rows.map unstamped = t₂.rows.map unstamped := by
  obtain ⟨hfree, hrows⟩ := Table.insert?_eq_some.mp hins
  -- the time is not a key
  have hkey : ∀ x : Invoice, Keyed.key (unstamped x) = Keyed.key x := fun _ => rfl
  have hfree' : ∀ x ∈ t'.rows, ¬ Keyed.Conflict x r' := by
    intro x hx hc
    obtain ⟨y, hy, heq⟩ := List.mem_map.mp (h ▸ List.mem_map_of_mem (f := unstamped) hx)
    refine hfree y hy ?_
    unfold Keyed.Conflict at hc ⊢
    rwa [← hkey y, heq, hkey, ← hkey r, hr, hkey]
  have hins' : t'.insert? r' = some ⟨t'.rows ++ [r'], _⟩ := dif_pos hfree'
  refine ⟨_, hins', by rw [hrows, List.map_append, List.map_singleton], ?_⟩
  rw [hrows, List.map_append, List.map_append, h, List.map_singleton, List.map_singleton, hr]

/-- The call amid its inputs, next to the database that calls of `create` would have left:
the pool does not have the rows. -/
structure Beside (db₀ : Db) (merchantId : Uuid) (db : Db) (tx : Table Invoice) (dbₑ : Db) :
    Prop where
  pool : After db₀ merchantId [] db
  rest : dbₑ = { db with invoices := dbₑ.invoices }
  rows : tx.rows.map unstamped = dbₑ.invoices.rows.map unstamped

/-- The price of an input does not depend on the invoices. -/
theorem Beside.price (h : Beside db₀ merchantId db tx dbₑ) (input : CreateInput) :
    price dbₑ merchantId input = Invoices.price db merchantId input := by
  rw [h.rest]
  rfl

/-- The charge of an input, before and after. -/
theorem Beside.charge {usdc : Int} (h : Beside db₀ merchantId db tx dbₑ)
    (hprice : Invoices.price dbₑ merchantId item.input = .ok (q, usdc))
    (hinsert : Invoices.insertQuote env item.now item.id dbₑ none q = (.ok r, dbₑ')) :
    charge? db₀ merchantId item = some ⟨usdc, r.grossUsdcEquiv, item.now⟩ := by
  rw [← h.pool.charge, ← charge_of_insertQuote hprice hinsert, h.rest]
  rfl

/-- To take a number leaves the limits and the prices alone. -/
theorem After.numbered (h : After db₀ merchantId [] db) (hn : Numbered db db') :
    After db₀ merchantId [] db' where
  spent since := by
    rw [← h.spent, hn.rest]
    rfl
  limits := hn.limits.trans h.limits
  charge item := (hn.charge? item).trans (h.charge item)

theorem Beside.insertOn (h : Beside db₀ merchantId db tx dbₑ)
    (hinsert : insertOn env item.now start item.id db tx none q = (.ok (r, tx'), db')) :
    ∃ r₁ dbₑ', insertQuote env item.now item.id dbₑ none q = (.ok r₁, dbₑ') ∧
      Beside db₀ merchantId db' tx' dbₑ' ∧
      tx'.rows.map unstamped = tx.rows.map unstamped ++ [unstamped r₁] := by
  obtain ⟨muxedId, address, r₁, hallocate, hrow, rfl, hins⟩ := insertOn_ok_iff.mp hinsert
  obtain ⟨invoices, hins', hrows, htables⟩ :=
    insert?_unstamped h.rows hins (show _ = unstamped r₁ from rfl)
  have hallocate' : allocate env dbₑ q.merchant
      = (.ok (muxedId, address), { db' with invoices := dbₑ.invoices }) := by
    rw [h.rest, allocate_invoices, hallocate]
  exact ⟨r₁, { db' with invoices },
    insertQuote_ok_iff.mpr ⟨muxedId, address, _, invoices, hallocate', hrow, hins', rfl⟩,
    ⟨h.pool.numbered (numbered_allocate hallocate), rfl, htables⟩, hrows⟩

theorem Beside.insertQuote (h : Beside db₀ merchantId db tx dbₑ) (start : Timestamp)
    (hinsert : insertQuote env item.now item.id dbₑ none q = (.ok r, dbₑ')) :
    ∃ r₁ tx' db', Invoices.insertOn env item.now start item.id db tx none q = (.ok (r₁, tx'), db') ∧
      Beside db₀ merchantId db' tx' dbₑ' := by
  obtain ⟨muxedId, address, dbₑ₁, invoices, hallocate, hrow, hins, rfl⟩ :=
    insertQuote_ok_iff.mp hinsert
  rw [h.rest, allocate_invoices] at hallocate
  obtain ⟨hnumber, rfl⟩ := Prod.mk.inj hallocate
  obtain ⟨db', hallocate'⟩ : ∃ db', allocate env db q.merchant = (.ok (muxedId, address), db') :=
    ⟨_, Prod.ext hnumber rfl⟩
  obtain ⟨tx', hins', -, htables⟩ :=
    insert?_unstamped (t := dbₑ.invoices) h.rows.symm hins
      (show _ = unstamped { r with createdAt := start } from rfl)
  rw [hallocate']
  exact ⟨_, tx', db', insertOn_ok_iff.mpr ⟨muxedId, address, r, hallocate', hrow, rfl, hins'⟩,
    ⟨h.pool.numbered (numbered_allocate hallocate'), rfl, htables.symm⟩⟩

/-- **In one transaction**, every input fits alone. -/
theorem bulkLoop_spec {rs : List Invoice} (h : Beside db₀ merchantId db tx dbₑ)
    (hok : bulkLoop env start merchantId items db tx = (.ok (rs, tx'), db')) :
    ∃ rows, Accepted env merchantId dbₑ items rows ∧
      FitsAlone env db₀ merchantId (charges db₀ merchantId items) ∧
      tx'.rows.map unstamped = tx.rows.map unstamped ++ rows.map unstamped := by
  induction items generalizing db tx dbₑ rs tx' with
  | nil =>
    cases hok
    exact ⟨[], .nil, by simp [FitsAlone, charges], (List.append_nil _).symm⟩
  | cons item items ih =>
    unfold bulkLoop at hok
    split at hok
    · cases hok
    · next q hq =>
      split at hok
      · cases hok
      · next r tx₁ db₁ hinsert =>
        obtain ⟨usdc, hprice, hlimits⟩ := quote_ok_iff.mp hq
        obtain ⟨r₁, dbₑ₁, hinsert', hbeside, hrows⟩ := h.insertOn hinsert
        have hprice' := (h.price item.input).trans hprice
        split at hok
        · cases hok
        · next rs' tx₂ db₂ hloop =>
          cases hok
          obtain ⟨rows, hacc, hfits, hrest⟩ := ih hbeside hloop
          refine ⟨r₁ :: rows, .cons hprice' hinsert' hacc, ?_, ?_⟩
          · rw [charges_cons (h.charge hprice' hinsert')]
            exact List.forall_mem_cons.mpr
              ⟨(h.pool.enforceSpendLimits_iff hprice).mp hlimits, hfits⟩
          · rw [hrest, hrows, List.append_assoc]
            rfl

theorem bulkLoop_of_accepted (h : Beside db₀ merchantId db tx dbₑ) (start : Timestamp)
    (hacc : Accepted env merchantId dbₑ items rows)
    (hfits : FitsAlone env db₀ merchantId (charges db₀ merchantId items)) :
    ∃ rs tx' db', bulkLoop env start merchantId items db tx = (.ok (rs, tx'), db') := by
  induction hacc generalizing db tx with
  | nil => exact ⟨[], tx, db, rfl⟩
  | cons hprice hinsert hacc ih =>
    next dbₑ dbₑ₁ item items rows q usdc r =>
    rw [charges_cons (h.charge hprice hinsert)] at hfits
    obtain ⟨hfit, hfits⟩ := List.forall_mem_cons.mp hfits
    have hprice' : Invoices.price db merchantId item.input = .ok (q, usdc) :=
      (h.price item.input).symm.trans hprice
    have hlimits := (h.pool.enforceSpendLimits_iff hprice').mpr hfit
    obtain ⟨r₁, tx₁, db₁, hinsert', hbeside⟩ := h.insertQuote start hinsert
    obtain ⟨rs, tx', db', hloop⟩ := ih hbeside hfits
    refine ⟨r₁ :: rs, tx', db', ?_⟩
    simp only [bulkLoop, quote_ok_iff.mpr ⟨usdc, hprice', hlimits⟩, hinsert', hloop]

end Bulk

/-! ## Both -/

section Agreement

variable {env : CreateEnv} {start : Timestamp} {db : Db} {merchantId : Uuid} {items : List Item}

theorem createBulk_spec {rs : List Invoice}
    (hok : (createBulk env start db merchantId items).1 = .ok rs) :
    ∃ rows, Accepted env merchantId db items rows ∧
      FitsAlone env db merchantId (charges db merchantId items) ∧
      (createBulk env start db merchantId items).2.invoices.rows.map unstamped
        = db.invoices.rows.map unstamped ++ rows.map unstamped := by
  have h : Beside db merchantId db db.invoices db := ⟨.refl db merchantId, rfl, rfl⟩
  unfold createBulk at hok ⊢
  split at hok
  · cases hok
  · next hlen =>
    rw [if_neg hlen]
    split at hok
    · cases hok
    · next results tx db' hloop =>
      exact bulkLoop_spec h hloop

theorem createBulk_of_accepted {rows : List Invoice} (hlen : 1 ≤ items.length ∧ items.length ≤ 100)
    (hacc : Accepted env merchantId db items rows)
    (hfits : FitsAlone env db merchantId (charges db merchantId items)) :
    ∃ rs, (createBulk env start db merchantId items).1 = .ok rs := by
  have h : Beside db merchantId db db.invoices db := ⟨.refl db merchantId, rfl, rfl⟩
  obtain ⟨rs, tx, db', hloop⟩ := bulkLoop_of_accepted h start hacc hfits
  refine ⟨rs, ?_⟩
  unfold createBulk
  rw [if_neg (by omega), hloop]

/-- **When the two agree**: an input fails another check, or the limits have room for the
inputs together if they have it for each of them. -/
theorem agrees_iff (h : 1 ≤ items.length ∧ items.length ≤ 100) :
    Agrees env start db merchantId items ↔
      ((∃ rows, Accepted env merchantId db items rows) →
        (FitsAlone env db merchantId (charges db merchantId items) ↔
          FitsTogether env db merchantId (charges db merchantId items))) := by
  have hafter := After.refl db merchantId
  -- what each of them needs beside the other checks
  have hbulk : ∀ rows, Accepted env merchantId db items rows →
      ((∃ rs, (createBulk env start db merchantId items).1 = .ok rs) ↔
        FitsAlone env db merchantId (charges db merchantId items)) := by
    refine fun rows hacc => ⟨?_, createBulk_of_accepted h hacc⟩
    rintro ⟨rs, hrs⟩
    obtain ⟨_, -, hfits, -⟩ := createBulk_spec hrs
    exact hfits
  have heach : ∀ rows, Accepted env merchantId db items rows →
      ((∃ rs, (createEach env merchantId items db).1 = .ok rs) ↔
        FitsTogether env db merchantId (charges db merchantId items)) := by
    intro rows hacc
    rw [fitsTogether_iff]
    constructor
    · rintro ⟨rs, hrs⟩
      obtain ⟨_, -, hfits, -⟩ := createEach_spec hafter (Prod.ext hrs rfl)
      exact hfits
    · intro hfits
      obtain ⟨rs, db', hok⟩ := createEach_of_accepted hafter hacc hfits
      exact ⟨rs, by rw [hok]⟩
  constructor
  · rintro ⟨hiff, -⟩ ⟨rows, hacc⟩
    rw [← hbulk rows hacc, ← heach rows hacc]
    exact hiff
  · intro hfits
    have hiff : (∃ rs, (createBulk env start db merchantId items).1 = .ok rs) ↔
        ∃ rs, (createEach env merchantId items db).1 = .ok rs := by
      constructor
      · rintro ⟨rs, hrs⟩
        obtain ⟨rows, hacc, halone, -⟩ := createBulk_spec hrs
        exact (heach rows hacc).mpr ((hfits ⟨rows, hacc⟩).mp halone)
      · rintro ⟨rs, hrs⟩
        obtain ⟨rows, hacc, htogether, -⟩ := createEach_spec hafter (Prod.ext hrs rfl)
        exact (hbulk rows hacc).mpr ((hfits ⟨rows, hacc⟩).mpr (fitsTogether_iff.mpr htogether))
    refine ⟨hiff, ?_⟩
    rintro ⟨rs, hrs⟩
    obtain ⟨rs', hrs'⟩ := hiff.mp ⟨rs, hrs⟩
    obtain ⟨rows, hacc, -, hrows⟩ := createBulk_spec hrs
    obtain ⟨rows', hacc', -, hrows'⟩ := createEach_spec hafter (Prod.ext hrs' rfl)
    rw [hrows, hrows', hacc.eq hacc', List.map_append]

/-- Two inputs of 10 USDC. -/
def tenTwice : List Item := [⟨0, 2, tenUsdc⟩, ⟨0, 3, tenUsdc⟩]

theorem agrees_iff_unlimited : (1 ≤ tenTwice.length ∧ tenTwice.length ≤ 100) ∧
    Agrees testEnv 0 testDb 1 tenTwice := by
  have hroom : ∀ earlier c, Fits testEnv testDb 1 earlier c := by
    rintro earlier c daily monthly hlimits
    cases hlimits
    exact ⟨nofun, nofun⟩
  refine ⟨by decide, (agrees_iff (by decide)).mpr fun _ => ?_⟩
  exact iff_of_true (fun c _ => hroom [] c) fun earlier c _ _ => hroom earlier c

/-- A daily limit of 25 USDC, of which 10.50 are spent. -/
def limitedDb : Db where
  merchants := testDb.merchants.modify (fun _ => true)
    (fun m => { m with dailySpendLimitUsdc := some ⟨250000000, by decide⟩ }) fun _ => rfl
  invoices := (Reconciler.seedDb (Reconciler.seedInvoice 9 99099)).invoices

/-- The limit has room for one of the two inputs: `createBulk` stores both, `create` refuses
the second one. -/
theorem bulk_beyond_limit : tenTwice.length = 2 ∧
    (∃ rs, (createBulk testEnv 0 limitedDb 1 tenTwice).1 = .ok rs) ∧
    ¬ (∃ rs, (createEach testEnv 1 tenTwice limitedDb).1 = .ok rs) ∧
    ¬ Agrees testEnv 0 limitedDb 1 tenTwice := by
  have hbulk : ∃ rs, (createBulk testEnv 0 limitedDb 1 tenTwice).1 = .ok rs := by
    have h : (createBulk testEnv 0 limitedDb 1 tenTwice).1.toOption.isSome = true := by
      decide +kernel
    cases hres : (createBulk testEnv 0 limitedDb 1 tenTwice).1 with
    | ok rs => exact ⟨rs, rfl⟩
    | error e => simp [hres, Except.toOption] at h
  have heach : ¬ ∃ rs, (createEach testEnv 1 tenTwice limitedDb).1 = .ok rs := by
    have h : (createEach testEnv 1 tenTwice limitedDb).1
        = .error (.badRequest "Daily spend limit exceeded") := by
      decide +kernel
    rw [h]
    rintro ⟨rs, ⟨⟩⟩
  exact ⟨rfl, hbulk, heach, fun hagrees => heach (hagrees.1.mp hbulk)⟩

end Agreement

end Stargate.Invoices
