import Stargate.Base.Sessions
import Stargate.Invoices.InvoiceSequence
import Stargate.Invoices.Lifecycle

/-!
# Concurrent calls of `create` and `createBulk`

Any number of calls run side by side, one statement at a time, next to requests that
cancel and expire invoices and register merchants. Every statement of `create` commits
by itself, except the `INSERT` of a call inside `createBulk`, which stays invisible
until the `COMMIT`. Any call may crash between two statements.

- `Pc`, `Pc.exec`: the statements of `create`, but the `INSERT`;
- `Tx`, `insertRow`, `commit`: the `INSERT`, and the transaction of `createBulk`;
- `program`: the calls and the other requests;
- `Leads`, `Moves`: what a statement, and a step, can do;
- `alone_create`: the statements of a lone call do what `create` does.
-/

namespace Stargate.CreateCalls

open Base Invoices

/-! ## The statements -/

/-- The arguments of `create`. -/
structure Args where
  merchantId : Uuid
  input : CreateInput
  key : Option String
  deriving DecidableEq

/-- The key, which an empty one is not. -/
def Args.key? (args : Args) : Option String := args.key.filter (· ≠ "")

/-- What the check of the limits has compared: the amount of the request, and the sums. -/
structure Checked where
  usdc : Int
  day : Option Int
  month : Option Int
  deriving DecidableEq

/-- A request after its conversion to USDC. -/
structure Priced where
  dto : CreateDto
  merchant : Merchant
  usdcEquivStr : String
  usdcEquiv : Int
  deriving DecidableEq

/-- The statement that a call is about to run. -/
inductive Pc where
  | checkKey (key : String)
  | findByKey (key : String)
  | findOne (dto : CreateDto)
  | toUsdc (dto : CreateDto) (merchant : Merchant)
  | sumDay (p : Priced)
  | sumMonth (p : Priced) (day : Option Int)
  | getRate (p : Priced) (check : Checked)
  | selectBase (q : Quote) (check : Checked)
  | countMerchants (q : Quote) (check : Checked)
  | updateBase (q : Quote) (check : Checked) (base : Int)
  | nextSequence (q : Quote) (check : Checked) (base : Int)
  | saveKey (key : String) (invoice : Invoice)
  deriving DecidableEq

/-- What a statement leads to. -/
inductive Next where
  | goto (pc : Pc)
  | insert (q : Quote) (check : Checked) (muxedId : Int)
  | done (response : Response)
  deriving DecidableEq

/-- One of the two limits of `enforceSpendLimits`, with the sum that it compares. -/
def readLimit (db : Db) (merchantId : Uuid) (limit : Option Numeric) (since : Timestamp)
    (usdcAmount : Int) (message : String) : Except ApiError (Option Int) :=
  match limit with
  | some limit => do
    let total ← toUnits (spentText db merchantId since)
    let limit ← toUnits limit.text
    if limit < total + usdcAmount then throw (.badRequest message)
    return some total
  | none => .ok none

/-- The amounts of an invoice, after the limits. -/
def amounts (db : Db) (p : Priced) : Except ApiError Quote := do
  checkBounds p.merchant p.usdcEquiv
  let amount ← toUnits p.dto.amount
  let fee ← calculateFee p.usdcEquiv p.merchant
  let gross := amount + (← feeInCurrency db fee p.dto.currency)
  let net := amount - (← fixedFeeUnits p.merchant)
  if net < 0 then
    throw (.badRequest
      "Invoice amount is less than the fixed fee; net payout would be negative")
  return ⟨p.dto, p.merchant, p.usdcEquivStr, amount, fee, gross, net⟩

/-- `MerchantsService.findOne(id)`. -/
def findOne (db : Db) (id : Uuid) : Option Merchant := db.merchants.find? fun m => m.id == id

/-- `SELECT COUNT(*) FROM merchants WHERE created_at <= (SELECT created_at ...)`, times
the size of a range. -/
def newBase (db : Db) (merchant : Merchant) : Int :=
  (db.merchants.rows.countP fun m => m.createdAt ≤ merchant.createdAt : Nat) * 16777216

/-- `UPDATE merchants SET muxed_base_id=$2 WHERE id=$1`. -/
def updateBase (db : Db) (id : Uuid) (base : Int) : Option Db :=
  if isBigint base then
    (db.merchants.update? (fun m => m.id == id) fun m => { m with muxedBaseId := some base }).map
      fun merchants => { db with merchants }
  else none

/-- Run one statement. -/
def Pc.exec (env : CreateEnv) (now : Timestamp) (args : Args) (db : Db) :
    Pc → Except ApiError Next × Db
  | .checkKey key =>
    (match Idempotency.check db args.merchantId key (env.hashBody args.input) with
      | .error e => .error e
      | .ok (some cached) => .ok (.done cached)
      | .ok none => .ok (.goto (.findByKey key)), db)
  | .findByKey key =>
    (match Invoices.findByKey db args.merchantId key with
      | some invoice => .ok (.done (.invoice invoice))
      | none => (parseCreate args.input).map fun dto => .goto (.findOne dto), db)
  | .findOne dto =>
    (match CreateCalls.findOne db args.merchantId with
      | none => .error (.notFound "Merchant not found")
      | some merchant =>
        if merchant.acceptedAssets.any fun assets => !assets.contains dto.currency.code then
          .error (.badRequest ("Merchant does not accept " ++ dto.currency.code))
        else .ok (.goto (.toUsdc dto merchant)), db)
  | .toUsdc dto merchant =>
    let usdcEquivStr := Invoices.toUsdc db dto.amount dto.currency
    ((toUnits usdcEquivStr).map fun usdcEquiv =>
      .goto (.sumDay ⟨dto, merchant, usdcEquivStr, usdcEquiv⟩), db)
  | .sumDay p =>
    ((readLimit db p.merchant.id p.merchant.dailySpendLimitUsdc (env.startOfDay now) p.usdcEquiv
      "Daily spend limit exceeded").map fun day => .goto (.sumMonth p day), db)
  | .sumMonth p day =>
    ((readLimit db p.merchant.id p.merchant.monthlySpendLimitUsdc (env.startOfMonth now)
      p.usdcEquiv "Monthly spend limit exceeded").map fun month =>
        .goto (.getRate p ⟨p.usdcEquiv, day, month⟩), db)
  | .getRate p check => ((amounts db p).map fun q => .goto (.selectBase q check), db)
  | .selectBase q check =>
    (.ok (match (CreateCalls.findOne db q.merchant.id).bind Merchant.muxedBaseId with
      | some base => .goto (.nextSequence q check base)
      | none => .goto (.countMerchants q check)), db)
  | .countMerchants q check =>
    (match CreateCalls.findOne db q.merchant.id with
      | some merchant => .ok (.goto (.updateBase q check (newBase db merchant)))
      | none => .error .library, db)
  | .updateBase q check base =>
    match CreateCalls.updateBase db q.merchant.id base with
    | some db => (.ok (.goto (.nextSequence q check base)), db)
    | none => (.error .database, db)
  | .nextSequence q check base =>
    match CreateCalls.findOne db q.merchant.id with
    | none => (.error .library, db)
    | some merchant =>
      match nextInvoiceSequence db merchant with
      | .ok (next, db) => (.ok (.insert q check (base + next)), db)
      | .error e => (.error e, db)
  | .saveKey key invoice =>
    (.ok (.done (.invoice invoice)),
      Idempotency.save db args.merchantId key (env.hashBody args.input) (.invoice invoice))

/-! ## The calls -/

/-- The transaction of a `createBulk`: its time, the rows that it has inserted with what
their checks had read, and the inputs that are left. -/
structure Tx where
  start : Timestamp
  rows : List (Checked × Invoice)
  rest : List CreateInput
  deriving DecidableEq

/-- Where a call stands. A `create` with a transaction is one of a `createBulk`. -/
inductive Call where
  | idle
  | running (args : Args) (tx : Option Tx) (pc : Pc)
  | inserting (args : Args) (tx : Option Tx) (q : Quote) (check : Checked) (muxedId : Int)
  | committing (merchantId : Uuid) (tx : Tx)
  | returned (args : Args) (response : Response)
  | returnedBulk (merchantId : Uuid) (rows : List Invoice)
  | threw (e : ApiError)
  | crashed
  deriving DecidableEq

/-- Nothing runs. -/
def Call.resting : Call → Bool
  | .running .. | .inserting .. | .committing .. => false
  | _ => true

/-- The rows that a call has inserted, but not committed. -/
def Call.pending : Call → List Invoice
  | .running _ (some tx) _ => tx.rows.map Prod.snd
  | .inserting _ (some tx) _ _ _ => tx.rows.map Prod.snd
  | .committing _ tx => tx.rows.map Prod.snd
  | _ => []

/-- `create` up to its first statement. -/
def enter (args : Args) (tx : Option Tx) : Call :=
  match args.key? with
  | some key => .running args tx (.checkKey key)
  | none =>
    match parseCreate args.input with
    | .ok dto => .running args tx (.findOne dto)
    | .error e => .threw e

/-- `createBulk` before its next input. -/
def nextInput (merchantId : Uuid) (tx : Tx) : Call :=
  match tx.rest with
  | [] => .committing merchantId tx
  | input :: rest => enter ⟨merchantId, input, none⟩ (some { tx with rest })

/-- `create` has a response. -/
def finish (args : Args) (tx : Option Tx) (response : Response) : Call :=
  match tx with
  | none => .returned args response
  | some tx => nextInput args.merchantId tx

def Next.call (args : Args) (tx : Option Tx) : Next → Call
  | .goto pc => .running args tx pc
  | .insert q check muxedId => .inserting args tx q check muxedId
  | .done response => finish args tx response

/-- The muxed id that a statement has computed. -/
def Next.numbers : Next → List Int
  | .insert _ _ muxedId => [muxedId]
  | _ => []

/-- The database; the muxed ids that were computed; and the bodies that the invoices were
made from. -/
structure World where
  db : Db
  numbers : List Int
  made : List (Uuid × CreateInput)

/-- Run a statement of a call. -/
def Pc.run (env : CreateEnv) (now : Timestamp) (w : World) (args : Args) (tx : Option Tx)
    (pc : Pc) : World × Call :=
  match pc.exec env now args w.db with
  | (.ok next, db) => ({ w with db, numbers := w.numbers ++ next.numbers }, next.call args tx)
  | (.error e, db) => ({ w with db }, .threw e)

/-- The row of an `INSERT`; in a transaction it gets the time of that. -/
def rowOf (env : CreateEnv) (now : Timestamp) (id : Uuid) (args : Args) (tx : Option Tx)
    (q : Quote) (muxedId : Int) : Option Invoice :=
  (invoiceRow now id args.key muxedId
    (Stellar.buildMuxedAddress Stellar.crc16 env.treasury muxedId.toNat) q).map fun r =>
      { r with createdAt := (tx.map Tx.start).getD r.createdAt }

/-- Clashes a row with one of these? -/
def clashes (rows : List Invoice) (r : Invoice) : Bool :=
  rows.any fun i => decide (Keyed.Conflict i r)

/-- The `INSERT`. It waits for a transaction that has inserted a row with the same key. -/
def insertRow (env : CreateEnv) (others : List Call) (now : Timestamp) (id : Uuid) (w : World)
    (args : Args) (tx : Option Tx) (q : Quote) (check : Checked) (muxedId : Int) :
    Option (World × Call) :=
  if muxedId < 0 then some (w, .threw .library)
  else
    match rowOf env now id args tx q muxedId with
    | none => some (w, .threw .database)
    | some r =>
      if others.any fun o => clashes o.pending r then none
      else
        let w' : World := { w with made := w.made ++ [(id, args.input)] }
        match tx with
        | some tx =>
          if clashes (w.db.invoices.rows ++ tx.rows.map Prod.snd) r then
            some (w, .threw .database)
          else some (w', nextInput args.merchantId { tx with rows := tx.rows ++ [(check, r)] })
        | none =>
          match w.db.invoices.insert? r with
          | none => some (w, .threw .database)
          | some invoices =>
            some ({ w' with db := { w.db with invoices } },
              match args.key? with
              | some key => .running args none (.saveKey key r)
              | none => .returned args (.invoice r))

/-- The `COMMIT`. -/
def commit (w : World) (merchantId : Uuid) (tx : Tx) : World × Call :=
  match (tx.rows.map Prod.snd).foldlM Table.insert? w.db.invoices with
  | some invoices =>
    ({ w with db := { w.db with invoices } }, .returnedBulk merchantId (tx.rows.map Prod.snd))
  | none => (w, .threw .database)

/-! ## The program -/

/-- What a call is given. -/
inductive Input where
  | create (args : Args)
  /-- `createBulk`, whose transaction begins at `start`. -/
  | createBulk (merchantId : Uuid) (inputs : List CreateInput) (start : Timestamp)
  /-- The clock, and a random id. -/
  | exec (now : Timestamp) (id : Uuid)
  | crash
  deriving DecidableEq

/-- The other requests and jobs. Their webhook deliveries are left out. -/
inductive Request where
  | cancel (merchantId id : Uuid)
  | expireInvoices (now : Timestamp)
  | autoCancelUnpaidInvoices (now : Timestamp)
  | register (id : Uuid) (name : String) (createdAt : Timestamp)
  deriving DecidableEq

theorem inRange_feeFixed : (2500000 : Int).natAbs < 10 ^ 18 := by decide

/-- The row of a new merchant: the defaults of its columns. -/
def newMerchant (id : Uuid) (name : String) (createdAt : Timestamp) : Merchant where
  id := id
  name := name
  tier := .standard
  feeBps := 50
  feeFixedUsdc := ⟨2500000, inRange_feeFixed⟩
  muxedBaseId := none
  invoiceSeq := 0
  minInvoiceUsdc := none
  maxInvoiceUsdc := none
  dailySpendLimitUsdc := none
  monthlySpendLimitUsdc := none
  acceptedAssets := none
  settlementScheduledAt := none
  unpaidInvoiceTtlMinutes := 60
  testMode := false
  createdAt := createdAt

def Request.exec (db : Db) : Request → Option Db
  | .cancel merchantId id => some (setStatus db (isCancelled merchantId id) .cancelled)
  | .expireInvoices now => some (setStatus db (isExpired now) .expired)
  | .autoCancelUnpaidInvoices now => some (setStatus db (isUnpaid db now) .cancelled)
  | .register id name createdAt =>
    (db.merchants.insert? (newMerchant id name createdAt)).map fun merchants =>
      { db with merchants }

/-- Any number of calls, beside the other requests. -/
def program (env : CreateEnv) : Program World Call Input Request where
  exec others
    | .create args, w, c => if c.resting then some (w, enter args none) else none
    | .createBulk merchantId inputs start, w, c =>
      if c.resting then
        if inputs.length = 0 ∨ 100 < inputs.length then
          some (w, .threw (.badRequest "Provide between 1 and 100 invoices"))
        else some (w, nextInput merchantId ⟨start, [], inputs⟩)
      else none
    | .exec now _, w, .running args tx pc => some (pc.run env now w args tx)
    | .exec now id, w, .inserting args tx q check muxedId =>
      insertRow env others now id w args tx q check muxedId
    | .exec _ _, w, .committing merchantId tx => some (commit w merchantId tx)
    | .crash, w, c => if c.resting then none else some (w, .crashed)
    | _, _, _ => none
  env r w := (r.exec w.db).map fun db => { w with db }

/-- Nobody has called yet. -/
def idle (db : Db) (n : Nat) : Program.Sys World Call n where
  db := ⟨db, [], []⟩
  calls _ := .idle

/-! ## A lone call -/

section Alone

variable {env : CreateEnv} {now : Timestamp} {id : Uuid} {w : World} {args : Args}
  {tx : Option Tx} {dto : CreateDto} {q : Quote} {check : Checked}

/-- Statements of a call that nothing interleaves with. -/
def Alone (env : CreateEnv) (now : Timestamp) (id : Uuid) :
    World × Call → World × Call → Prop :=
  Relation.ReflTransGen fun s s' => (program env).exec [] (.exec now id) s.1 s.2 = some s'

/-- How a call of `create` ends. -/
def Call.ofResult (args : Args) : Except ApiError Response → Call
  | .ok response => .returned args response
  | .error e => .threw e

theorem alone_run (pc : Pc) :
    Alone env now id (w, .running args tx pc) (pc.run env now w args tx) := .single rfl

theorem enforceLimit_eq (db : Db) (merchantId : Uuid) (limit : Option Numeric)
    (since : Timestamp) (usdcAmount : Int) (message : String) :
    enforceLimit db merchantId limit since usdcAmount message
      = (readLimit db merchantId limit since usdcAmount message).map fun _ => () := by
  unfold enforceLimit readLimit
  cases limit with
  | none => rfl
  | some limit =>
    dsimp only
    cases toUnits (spentText db merchantId since) with
    | error e => rfl
    | ok total =>
      cases toUnits limit.text with
      | error e => rfl
      | ok bound =>
        simp only [bind, Except.bind]
        split <;> rfl

/-- `quote` for a request that was parsed. -/
theorem quote_eq (hparse : parseCreate args.input = .ok dto) :
    quote env now w.db args.merchantId args.input = (do
      let some merchant := findOne w.db args.merchantId | throw (.notFound "Merchant not found")
      if merchant.acceptedAssets.any fun assets => !assets.contains dto.currency.code then
        throw (.badRequest ("Merchant does not accept " ++ dto.currency.code))
      let usdcEquiv ← toUnits (toUsdc w.db dto.amount dto.currency)
      let _ ← readLimit w.db merchant.id merchant.dailySpendLimitUsdc (env.startOfDay now)
        usdcEquiv "Daily spend limit exceeded"
      let _ ← readLimit w.db merchant.id merchant.monthlySpendLimitUsdc (env.startOfMonth now)
        usdcEquiv "Monthly spend limit exceeded"
      amounts w.db ⟨dto, merchant, toUsdc w.db dto.amount dto.currency, usdcEquiv⟩) := by
  unfold quote findOne
  rw [hparse]
  simp only [bind, Except.bind]
  cases w.db.merchants.find? fun m => m.id == args.merchantId with
  | none => rfl
  | some m =>
    dsimp only
    split
    · rfl
    · cases toUnits (toUsdc w.db dto.amount dto.currency) with
      | error e => rfl
      | ok u =>
        simp only [enforceSpendLimits, enforceLimit_eq]
        cases readLimit w.db m.id m.dailySpendLimitUsdc (env.startOfDay now) u
          "Daily spend limit exceeded" with
        | error e => rfl
        | ok day =>
          cases readLimit w.db m.id m.monthlySpendLimitUsdc (env.startOfMonth now) u
            "Monthly spend limit exceeded" with
          | error e => rfl
          | ok month => rfl


theorem alone_goto {pc : Pc} (pc' : Pc) (h : pc.exec env now args w.db = (.ok (.goto pc'), w.db)) :
    Alone env now id (w, .running args tx pc) (w, .running args tx pc') := by
  refine .single ?_
  simp only [program, Pc.run, h, Next.call, Next.numbers, List.append_nil]

theorem alone_threw {pc : Pc} {e : ApiError} (h : pc.exec env now args w.db = (.error e, w.db)) :
    Alone env now id (w, .running args tx pc) (w, .threw e) := by
  refine .single ?_
  simp only [program, Pc.run, h]

/-- Where a call is after `quote`. -/
def Call.ofQuote (args : Args) (tx : Option Tx) (check : Checked) : Except ApiError Quote → Call
  | .ok q => .running args tx (.selectBase q check)
  | .error e => .threw e

/-- A call that has parsed its request computes its amounts, or fails as `quote` does. -/
theorem alone_quote (env : CreateEnv) (now : Timestamp) (id : Uuid) (w : World)
    (tx : Option Tx) (hparse : parseCreate args.input = .ok dto) : ∃ check,
    Alone env now id (w, .running args tx (.findOne dto))
      (w, .ofQuote args tx check (quote env now w.db args.merchantId args.input)) := by
  have hnone : Checked := ⟨0, none, none⟩
  rw [quote_eq hparse]
  cases hfind : findOne w.db args.merchantId with
  | none => exact ⟨hnone, alone_threw (by simp only [Pc.exec, hfind])⟩
  | some m =>
  dsimp only
  by_cases hasset : (m.acceptedAssets.any fun assets => !assets.contains dto.currency.code) = true
  · rw [if_pos hasset]
    exact ⟨hnone, alone_threw (by simp only [Pc.exec, hfind, hasset, if_true])⟩
  rw [if_neg hasset]
  have h₁ : Alone env now id (w, .running args tx (.findOne dto))
      (w, .running args tx (.toUsdc dto m)) :=
    alone_goto _ (by simp only [Pc.exec, hfind, hasset]; rfl)
  cases husdc : toUnits (toUsdc w.db dto.amount dto.currency) with
  | error e =>
    exact ⟨hnone, h₁.trans (alone_threw (by simp only [Pc.exec, husdc, Except.map]))⟩
  | ok usdcEquiv =>
  have h₂ := h₁.trans (alone_goto
    (.sumDay ⟨dto, m, toUsdc w.db dto.amount dto.currency, usdcEquiv⟩)
    (by simp only [Pc.exec, husdc, Except.map]))
  simp only [bind, Except.bind]
  cases hday : readLimit w.db m.id m.dailySpendLimitUsdc (env.startOfDay now) usdcEquiv
      "Daily spend limit exceeded" with
  | error e => exact ⟨hnone, h₂.trans (alone_threw (by simp only [Pc.exec, hday, Except.map]))⟩
  | ok day =>
  have h₃ := h₂.trans (alone_goto
    (.sumMonth ⟨dto, m, toUsdc w.db dto.amount dto.currency, usdcEquiv⟩ day)
    (by simp only [Pc.exec, hday, Except.map]))
  cases hmonth : readLimit w.db m.id m.monthlySpendLimitUsdc (env.startOfMonth now) usdcEquiv
      "Monthly spend limit exceeded" with
  | error e => exact ⟨hnone, h₃.trans (alone_threw (by simp only [Pc.exec, hmonth, Except.map]))⟩
  | ok month =>
  have h₄ := h₃.trans (alone_goto
    (.getRate ⟨dto, m, toUsdc w.db dto.amount dto.currency, usdcEquiv⟩ ⟨usdcEquiv, day, month⟩)
    (by simp only [Pc.exec, hmonth, Except.map]))
  dsimp only
  cases hq : amounts w.db ⟨dto, m, toUsdc w.db dto.amount dto.currency, usdcEquiv⟩ with
  | error e => exact ⟨hnone, h₄.trans (alone_threw (by simp only [Pc.exec, hq, Except.map]))⟩
  | ok q =>
    exact ⟨⟨usdcEquiv, day, month⟩,
      h₄.trans (alone_goto _ (by simp only [Pc.exec, hq, Except.map]))⟩

theorem findOne_of_mem {db : Db} {m : Merchant} (hm : m ∈ db.merchants) :
    findOne db m.id = some m := by
  cases hfind : findOne db m.id with
  | none =>
    have := List.find?_eq_none.mp hfind m hm
    simp at this
  | some m' =>
    obtain ⟨hm', hid⟩ := Table.find?_some hfind
    rw [eq_of_id hm' hm (beq_iff_eq.mp hid)]

/-- Where a call is after `allocate`. -/
def Call.ofNumber (args : Args) (tx : Option Tx) (q : Quote) (check : Checked) :
    Except ApiError (Int × String) → Call
  | .ok (muxedId, _) => .inserting args tx q check muxedId
  | .error e => .threw e

/-- A base that was written fits its column, and no merchant has it. -/
theorem updateBase_eq_some {db db' : Db} {id : Uuid} {base : Int} :
    updateBase db id base = some db' ↔ isBigint base = true ∧ ∃ merchants,
      (db.merchants.update? (fun m => m.id == id) fun m => { m with muxedBaseId := some base })
        = some merchants ∧ { db with merchants } = db' := by
  unfold updateBase
  by_cases hbig : isBigint base = true
  · rw [if_pos hbig, Option.map_eq_some_iff, and_iff_right hbig]
  · rw [if_neg hbig]
    exact iff_of_false (fun h => by cases h) fun h => hbig h.1

/-- The merchants after that. -/
theorem rows_of_updateBase {db db' : Db} {id : Uuid} {base : Int}
    (h : updateBase db id base = some db') : db'.merchants.rows
      = db.merchants.rows.map fun m =>
        if m.id == id then { m with muxedBaseId := some base } else m := by
  obtain ⟨-, merchants, hupdate, rfl⟩ := updateBase_eq_some.mp h
  exact Table.rows_of_update? hupdate

theorem ensureMuxedBase_of_update {db db' : Db} {m : Merchant} (hbase : m.muxedBaseId = none)
    (h : updateBase db m.id (newBase db m) = some db') :
    ensureMuxedBase db m = .ok (newBase db m, db') := by
  obtain ⟨hbig, merchants, hupd, rfl⟩ := updateBase_eq_some.mp h
  unfold newBase at hupd hbig ⊢
  simp only [ensureMuxedBase, hbase, hupd, hbig, if_true]

theorem ensureMuxedBase_of_no_update {db : Db} {m : Merchant} (hbase : m.muxedBaseId = none)
    (h : updateBase db m.id (newBase db m) = none) : ensureMuxedBase db m = .error .database := by
  unfold updateBase at h
  split at h
  · next hbig =>
    have hupd := Option.map_eq_none_iff.mp h
    unfold newBase at hupd
    simp only [ensureMuxedBase, hbase, hupd]
  · next hbig =>
    unfold newBase at hbig
    simp only [ensureMuxedBase, hbase]
    split
    · rw [if_neg hbig]
    · rfl

/-- With its base, a call goes on to the counter. -/
theorem alone_nextSequence {base : Int} {m : Merchant} {db₀ : Db} (hm : m ∈ w.db.merchants)
    (hid : m.id = q.merchant.id)
    (hsame : nextInvoiceSequence w.db m = nextInvoiceSequence w.db q.merchant)
    (hbase : ensureMuxedBase db₀ q.merchant = .ok (base, w.db)) :
    ∃ w', Alone env now id (w, .running args tx (.nextSequence q check base))
      (w', .ofNumber args tx q check (allocate env db₀ q.merchant).1) ∧
      w'.db = (allocate env db₀ q.merchant).2 := by
  have hfind := findOne_of_mem hm
  rw [hid] at hfind
  unfold allocate
  rw [hbase]
  dsimp only
  rw [← hsame]
  cases hnext : nextInvoiceSequence w.db m with
  | error e => exact ⟨w, alone_threw (by simp only [Pc.exec, hfind, hnext]), rfl⟩
  | ok res =>
    obtain ⟨next, db⟩ := res
    have hstep : Alone env now id (w, .running args tx (.nextSequence q check base))
        ({ w with db, numbers := w.numbers ++ [base + next] },
          .inserting args tx q check (base + next)) := by
      refine .single ?_
      simp only [program, Pc.run, Pc.exec, hfind, hnext, Next.call, Next.numbers]
    dsimp only
    split
    · next hneg =>
      -- no address: the call fails at its `INSERT`
      refine ⟨{ w with db, numbers := w.numbers ++ [base + next] },
        hstep.trans (.single ?_), rfl⟩
      simp only [program, insertRow, hneg, if_true, Call.ofNumber]
    · exact ⟨_, hstep, rfl⟩

theorem alone_updateBase {base : Int} :
    Alone env now id (w, .running args tx (.updateBase q check base))
      (match updateBase w.db q.merchant.id base with
        | some db => ({ w with db }, .running args tx (.nextSequence q check base))
        | none => (w, .threw .database)) := by
  cases hupdate : updateBase w.db q.merchant.id base with
  | none => exact alone_threw (by simp only [Pc.exec, hupdate])
  | some db =>
    refine .single ?_
    simp only [program, Pc.run, Pc.exec, hupdate, Next.call, Next.numbers, List.append_nil]

/-- From its amounts on, a call takes a number as `allocate` does. -/
theorem alone_allocate (env : CreateEnv) (now : Timestamp) (id : Uuid) (args : Args)
    (tx : Option Tx) (check : Checked) (hm : q.merchant ∈ w.db.merchants) :
    ∃ w', Alone env now id (w, .running args tx (.selectBase q check))
      (w', .ofNumber args tx q check (allocate env w.db q.merchant).1) ∧
      w'.db = (allocate env w.db q.merchant).2 := by
  have hfind := findOne_of_mem hm
  cases hbase : q.merchant.muxedBaseId with
  | some base =>
    have hok : ensureMuxedBase w.db q.merchant = .ok (base, w.db) := by
      simp only [ensureMuxedBase, hbase]
    obtain ⟨w', hrun, hdb⟩ := alone_nextSequence hm rfl rfl hok
    refine ⟨w', .trans (alone_goto _ ?_) hrun, hdb⟩
    simp only [Pc.exec, hfind, Option.bind_some, hbase]
  | none =>
    have h₁ : Alone env now id (w, .running args tx (.selectBase q check))
        (w, .running args tx (.countMerchants q check)) := by
      refine alone_goto _ ?_
      simp only [Pc.exec, hfind, Option.bind_some, hbase]
    have h₂ : Alone env now id (w, .running args tx (.selectBase q check))
        (w, .running args tx (.updateBase q check (newBase w.db q.merchant))) := by
      refine h₁.trans (alone_goto _ ?_)
      simp only [Pc.exec, hfind]
    have h₃ := h₂.trans alone_updateBase
    cases hupdate : updateBase w.db q.merchant.id (newBase w.db q.merchant) with
    | none =>
      rw [hupdate] at h₃
      unfold allocate
      rw [ensureMuxedBase_of_no_update hbase hupdate]
      exact ⟨w, h₃, rfl⟩
    | some db =>
      rw [hupdate] at h₃
      have hok := ensureMuxedBase_of_update hbase hupdate
      have hsame : nextInvoiceSequence db
          { q.merchant with muxedBaseId := some (newBase w.db q.merchant) }
            = nextInvoiceSequence db q.merchant := by
        unfold nextInvoiceSequence
        rfl
      obtain ⟨w', hrun, hdb⟩ :=
        alone_nextSequence (w := { w with db }) (mem_ensureMuxedBase hm hok) rfl hsame hok
      exact ⟨w', h₃.trans hrun, hdb⟩

theorem address_of_allocate {db db' : Db} {m : Merchant} {muxedId : Int} {address : String}
    (h : allocate env db m = (.ok (muxedId, address), db')) :
    ¬ muxedId < 0 ∧
      address = Stellar.buildMuxedAddress Stellar.crc16 env.treasury muxedId.toNat := by
  unfold allocate at h
  split at h
  · cases h
  · split at h
    · cases h
    · dsimp only at h
      split at h
      · cases h
      · next hpos =>
        cases h
        exact ⟨hpos, rfl⟩

theorem rowOf_none {muxedId : Int} : rowOf env now id args none q muxedId
    = invoiceRow now id args.key muxedId
        (Stellar.buildMuxedAddress Stellar.crc16 env.treasury muxedId.toNat) q := by
  unfold rowOf
  cases invoiceRow now id args.key muxedId
    (Stellar.buildMuxedAddress Stellar.crc16 env.treasury muxedId.toNat) q <;> rfl

/-- The statement that stores the row. -/
theorem alone_insert {muxedId : Int} {w' : World} {c : Call}
    (hstep : insertRow env [] now id w args tx q check muxedId = some (w', c)) :
    Alone env now id (w, .inserting args tx q check muxedId) (w', c) := by
  refine .single ?_
  dsimp only [program]
  exact hstep

/-- From its amounts on, a call stores its row as `insertQuote` does. -/
theorem alone_insertQuote (env : CreateEnv) (now : Timestamp) (id : Uuid) (args : Args)
    (check : Checked) (hm : q.merchant ∈ w.db.merchants) :
    ∃ w', Alone env now id (w, .running args none (.selectBase q check))
      (w', match (insertQuote env now id w.db args.key q).1 with
        | .ok r => match args.key? with
          | some key => .running args none (.saveKey key r)
          | none => .returned args (.invoice r)
        | .error e => .threw e) ∧
      w'.db = (insertQuote env now id w.db args.key q).2 := by
  obtain ⟨w₁, hrun, hdb⟩ := alone_allocate env now id args none check hm
  rw [insertQuote_eq]
  cases hallocate : allocate env w.db q.merchant with
  | mk number db =>
    rw [hallocate] at hrun hdb
    cases number with
    | error e => exact ⟨w₁, hrun, hdb⟩
    | ok number =>
      obtain ⟨muxedId, address⟩ := number
      obtain ⟨hpos, rfl⟩ := address_of_allocate hallocate
      dsimp only at hdb ⊢
      subst hdb
      cases hrow : rowOf env now id args none q muxedId with
      | none =>
        have hstep : insertRow env [] now id w₁ args none q check muxedId
            = some (w₁, .threw .database) := by
          simp only [insertRow, hpos, if_false, hrow]
        rw [rowOf_none] at hrow
        rw [hrow]
        exact ⟨w₁, hrun.trans (alone_insert hstep), rfl⟩
      | some r =>
        have hrow' := hrow
        rw [rowOf_none] at hrow'
        rw [hrow']
        dsimp only
        cases hins : w₁.db.invoices.insert? r with
        | none =>
          have hstep : insertRow env [] now id w₁ args none q check muxedId
              = some (w₁, .threw .database) := by
            simp only [insertRow, hpos, if_false, hrow, List.any_nil, hins, Bool.false_eq_true]
          exact ⟨w₁, hrun.trans (alone_insert hstep), rfl⟩
        | some invoices =>
          have hstep : insertRow env [] now id w₁ args none q check muxedId
              = some ({ w₁ with
                  db := { w₁.db with invoices }, made := w₁.made ++ [(id, args.input)] },
                match args.key? with
                | some key => .running args none (.saveKey key r)
                | none => .returned args (.invoice r)) := by
            simp only [insertRow, hpos, if_false, hrow, List.any_nil, hins, Bool.false_eq_true]
          exact ⟨_, hrun.trans (alone_insert hstep), rfl⟩

/-- `create` after the lookups of the key. -/
def createNew (env : CreateEnv) (now : Timestamp) (id : Uuid) (db : Db) (args : Args) :
    Except ApiError Response × Db :=
  match quote env now db args.merchantId args.input with
  | .error e => (.error e, db)
  | .ok q =>
    match insertQuote env now id db args.key q with
    | (.error e, db) => (.error e, db)
    | (.ok invoice, db) =>
      (.ok (.invoice invoice), args.key?.elim db fun key =>
        Idempotency.save db args.merchantId key (env.hashBody args.input) (.invoice invoice))

theorem create_eq (db : Db) (args : Args) :
    create env now id db args.merchantId args.input args.key
      = match args.key?.elim (.ok none) (replay env db args.merchantId args.input) with
        | .error e => (.error e, db)
        | .ok (some response) => (.ok response, db)
        | .ok none => createNew env now id db args := by
  unfold create createNew
  rfl

/-- A call without a response under its key. -/
theorem alone_createNew (env : CreateEnv) (now : Timestamp) (id : Uuid) (w : World)
    (args : Args) :
    ∃ w', Alone env now id
      (w, match parseCreate args.input with
        | .ok dto => .running args none (.findOne dto)
        | .error e => .threw e)
      (w', .ofResult args (createNew env now id w.db args).1) ∧
      w'.db = (createNew env now id w.db args).2 := by
  unfold createNew
  cases hparse : parseCreate args.input with
  | error e =>
    have hquote : quote env now w.db args.merchantId args.input = .error e := by
      unfold quote
      rw [hparse]
      rfl
    rw [hquote]
    exact ⟨w, .refl, rfl⟩
  | ok dto =>
    obtain ⟨check, hrun⟩ := alone_quote env now id w none hparse
    cases hquote : quote env now w.db args.merchantId args.input with
    | error e =>
      rw [hquote] at hrun
      exact ⟨w, hrun, rfl⟩
    | ok q =>
      rw [hquote] at hrun
      obtain ⟨w₁, hrun₁, hdb⟩ := alone_insertQuote env now id args check
        (merchant_of_quote hquote).1
      dsimp only
      cases hins : insertQuote env now id w.db args.key q with
      | mk res db =>
      rw [hins] at hrun₁ hdb
      cases res with
      | error e => exact ⟨w₁, hrun.trans hrun₁, hdb⟩
      | ok r =>
        dsimp only at hrun₁ hdb ⊢
        subst hdb
        cases hkey : args.key? with
        | none =>
          rw [hkey] at hrun₁
          exact ⟨w₁, hrun.trans hrun₁, rfl⟩
        | some key =>
          rw [hkey] at hrun₁
          exact ⟨_, (hrun.trans hrun₁).trans (alone_run _), rfl⟩

/-- **The call is its statements.** -/
theorem alone_create (env : CreateEnv) (now : Timestamp) (id : Uuid) (w : World) (args : Args) :
    ∃ w', Alone env now id (w, enter args none)
      (w', .ofResult args (create env now id w.db args.merchantId args.input args.key).1) ∧
      w'.db = (create env now id w.db args.merchantId args.input args.key).2 := by
  obtain ⟨w₁, hrun, hdb⟩ := alone_createNew env now id w args
  rw [create_eq]
  unfold enter
  cases hkey : args.key? with
  | none => exact ⟨w₁, hrun, hdb⟩
  | some key =>
    dsimp only [Option.elim_some]
    cases hcheck : Idempotency.check w.db args.merchantId key (env.hashBody args.input) with
    | error e =>
      simp only [replay, hcheck]
      exact ⟨w, alone_threw (by simp only [Pc.exec, hcheck]), rfl⟩
    | ok cached =>
      cases cached with
      | some cached =>
        simp only [replay, hcheck]
        refine ⟨w, .single ?_, rfl⟩
        simp only [program, Pc.run, Pc.exec, hcheck, Next.call, Next.numbers, List.append_nil]
        rfl
      | none =>
        have hlookup : Alone env now id (w, .running args none (.checkKey key))
            (w, .running args none (.findByKey key)) :=
          alone_goto _ (by simp only [Pc.exec, hcheck])
        simp only [replay, hcheck]
        cases hfind : findByKey w.db args.merchantId key with
        | some r =>
          refine ⟨w, hlookup.trans (.single ?_), rfl⟩
          simp only [program, Pc.run, Pc.exec, hfind, Next.call, Next.numbers, List.append_nil]
          rfl
        | none =>
          refine ⟨w₁, hlookup.trans (.head ?_ hrun), hdb⟩
          simp only [program, Pc.run, Pc.exec, hfind]
          cases parseCreate args.input with
          | error e => rfl
          | ok dto => simp [Except.map, Next.call, Next.numbers]

end Alone

/-! ## What a statement can do -/

section Leads

variable {env : CreateEnv} {now : Timestamp} {args : Args} {db db' : Db} {pc : Pc} {next : Next}
  {e : ApiError}

/-- The outcomes of a statement that succeeds. -/
inductive Leads (env : CreateEnv) (now : Timestamp) (args : Args) (db : Db) :
    Pc → Next → Db → Prop
  | replayed {key : String} {cached : Response}
      (hcheck : Idempotency.check db args.merchantId key (env.hashBody args.input)
        = .ok (some cached)) :
      Leads env now args db (.checkKey key) (.done cached) db
  | unused {key : String}
      (hcheck : Idempotency.check db args.merchantId key (env.hashBody args.input) = .ok none) :
      Leads env now args db (.checkKey key) (.goto (.findByKey key)) db
  | found {key : String} {invoice : Invoice}
      (hfind : findByKey db args.merchantId key = some invoice) :
      Leads env now args db (.findByKey key) (.done (.invoice invoice)) db
  | notFound {key : String} {dto : CreateDto} (hfind : findByKey db args.merchantId key = none)
      (hparse : parseCreate args.input = .ok dto) :
      Leads env now args db (.findByKey key) (.goto (.findOne dto)) db
  | merchant {dto : CreateDto} {m : Merchant} (hfind : findOne db args.merchantId = some m) :
      Leads env now args db (.findOne dto) (.goto (.toUsdc dto m)) db
  | priced {dto : CreateDto} {m : Merchant} {usdcEquiv : Int}
      (husdc : toUnits (toUsdc db dto.amount dto.currency) = .ok usdcEquiv) :
      Leads env now args db (.toUsdc dto m)
        (.goto (.sumDay ⟨dto, m, toUsdc db dto.amount dto.currency, usdcEquiv⟩)) db
  | day {p : Priced} {day : Option Int}
      (hread : readLimit db p.merchant.id p.merchant.dailySpendLimitUsdc (env.startOfDay now)
        p.usdcEquiv "Daily spend limit exceeded" = .ok day) :
      Leads env now args db (.sumDay p) (.goto (.sumMonth p day)) db
  | month {p : Priced} {day month : Option Int}
      (hread : readLimit db p.merchant.id p.merchant.monthlySpendLimitUsdc (env.startOfMonth now)
        p.usdcEquiv "Monthly spend limit exceeded" = .ok month) :
      Leads env now args db (.sumMonth p day) (.goto (.getRate p ⟨p.usdcEquiv, day, month⟩)) db
  | quoted {p : Priced} {check : Checked} {q : Quote} (hq : amounts db p = .ok q) :
      Leads env now args db (.getRate p check) (.goto (.selectBase q check)) db
  | based {q : Quote} {check : Checked} {base : Int}
      (hbase : (findOne db q.merchant.id).bind Merchant.muxedBaseId = some base) :
      Leads env now args db (.selectBase q check) (.goto (.nextSequence q check base)) db
  | unbased {q : Quote} {check : Checked}
      (hbase : (findOne db q.merchant.id).bind Merchant.muxedBaseId = none) :
      Leads env now args db (.selectBase q check) (.goto (.countMerchants q check)) db
  | counted {q : Quote} {check : Checked} {m : Merchant}
      (hfind : findOne db q.merchant.id = some m) :
      Leads env now args db (.countMerchants q check) (.goto (.updateBase q check (newBase db m)))
        db
  | updated {q : Quote} {check : Checked} {base : Int} {db' : Db}
      (hupdate : updateBase db q.merchant.id base = some db') :
      Leads env now args db (.updateBase q check base) (.goto (.nextSequence q check base)) db'
  | numbered {q : Quote} {check : Checked} {base next : Int} {m : Merchant} {db' : Db}
      (hfind : findOne db q.merchant.id = some m)
      (hnext : nextInvoiceSequence db m = .ok (next, db')) :
      Leads env now args db (.nextSequence q check base) (.insert q check (base + next)) db'
  | saved {key : String} {invoice : Invoice} :
      Leads env now args db (.saveKey key invoice) (.done (.invoice invoice))
        (Idempotency.save db args.merchantId key (env.hashBody args.input) (.invoice invoice))

theorem map_eq_ok {ε α β : Type} {x : Except ε α} {f : α → β} {b : β} :
    x.map f = .ok b ↔ ∃ a, x = .ok a ∧ f a = b := by
  cases x <;> simp [Except.map]

/-- **What a statement leads to.** -/
theorem leads_of_exec (h : pc.exec env now args db = (.ok next, db')) :
    Leads env now args db pc next db' := by
  cases pc with
  | checkKey key =>
    obtain ⟨hres, rfl⟩ := Prod.mk.inj h
    split at hres
    · cases hres
    · next cached hcheck =>
      cases hres
      exact .replayed hcheck
    · next hcheck =>
      cases hres
      exact .unused hcheck
  | findByKey key =>
    obtain ⟨hres, rfl⟩ := Prod.mk.inj h
    split at hres
    · next invoice hfind =>
      cases hres
      exact .found hfind
    · next hfind =>
      obtain ⟨dto, hparse, rfl⟩ := map_eq_ok.mp hres
      exact .notFound hfind hparse
  | findOne dto =>
    obtain ⟨hres, rfl⟩ := Prod.mk.inj h
    split at hres
    · cases hres
    · next m hfind =>
      split at hres
      · cases hres
      · cases hres
        exact .merchant hfind
  | toUsdc dto merchant =>
    obtain ⟨hres, rfl⟩ := Prod.mk.inj h
    obtain ⟨usdcEquiv, husdc, rfl⟩ := map_eq_ok.mp hres
    exact .priced husdc
  | sumDay p =>
    obtain ⟨hres, rfl⟩ := Prod.mk.inj h
    obtain ⟨day, hread, rfl⟩ := map_eq_ok.mp hres
    exact .day hread
  | sumMonth p day =>
    obtain ⟨hres, rfl⟩ := Prod.mk.inj h
    obtain ⟨month, hread, rfl⟩ := map_eq_ok.mp hres
    exact .month hread
  | getRate p check =>
    obtain ⟨hres, rfl⟩ := Prod.mk.inj h
    obtain ⟨q, hq, rfl⟩ := map_eq_ok.mp hres
    exact .quoted hq
  | selectBase q check =>
    obtain ⟨hres, rfl⟩ := Prod.mk.inj h
    cases hres
    split
    · next base hbase => exact .based hbase
    · next hbase => exact .unbased hbase
  | countMerchants q check =>
    obtain ⟨hres, rfl⟩ := Prod.mk.inj h
    split at hres
    · next m hfind =>
      cases hres
      exact .counted hfind
    · cases hres
  | updateBase q check base =>
    simp only [Pc.exec] at h
    split at h
    · next db₁ hupdate =>
      cases h
      exact .updated hupdate
    · cases h
  | nextSequence q check base =>
    simp only [Pc.exec] at h
    split at h
    · cases h
    · next m hfind =>
      split at h
      · next n db₁ hnext =>
        cases h
        exact .numbered hfind hnext
      · cases h
  | saveKey key invoice =>
    cases h
    exact .saved

/-- A statement that fails changes nothing. -/
theorem db_of_exec_error (h : pc.exec env now args db = (.error e, db')) : db' = db := by
  cases pc with
  | updateBase q check base =>
    simp only [Pc.exec] at h
    split at h
    · cases h
    · cases h
      rfl
  | nextSequence q check base =>
    simp only [Pc.exec] at h
    split at h
    · cases h
      rfl
    · split at h
      · cases h
      · cases h
        rfl
  | saveKey key invoice => cases h
  | _ => exact (Prod.mk.inj h).2.symm

/-- **What a statement writes**: numbers of a merchant, or the response of the call. -/
theorem writes_leads (h : Leads env now args db pc next db') :
    Numbered db db' ∨ ∃ key r, pc = .saveKey key r ∧
      db' = Idempotency.save db args.merchantId key (env.hashBody args.input) (.invoice r) := by
  cases h with
  | updated hupdate =>
    have hrows := rows_of_updateBase hupdate
    obtain ⟨-, merchants, -, rfl⟩ := updateBase_eq_some.mp hupdate
    refine .inl ⟨rfl, _, hrows, fun m => ?_⟩
    split
    · exact ⟨_, _, rfl⟩
    · exact ⟨_, _, rfl⟩
  | numbered _ hnext => exact .inl (numbered_nextInvoiceSequence hnext)
  | @saved key r => exact .inr ⟨key, r, rfl, rfl⟩
  | _ => exact .inl (.refl db)

/-- The merchants, after a statement. -/
theorem merchants_leads (h : Leads env now args db pc next db') :
    ∃ f : Merchant → Merchant, db'.merchants.rows = db.merchants.rows.map f ∧
      ∀ m, ∃ base seq, f m = { m with muxedBaseId := base, invoiceSeq := seq } := by
  rcases writes_leads h with hnumbered | ⟨key, r, -, rfl⟩
  · exact hnumbered.rows
  · obtain ⟨_, heq⟩ := Idempotency.save_eq db args.merchantId key (env.hashBody args.input)
      (.invoice r)
    rw [heq]
    exact (Numbered.refl db).rows

end Leads

/-! ## What a step can do -/

section Moves

variable {env : CreateEnv} {others : List Call} {i : Input} {w w' : World} {c c' : Call}
  {args : Args} {tx : Option Tx}

/-- The steps of a call. -/
inductive Moves (env : CreateEnv) (others : List Call) :
    Input → World → Call → World → Call → Prop
  | started {args : Args} {w : World} {c : Call} (hrest : c.resting) :
      Moves env others (.create args) w c w (enter args none)
  | startedBulk {merchantId : Uuid} {inputs : List CreateInput} {start : Timestamp} {w : World}
      {c : Call} (hrest : c.resting) :
      Moves env others (.createBulk merchantId inputs start) w c w
        (nextInput merchantId ⟨start, [], inputs⟩)
  | stopped {i : Input} {w : World} {c c' : Call} (hstop : c' = .crashed ∨ ∃ e, c' = .threw e) :
      Moves env others i w c w c'
  | ran {now : Timestamp} {id : Uuid} {w : World} {args : Args} {tx : Option Tx} {pc : Pc}
      {next : Next} {db : Db} (hleads : Leads env now args w.db pc next db) :
      Moves env others (.exec now id) w (.running args tx pc)
        { w with db, numbers := w.numbers ++ next.numbers } (next.call args tx)
  | inserted {now : Timestamp} {id : Uuid} {w : World} {args : Args} {q : Quote}
      {check : Checked} {muxedId : Int} {r : Invoice} {invoices : Table Invoice}
      (hrow : rowOf env now id args none q muxedId = some r)
      (hfree : ∀ o ∈ others, clashes o.pending r = false)
      (hins : w.db.invoices.insert? r = some invoices) :
      Moves env others (.exec now id) w (.inserting args none q check muxedId)
        { w with db := { w.db with invoices }, made := w.made ++ [(id, args.input)] }
        (match args.key? with
          | some key => .running args none (.saveKey key r)
          | none => .returned args (.invoice r))
  | pended {now : Timestamp} {id : Uuid} {w : World} {args : Args} {tx : Tx} {q : Quote}
      {check : Checked} {muxedId : Int} {r : Invoice}
      (hrow : rowOf env now id args (some tx) q muxedId = some r)
      (hfree : ∀ o ∈ others, clashes o.pending r = false)
      (hown : clashes (w.db.invoices.rows ++ tx.rows.map Prod.snd) r = false) :
      Moves env others (.exec now id) w (.inserting args (some tx) q check muxedId)
        { w with made := w.made ++ [(id, args.input)] }
        (nextInput args.merchantId { tx with rows := tx.rows ++ [(check, r)] })
  | committed {now : Timestamp} {id merchantId : Uuid} {w : World} {tx : Tx}
      {invoices : Table Invoice}
      (hcommit : (tx.rows.map Prod.snd).foldlM Table.insert? w.db.invoices = some invoices) :
      Moves env others (.exec now id) w (.committing merchantId tx)
        { w with db := { w.db with invoices } } (.returnedBulk merchantId (tx.rows.map Prod.snd))

/-- What is committed at once has no clashes, so all of it is stored. -/
theorem rows_of_commit {rows : List Invoice} {t t' : Table Invoice}
    (h : rows.foldlM Table.insert? t = some t') : t'.rows = t.rows ++ rows := by
  induction rows generalizing t with
  | nil =>
    cases h
    exact (List.append_nil _).symm
  | cons r rows ih =>
    rw [List.foldlM_cons] at h
    obtain ⟨t₁, hins, h⟩ := Option.bind_eq_some_iff.mp h
    rw [ih h, (Table.insert?_eq_some.mp hins).2, List.append_assoc]
    rfl

theorem moves_of_insertRow {now : Timestamp} {id : Uuid} {q : Quote} {check : Checked}
    {muxedId : Int}
    (h : insertRow env others now id w args tx q check muxedId = some (w', c')) :
    Moves env others (.exec now id) w (.inserting args tx q check muxedId) w' c' := by
  unfold insertRow at h
  split at h
  · cases h
    exact .stopped (.inr ⟨_, rfl⟩)
  split at h
  · cases h
    exact .stopped (.inr ⟨_, rfl⟩)
  next r hrow =>
  split at h
  · cases h
  next hfree =>
  have hfree' : ∀ o ∈ others, clashes o.pending r = false := by
    intro o ho
    by_contra hclash
    exact hfree (List.any_eq_true.mpr ⟨o, ho, by simpa using hclash⟩)
  dsimp only at h
  split at h
  · split at h
    · cases h
      exact .stopped (.inr ⟨_, rfl⟩)
    · next hown =>
      cases h
      exact .pended hrow hfree' (by simpa using hown)
  · split at h
    · cases h
      exact .stopped (.inr ⟨_, rfl⟩)
    · next invoices hins =>
      cases h
      exact .inserted hrow hfree' hins

/-- **What a step can do.** -/
theorem moves_of_exec (h : (program env).exec others i w c = some (w', c')) :
    Moves env others i w c w' c' := by
  cases i with
  | create args =>
    simp only [program] at h
    split at h
    · next hrest =>
      cases h
      exact .started hrest
    · cases h
  | createBulk merchantId inputs start =>
    simp only [program] at h
    split at h
    · next hrest =>
      split at h
      · cases h
        exact .stopped (.inr ⟨_, rfl⟩)
      · cases h
        exact .startedBulk hrest
    · cases h
  | exec now id =>
    cases c with
    | running args tx pc =>
      simp only [program, Pc.run, Option.some.injEq] at h
      split at h
      · next next db hexec =>
        cases h
        exact .ran (leads_of_exec hexec)
      · next e db hexec =>
        cases h
        cases db_of_exec_error hexec
        exact .stopped (.inr ⟨e, rfl⟩)
    | inserting args tx q check muxedId => exact moves_of_insertRow h
    | committing merchantId tx =>
      simp only [program, commit, Option.some.injEq] at h
      split at h
      · next invoices hcommit =>
        cases h
        exact .committed hcommit
      · cases h
        exact .stopped (.inr ⟨_, rfl⟩)
    | _ => cases h
  | crash =>
    simp only [program] at h
    split at h
    · cases h
    · cases h
      exact .stopped (.inl rfl)

/-- Where a call of `create` begins. -/
inductive Entered (args : Args) (tx : Option Tx) : Call → Prop
  | keyed {key : String} (hkey : args.key? = some key) :
      Entered args tx (.running args tx (.checkKey key))
  | plain {dto : CreateDto} (hkey : args.key? = none) (hparse : parseCreate args.input = .ok dto) :
      Entered args tx (.running args tx (.findOne dto))
  | threw {e : ApiError} : Entered args tx (.threw e)

theorem entered_enter (args : Args) (tx : Option Tx) : Entered args tx (enter args tx) := by
  unfold enter
  split
  · next key hkey => exact .keyed hkey
  · next hkey =>
    split
    · next dto hparse => exact .plain hkey hparse
    · exact .threw

/-- Where a call of `createBulk` is between two inputs. -/
theorem nextInput_cases (merchantId : Uuid) (tx : Tx) :
    nextInput merchantId tx = .committing merchantId tx ∨ ∃ input rest,
      Entered ⟨merchantId, input, none⟩ (some { tx with rest }) (nextInput merchantId tx) := by
  unfold nextInput
  split
  · exact .inl rfl
  · next input rest _ => exact .inr ⟨input, rest, entered_enter _ _⟩

/-- What holds of a call that commits and of one that begins holds between two inputs. -/
theorem nextInput_of {P : Call → Prop} (merchantId : Uuid) (tx : Tx)
    (hcommit : P (.committing merchantId tx))
    (hentered : ∀ args rest c, Entered args (some { tx with rest }) c → P c) :
    P (nextInput merchantId tx) := by
  rcases nextInput_cases merchantId tx with heq | ⟨input, rest, h⟩
  · rw [heq]
    exact hcommit
  · exact hentered _ rest _ h

/-! ## Whose call it is -/

/-- The statement works on the merchant that the call was made for. -/
def Pc.OwnedBy (merchantId : Uuid) : Pc → Prop
  | .toUsdc _ m => m.id = merchantId
  | .sumDay p => p.merchant.id = merchantId
  | .sumMonth p _ => p.merchant.id = merchantId
  | .getRate p _ => p.merchant.id = merchantId
  | .selectBase q _ => q.merchant.id = merchantId
  | .countMerchants q _ => q.merchant.id = merchantId
  | .updateBase q _ _ => q.merchant.id = merchantId
  | .nextSequence q _ _ => q.merchant.id = merchantId
  | _ => True

/-- A call works on the merchant that it was made for. -/
def Owned : Call → Prop
  | .running args _ pc => pc.OwnedBy args.merchantId
  | .inserting args _ q _ _ => q.merchant.id = args.merchantId
  | _ => True

theorem owned_of_entered (h : Entered args tx c) : Owned c := by
  cases h with
  | threw => trivial
  | keyed _ => trivial
  | plain _ _ => trivial

theorem owned_nextInput (merchantId : Uuid) (tx : Tx) : Owned (nextInput merchantId tx) :=
  nextInput_of merchantId tx trivial fun _ _ _ => owned_of_entered

theorem owned_finish (args : Args) (tx : Option Tx) (response : Response) :
    Owned (finish args tx response) := by
  unfold finish
  split
  · trivial
  · exact owned_nextInput _ _

/-- What a quote is made up of. -/
structure QuoteOf (db : Db) (p : Priced) (q : Quote) : Prop where
  dto : q.dto = p.dto
  merchant : q.merchant = p.merchant
  usdcEquivStr : q.usdcEquivStr = p.usdcEquivStr
  amount : toUnits p.dto.amount = .ok q.amount
  fee : calculateFee p.usdcEquiv p.merchant = .ok q.fee
  gross : ∃ fee, feeInCurrency db q.fee p.dto.currency = .ok fee ∧ q.gross = q.amount + fee

theorem quoteOf_amounts {db : Db} {p : Priced} {q : Quote} (h : amounts db p = .ok q) :
    QuoteOf db p q := by
  unfold amounts at h
  obtain ⟨_, -, h⟩ := bind_eq_ok.mp h
  obtain ⟨amount, hamount, h⟩ := bind_eq_ok.mp h
  obtain ⟨fee, hfee, h⟩ := bind_eq_ok.mp h
  obtain ⟨feeIn, hfeeIn, h⟩ := bind_eq_ok.mp h
  obtain ⟨_, -, h⟩ := bind_eq_ok.mp h
  dsimp only at h
  split at h
  · cases h
  · cases h
    exact ⟨rfl, rfl, rfl, hamount, hfee, feeIn, hfeeIn, rfl⟩

theorem owned_leads {now : Timestamp} {db db' : Db} {pc : Pc} {next : Next}
    (h : Leads env now args db pc next db') (hc : pc.OwnedBy args.merchantId) :
    Owned (next.call args tx) := by
  cases h with
  | replayed _ | found _ | saved => exact owned_finish args tx _
  | unused _ | notFound _ _ => trivial
  | merchant hfind =>
    show _ = _
    exact beq_iff_eq.mp (Table.find?_some hfind).2
  | quoted hq =>
    show _ = _
    rw [(quoteOf_amounts hq).merchant]
    exact hc
  | numbered _ _ => exact hc
  | priced _ | day _ | month _ | based _ | unbased _ | counted _ | updated _ => exact hc

theorem owned_moves (h : Moves env others i w c w' c') (hc : Owned c) : Owned c' := by
  cases h with
  | started _ => exact owned_of_entered (entered_enter _ _)
  | startedBulk _ => exact owned_nextInput _ _
  | stopped hstop =>
    rcases hstop with rfl | ⟨e, rfl⟩
    · trivial
    · trivial
  | ran hleads => exact owned_leads hleads hc
  | inserted _ _ _ =>
    split
    · trivial
    · trivial
  | pended _ _ _ => exact owned_nextInput _ _
  | committed _ => trivial

/-- The merchants, after a step. -/
theorem merchants_moves (h : Moves env others i w c w' c') :
    ∃ f : Merchant → Merchant, w'.db.merchants.rows = w.db.merchants.rows.map f ∧
      ∀ m, ∃ base seq, f m = { m with muxedBaseId := base, invoiceSeq := seq } := by
  cases h with
  | ran hleads => exact merchants_leads hleads
  | _ => exact (Numbered.refl w.db).rows

end Moves

end Stargate.CreateCalls
