import Stargate.Base.PartialUpdate
import Stargate.Invoices.Units

/-!
# `MerchantsService.update`

One `UPDATE` with a parameter for each of ten fields. A name and an address that are absent are
replaced by the stored ones, and other parameters that are absent or null by `COALESCE`.

- `parseUpdate`: the zod schema;
- `readParams`, `Assigned.set`: the parameters of the statement, and its assignments;
- `update`: the call, on all rows of `merchants`;
- `MerchantRow.get`, `UpdateDto.get`: the fields as values;
- `Settable`: the column of a field takes what the request has for it.
-/

namespace Stargate.Merchants

open Base Invoices

/-! ## The table -/

inductive MerchantStatus where
  | pending | active | suspended
  deriving DecidableEq, Repr

inductive KycStatus where
  | pending | approved | rejected
  deriving DecidableEq, Repr

inductive Cadence where
  | daily | weekly
  deriving DecidableEq, Repr

/-- The text of `merchants.settlement_cadence`. -/
def Cadence.code : Cadence → String
  | .daily => "daily"
  | .weekly => "weekly"

/-- A row of `merchants`, with the columns that other services do not read. -/
structure MerchantRow extends Merchant where
  email : String
  passwordHash : String
  status : MerchantStatus
  settlementCadence : Cadence
  kybVerifiedAt : Option Timestamp
  kycStatus : KycStatus
  updatedAt : Timestamp
  deriving DecidableEq

/-- `PRIMARY KEY (id)`, `UNIQUE (email)`, `UNIQUE (muxed_base_id)`. -/
instance keyedMerchantRow : Keyed MerchantRow where
  Key := Uuid × String × Option Int
  key m := (m.id, m.email, m.muxedBaseId)
  Clash a b := a.1 = b.1 ∨ a.2.1 = b.2.1 ∨ (a.2.2 = b.2.2 ∧ a.2.2 ≠ none)
  clash_symm := by
    rintro a b (h | h | ⟨h, hne⟩)
    · exact .inl h.symm
    · exact .inr (.inl h.symm)
    · exact .inr (.inr ⟨h.symm, h ▸ hne⟩)
  decClash _ _ := inferInstanceAs (Decidable (_ ∨ _ ∨ _ ∧ _))

/-! ## The request -/

/-- The body of a request, an object. A field may be absent, and some may be null; numbers are
those that their shortest decimals stand for. -/
structure UpdateInput where
  name : Option String := none
  stellarAddress : Option String := none
  settlementCadence : Option String := none
  dailySpendLimitUsdc : Option (Option ℚ) := none
  monthlySpendLimitUsdc : Option (Option ℚ) := none
  settlementScheduledAt : Option (Option String) := none
  testMode : Option Bool := none
  minInvoiceUsdc : Option String := none
  maxInvoiceUsdc : Option String := none
  unpaidInvoiceTtlMinutes : Option (Option ℚ) := none
  deriving DecidableEq

/-- A parsed request. -/
structure UpdateDto where
  name : Option String
  stellarAddress : Option String
  settlementCadence : Option Cadence
  dailySpendLimitUsdc : Option (Option ℚ)
  monthlySpendLimitUsdc : Option (Option ℚ)
  settlementScheduledAt : Option (Option String)
  testMode : Option Bool
  minInvoiceUsdc : Option String
  maxInvoiceUsdc : Option String
  unpaidInvoiceTtlMinutes : Option (Option Int)
  deriving DecidableEq

/-- What the service takes from libraries and the database. -/
structure UpdateEnv where
  /-- The instant of a text, in microseconds; `none` where `z.string().datetime()` fails. -/
  datetime : String → Option ℚ
  /-- What a `TIMESTAMPTZ` column stores of a text; `none` where the database refuses it. -/
  timestamptz : String → Option Timestamp

/-- `/^G[A-Z0-9]{10,}$/`. -/
def isStellarAddress (s : String) : Bool :=
  match s.toList with
  | 'G' :: cs => decide (10 ≤ cs.length) && cs.all fun c => c.isUpper || c.isDigit
  | _ => false

/-- `z.enum(['daily', 'weekly'])`. -/
def parseCadence (s : String) : Except ApiError Cadence :=
  match [Cadence.daily, .weekly].find? fun c => c.code == s with
  | some c => .ok c
  | none => .error .zodError

/-- `z.number().positive().nullable().optional()`. -/
def checkLimit (field : Option (Option ℚ)) : Except ApiError Unit :=
  if field.join.any fun x => decide (x ≤ 0) then .error .zodError else .ok ()

/-- `z.string().regex(/^\d+(\.\d{1,7})?$/).optional()`. -/
def checkAmount (field : Option String) : Except ApiError Unit :=
  if field.any fun s => !isAmountText s.toList then .error .zodError else .ok ()

/-- `z.number().int().positive().max(10080)`. -/
def parseTtl (x : ℚ) : Except ApiError Int :=
  if x.den = 1 ∧ 0 < x ∧ x ≤ 10080 then .ok x.num else .error .zodError

/-- `updateMerchantSchema.parse(input)`. -/
def parseUpdate (env : UpdateEnv) (input : UpdateInput) : Except ApiError UpdateDto := do
  if input.name = some "" then throw .zodError
  if input.stellarAddress.any fun s => !isStellarAddress s then throw .zodError
  let settlementCadence ← input.settlementCadence.mapM parseCadence
  checkLimit input.dailySpendLimitUsdc
  checkLimit input.monthlySpendLimitUsdc
  if input.settlementScheduledAt.join.any fun s => (env.datetime s).isNone then throw .zodError
  checkAmount input.minInvoiceUsdc
  checkAmount input.maxInvoiceUsdc
  let unpaidInvoiceTtlMinutes ← input.unpaidInvoiceTtlMinutes.mapM fun v => v.mapM parseTtl
  return {
    name := input.name
    stellarAddress := input.stellarAddress
    settlementCadence
    dailySpendLimitUsdc := input.dailySpendLimitUsdc
    monthlySpendLimitUsdc := input.monthlySpendLimitUsdc
    settlementScheduledAt := input.settlementScheduledAt
    testMode := input.testMode
    minInvoiceUsdc := input.minInvoiceUsdc
    maxInvoiceUsdc := input.maxInvoiceUsdc
    unpaidInvoiceTtlMinutes }

/-! ## The statement -/

/-- A `TEXT` parameter. The database refuses the character zero. -/
def textParam (s : String) : Option String :=
  if s.toList.any fun c => c.toNat == 0 then none else some s

/-- The parameters `$2` to `$11`, as the database reads them. -/
structure Assigned where
  name : String
  stellarAddress : Option String
  settlementCadence : Option Cadence
  dailySpendLimitUsdc : Option Numeric
  monthlySpendLimitUsdc : Option Numeric
  settlementScheduledAt : Option Timestamp
  testMode : Option Bool
  minInvoiceUsdc : Option Numeric
  maxInvoiceUsdc : Option Numeric
  unpaidInvoiceTtlMinutes : Option Int

def readParams (env : UpdateEnv) (current : Merchant) (dto : UpdateDto) : Option Assigned := do
  let name ← dto.name.mapM textParam
  let stellarAddress ← dto.stellarAddress.mapM textParam
  let dailySpendLimitUsdc ← dto.dailySpendLimitUsdc.join.mapM Numeric.ofRat?
  let monthlySpendLimitUsdc ← dto.monthlySpendLimitUsdc.join.mapM Numeric.ofRat?
  let settlementScheduledAt ← dto.settlementScheduledAt.join.mapM env.timestamptz
  let minInvoiceUsdc ← dto.minInvoiceUsdc.mapM Numeric.ofText?
  let maxInvoiceUsdc ← dto.maxInvoiceUsdc.mapM Numeric.ofText?
  return {
    name := name.getD current.name
    stellarAddress := stellarAddress.or current.stellarAddress
    settlementCadence := dto.settlementCadence
    dailySpendLimitUsdc
    monthlySpendLimitUsdc
    settlementScheduledAt
    testMode := dto.testMode
    minInvoiceUsdc
    maxInvoiceUsdc
    unpaidInvoiceTtlMinutes := dto.unpaidInvoiceTtlMinutes.join }

/-- The assignments to the columns that other services read. -/
def Assigned.set (p : Assigned) (m : Merchant) : Merchant :=
  { m with
    name := p.name
    stellarAddress := p.stellarAddress
    dailySpendLimitUsdc := p.dailySpendLimitUsdc.or m.dailySpendLimitUsdc
    monthlySpendLimitUsdc := p.monthlySpendLimitUsdc.or m.monthlySpendLimitUsdc
    settlementScheduledAt := p.settlementScheduledAt.or m.settlementScheduledAt
    testMode := p.testMode.getD m.testMode
    minInvoiceUsdc := p.minInvoiceUsdc.or m.minInvoiceUsdc
    maxInvoiceUsdc := p.maxInvoiceUsdc.or m.maxInvoiceUsdc
    unpaidInvoiceTtlMinutes := p.unpaidInvoiceTtlMinutes.getD m.unpaidInvoiceTtlMinutes }

/-- All assignments. -/
def Assigned.setRow (p : Assigned) (now : Timestamp) (m : MerchantRow) : MerchantRow :=
  { m with
    toMerchant := p.set m.toMerchant
    settlementCadence := p.settlementCadence.getD m.settlementCadence
    updatedAt := now }

/-- `update(id, input)`, with the table that it leaves behind. -/
def update (env : UpdateEnv) (now : Timestamp) (rows : Table MerchantRow) (id : Uuid)
    (input : UpdateInput) : Except ApiError MerchantRow × Table MerchantRow :=
  match parseUpdate env input with
  | .error e => (.error e, rows)
  | .ok dto =>
    match rows.find? fun m => m.id == id with
    | none => (.error (.notFound "Merchant not found"), rows)
    | some current =>
      match readParams env current.toMerchant dto with
      | none => (.error .database, rows)
      | some p =>
        (.ok (p.setRow now current), rows.modify (fun m => m.id == id) (p.setRow now) fun _ => rfl)

/-! ## The fields -/

/-- The fields of `updateMerchantSchema`. -/
inductive Field where
  | name | stellarAddress | settlementCadence | dailySpendLimitUsdc | monthlySpendLimitUsdc
  | settlementScheduledAt | testMode | minInvoiceUsdc | maxInvoiceUsdc | unpaidInvoiceTtlMinutes
  deriving DecidableEq, Repr

/-- What a field stands for, unless it is null. -/
inductive Value where
  | text (s : String)
  | number (x : ℚ)
  /-- An instant, in microseconds. -/
  | time (t : ℚ)
  | bool (b : Bool)
  deriving DecidableEq

def textColumn : Column String String Value := ⟨textParam, fun s => some (.text s), .text⟩

def cadenceColumn : Column Cadence Cadence Value :=
  ⟨some, fun c => some (.text c.code), fun c => .text c.code⟩

def numberColumn : Column ℚ Numeric Value :=
  ⟨Numeric.ofRat?, fun x => some (.number x), fun n => .number n.value⟩

def decimalColumn : Column String Numeric Value :=
  ⟨Numeric.ofText?, fun s => (Numeric.parse? s).map .number, fun n => .number n.value⟩

def timeColumn (env : UpdateEnv) : Column String Timestamp Value :=
  ⟨env.timestamptz, fun s => (env.datetime s).map .time, fun t => .time t⟩

def boolColumn : Column Bool Bool Value := ⟨some, fun b => some (.bool b), .bool⟩

def intColumn : Column Int Int Value := ⟨some, fun n => some (.number n), fun n => .number n⟩

/-- A field of the request, and the column that it is for. -/
structure Field.Spec where
  Given : Type
  Stored : Type
  column : Column Given Stored Value
  given : UpdateDto → Option (Option Given)
  stored : MerchantRow → Option Stored

def Field.spec (env : UpdateEnv) : Field → Field.Spec
  | .name => ⟨_, _, textColumn, fun d => d.name.map some, fun r => some r.name⟩
  | .stellarAddress =>
    ⟨_, _, textColumn, fun d => d.stellarAddress.map some, fun r => r.stellarAddress⟩
  | .settlementCadence =>
    ⟨_, _, cadenceColumn, fun d => d.settlementCadence.map some,
      fun r => some r.settlementCadence⟩
  | .dailySpendLimitUsdc =>
    ⟨_, _, numberColumn, UpdateDto.dailySpendLimitUsdc, fun r => r.dailySpendLimitUsdc⟩
  | .monthlySpendLimitUsdc =>
    ⟨_, _, numberColumn, UpdateDto.monthlySpendLimitUsdc, fun r => r.monthlySpendLimitUsdc⟩
  | .settlementScheduledAt =>
    ⟨_, _, timeColumn env, UpdateDto.settlementScheduledAt, fun r => r.settlementScheduledAt⟩
  | .testMode => ⟨_, _, boolColumn, fun d => d.testMode.map some, fun r => some r.testMode⟩
  | .minInvoiceUsdc =>
    ⟨_, _, decimalColumn, fun d => d.minInvoiceUsdc.map some, fun r => r.minInvoiceUsdc⟩
  | .maxInvoiceUsdc =>
    ⟨_, _, decimalColumn, fun d => d.maxInvoiceUsdc.map some, fun r => r.maxInvoiceUsdc⟩
  | .unpaidInvoiceTtlMinutes =>
    ⟨_, _, intColumn, UpdateDto.unpaidInvoiceTtlMinutes, fun r => some r.unpaidInvoiceTtlMinutes⟩

section Fields

variable (env : UpdateEnv) (dto : UpdateDto) (r r' : MerchantRow) (f : Field)

/-- The value of a field of a row; `none` is NULL. -/
def MerchantRow.get : Option Value := ((f.spec env).stored r).map (f.spec env).column.val

/-- The value of a field of a request, where it is present. -/
def UpdateDto.get : Option (Option Value) := (f.spec env).column.given ((f.spec env).given dto)

/-- The column of a field takes what the request has for it. -/
def Settable : Prop := (f.spec env).column.Takes ((f.spec env).stored r) ((f.spec env).given dto)

/-- All columns but those of the ten fields and `updated_at` are the same. -/
def SameBeside : Prop :=
  r' = { r with
    name := r'.name
    stellarAddress := r'.stellarAddress
    settlementCadence := r'.settlementCadence
    dailySpendLimitUsdc := r'.dailySpendLimitUsdc
    monthlySpendLimitUsdc := r'.monthlySpendLimitUsdc
    settlementScheduledAt := r'.settlementScheduledAt
    testMode := r'.testMode
    minInvoiceUsdc := r'.minInvoiceUsdc
    maxInvoiceUsdc := r'.maxInvoiceUsdc
    unpaidInvoiceTtlMinutes := r'.unpaidInvoiceTtlMinutes
    updatedAt := r'.updatedAt }

end Fields

/-! ## One statement -/

section Statement

variable {env : UpdateEnv} {dto : UpdateDto} {r : MerchantRow} {p : Assigned}

/-- Which parameters the database reads. -/
theorem readParams_eq_some {current : Merchant} : readParams env current dto = some p ↔
    ∃ name stellarAddress daily monthly scheduledAt min max,
      dto.name.mapM textParam = some name ∧ dto.stellarAddress.mapM textParam = some stellarAddress
        ∧ dto.dailySpendLimitUsdc.join.mapM Numeric.ofRat? = some daily
        ∧ dto.monthlySpendLimitUsdc.join.mapM Numeric.ofRat? = some monthly
        ∧ dto.settlementScheduledAt.join.mapM env.timestamptz = some scheduledAt
        ∧ dto.minInvoiceUsdc.mapM Numeric.ofText? = some min
        ∧ dto.maxInvoiceUsdc.mapM Numeric.ofText? = some max
        ∧ p = ⟨name.getD current.name, stellarAddress.or current.stellarAddress,
          dto.settlementCadence, daily, monthly, scheduledAt, dto.testMode, min, max,
          dto.unpaidInvoiceTtlMinutes.join⟩ := by
  simp only [readParams, Option.bind_eq_bind, Option.bind_eq_some_iff, Option.pure_def,
    Option.some.injEq]
  constructor
  · rintro ⟨name, hname, address, haddress, daily, hdaily, monthly, hmonthly, scheduledAt,
      hscheduledAt, min, hmin, max, hmax, rfl⟩
    exact ⟨name, address, daily, monthly, scheduledAt, min, max, hname, haddress, hdaily,
      hmonthly, hscheduledAt, hmin, hmax, rfl⟩
  · rintro ⟨name, address, daily, monthly, scheduledAt, min, max, hname, haddress, hdaily,
      hmonthly, hscheduledAt, hmin, hmax, rfl⟩
    exact ⟨name, hname, address, haddress, daily, hdaily, monthly, hmonthly, scheduledAt,
      hscheduledAt, min, hmin, max, hmax, rfl⟩

/-- **Every field is coalesced**, also those of which the service reads the old value itself. -/
theorem coalesced_of_readParams (now : Timestamp) (h : readParams env r.toMerchant dto = some p)
    (f : Field) :
    (f.spec env).column.coalesced ((f.spec env).given dto) ((f.spec env).stored r)
      = some ((f.spec env).stored (p.setRow now r)) := by
  obtain ⟨name, address, daily, monthly, scheduledAt, min, max, hname, haddress, hdaily, hmonthly,
    hscheduledAt, hmin, hmax, rfl⟩ := readParams_eq_some.mp h
  cases f with
  | name =>
    refine (Column.coalesced_map_some _ _ _).trans ?_
    show (dto.name.mapM textParam).map (Option.or · (some r.name))
      = some (some (name.getD r.name))
    rw [hname, Option.map_some, Option.or_some]
  | stellarAddress =>
    refine (Column.coalesced_map_some _ _ _).trans ?_
    show (dto.stellarAddress.mapM textParam).map (Option.or · r.stellarAddress)
      = some (address.or r.stellarAddress)
    rw [haddress, Option.map_some]
  | settlementCadence =>
    refine (Column.coalesced_map_some _ _ _).trans ?_
    show (dto.settlementCadence.mapM some).map (Option.or · (some r.settlementCadence))
      = some (some (dto.settlementCadence.getD r.settlementCadence))
    rw [mapM_some, Option.map_some, Option.or_some]
  | dailySpendLimitUsdc =>
    show (dto.dailySpendLimitUsdc.join.mapM Numeric.ofRat?).map (Option.or · r.dailySpendLimitUsdc)
      = some (daily.or r.dailySpendLimitUsdc)
    rw [hdaily, Option.map_some]
  | monthlySpendLimitUsdc =>
    show (dto.monthlySpendLimitUsdc.join.mapM Numeric.ofRat?).map
        (Option.or · r.monthlySpendLimitUsdc)
      = some (monthly.or r.monthlySpendLimitUsdc)
    rw [hmonthly, Option.map_some]
  | settlementScheduledAt =>
    show (dto.settlementScheduledAt.join.mapM env.timestamptz).map
        (Option.or · r.settlementScheduledAt)
      = some (scheduledAt.or r.settlementScheduledAt)
    rw [hscheduledAt, Option.map_some]
  | testMode =>
    refine (Column.coalesced_map_some _ _ _).trans ?_
    show (dto.testMode.mapM some).map (Option.or · (some r.testMode))
      = some (some (dto.testMode.getD r.testMode))
    rw [mapM_some, Option.map_some, Option.or_some]
  | minInvoiceUsdc =>
    refine (Column.coalesced_map_some _ _ _).trans ?_
    show (dto.minInvoiceUsdc.mapM Numeric.ofText?).map (Option.or · r.minInvoiceUsdc)
      = some (min.or r.minInvoiceUsdc)
    rw [hmin, Option.map_some]
  | maxInvoiceUsdc =>
    refine (Column.coalesced_map_some _ _ _).trans ?_
    show (dto.maxInvoiceUsdc.mapM Numeric.ofText?).map (Option.or · r.maxInvoiceUsdc)
      = some (max.or r.maxInvoiceUsdc)
    rw [hmax, Option.map_some]
  | unpaidInvoiceTtlMinutes =>
    show (dto.unpaidInvoiceTtlMinutes.join.mapM some).map
        (Option.or · (some r.unpaidInvoiceTtlMinutes))
      = some (some (dto.unpaidInvoiceTtlMinutes.join.getD r.unpaidInvoiceTtlMinutes))
    rw [mapM_some, Option.map_some, Option.or_some]

/-- The statement is refused only for a parameter that the column of its field refuses. -/
theorem exists_readParams
    (h : ∀ f : Field, ∃ new, (f.spec env).column.coalesced ((f.spec env).given dto)
      ((f.spec env).stored r) = some new) : ∃ p, readParams env r.toMerchant dto = some p := by
  obtain ⟨_, hname⟩ := h .name
  obtain ⟨_, haddress⟩ := h .stellarAddress
  obtain ⟨_, hdaily⟩ := h .dailySpendLimitUsdc
  obtain ⟨_, hmonthly⟩ := h .monthlySpendLimitUsdc
  obtain ⟨_, hscheduledAt⟩ := h .settlementScheduledAt
  obtain ⟨_, hmin⟩ := h .minInvoiceUsdc
  obtain ⟨_, hmax⟩ := h .maxInvoiceUsdc
  obtain ⟨_, hname, -⟩ :=
    Option.map_eq_some_iff.mp ((Column.coalesced_map_some _ _ _).symm.trans hname)
  obtain ⟨_, haddress, -⟩ :=
    Option.map_eq_some_iff.mp ((Column.coalesced_map_some _ _ _).symm.trans haddress)
  obtain ⟨_, hdaily, -⟩ := Option.map_eq_some_iff.mp hdaily
  obtain ⟨_, hmonthly, -⟩ := Option.map_eq_some_iff.mp hmonthly
  obtain ⟨_, hscheduledAt, -⟩ := Option.map_eq_some_iff.mp hscheduledAt
  obtain ⟨_, hmin, -⟩ :=
    Option.map_eq_some_iff.mp ((Column.coalesced_map_some _ _ _).symm.trans hmin)
  obtain ⟨_, hmax, -⟩ :=
    Option.map_eq_some_iff.mp ((Column.coalesced_map_some _ _ _).symm.trans hmax)
  exact ⟨_, readParams_eq_some.mpr ⟨_, _, _, _, _, _, _, hname, haddress, hdaily, hmonthly,
    hscheduledAt, hmin, hmax, rfl⟩⟩

/-- A field is updated faithfully if and only if its column takes it. -/
theorem get_setRow_iff (now : Timestamp) (h : readParams env r.toMerchant dto = some p)
    (f : Field) :
    (p.setRow now r).get env f = patched (dto.get env f) (r.get env f) ↔ Settable env dto r f :=
  (f.spec env).column.patched_iff_takes (coalesced_of_readParams now h f)

/-- For a limit: null only if there is none, and a number of at most seven places. -/
theorem settable_dailySpendLimitUsdc : Settable env dto r .dailySpendLimitUsdc ↔
    (dto.dailySpendLimitUsdc = some none → r.dailySpendLimitUsdc = none)
      ∧ ∀ x, dto.dailySpendLimitUsdc = some (some x) → ∃ n : Numeric, n.value = x := by
  show numberColumn.Takes r.dailySpendLimitUsdc dto.dailySpendLimitUsdc ↔ _
  cases dto.dailySpendLimitUsdc with
  | none => simp [Column.Takes]
  | some v =>
    cases v with
    | none => simp [Column.Takes]
    | some x =>
      have hread (n : Numeric) (hn : n.value = x) : Numeric.ofRat? x = some n :=
        hn ▸ Numeric.ofRat?_value n
      simp only [Column.Takes, numberColumn, Option.some.injEq, Value.number.injEq, reduceCtorEq,
        false_imp_iff, true_and, forall_eq']
      exact exists_congr fun n => ⟨fun h => h.2.symm, fun h => ⟨hread n h, h.symm⟩⟩

/-- For the minutes: never null. -/
theorem settable_unpaidInvoiceTtlMinutes :
    Settable env dto r .unpaidInvoiceTtlMinutes ↔ dto.unpaidInvoiceTtlMinutes ≠ some none := by
  show intColumn.Takes (some r.unpaidInvoiceTtlMinutes) dto.unpaidInvoiceTtlMinutes ↔ _
  cases dto.unpaidInvoiceTtlMinutes with
  | none => simp [Column.Takes]
  | some v => cases v <;> simp [Column.Takes, intColumn]

theorem sameBeside_setRow (p : Assigned) (now : Timestamp) (r : MerchantRow) :
    SameBeside r (p.setRow now r) := rfl

end Statement

/-! ## The call -/

/-- **A faithful partial update** of a row `r` to `r'`. -/
structure Faithful (env : UpdateEnv) (now : Timestamp) (rows : Table MerchantRow)
    (input : UpdateInput) (dto : UpdateDto) (r r' : MerchantRow) (rows' : Table MerchantRow) :
    Prop where
  call : update env now rows r.id input = (.ok r', rows')
  fields : ∀ f : Field, r'.get env f = patched (dto.get env f) (r.get env f)
  beside : SameBeside r r'
  rows : rows'.rows = rows.rows.map fun m => if m.id = r.id then r' else m

section Call

variable {env : UpdateEnv} {now : Timestamp} {rows rows' : Table MerchantRow} {r r' : MerchantRow}
  {input : UpdateInput} {dto : UpdateDto}

theorem row_eq_of_id {m : MerchantRow} (hr : r ∈ rows) (hm : m ∈ rows) (hid : m.id = r.id) :
    m = r := Table.eq_of_conflict hm hr (.inl hid)

theorem update_eq (now : Timestamp) (hr : r ∈ rows) (hparse : parseUpdate env input = .ok dto) :
    update env now rows r.id input
      = match readParams env r.toMerchant dto with
        | none => (.error .database, rows)
        | some p =>
          (.ok (p.setRow now r),
            rows.modify (fun m => m.id == r.id) (p.setRow now) fun _ => rfl) := by
  have hfind : rows.find? (fun m => m.id == r.id) = some r := by
    cases hfind : rows.find? fun m => m.id == r.id with
    | none =>
      have := List.find?_eq_none.mp hfind r hr
      simp at this
    | some m =>
      obtain ⟨hm, hid⟩ := Table.find?_some hfind
      rw [row_eq_of_id hr hm (beq_iff_eq.mp hid)]
  unfold update
  rw [hparse]
  dsimp only
  rw [hfind]

theorem faithful_of_settable (now : Timestamp) (hr : r ∈ rows)
    (hparse : parseUpdate env input = .ok dto) (h : ∀ f, Settable env dto r f) :
    ∃ r' rows', Faithful env now rows input dto r r' rows' := by
  obtain ⟨p, hp⟩ := exists_readParams fun f => Column.exists_coalesced _ (h f)
  have hcall := update_eq now hr hparse
  rw [hp] at hcall
  refine ⟨_, _, hcall, fun f => (get_setRow_iff now hp f).mpr (h f), sameBeside_setRow p now r, ?_⟩
  -- no other row has the id
  refine List.map_congr_left fun m hm => ?_
  by_cases hid : m.id = r.id
  · rw [if_pos hid, if_pos (beq_iff_eq.mpr hid), row_eq_of_id hr hm hid]
  · rw [if_neg hid, if_neg (mt beq_iff_eq.mp hid)]

theorem Faithful.settable (hr : r ∈ rows) (hparse : parseUpdate env input = .ok dto)
    (h : Faithful env now rows input dto r r' rows') (f : Field) : Settable env dto r f := by
  have hcall := h.call
  rw [update_eq now hr hparse] at hcall
  split at hcall
  · cases hcall
  · next p hp =>
    cases hcall
    exact (get_setRow_iff now hp f).mp (h.fields f)

theorem Faithful.id_eq (h : Faithful env now rows input dto r r' rows') : r'.id = r.id := by
  rw [h.beside]

theorem Faithful.mem (hr : r ∈ rows) (h : Faithful env now rows input dto r r' rows') :
    r' ∈ rows' := by
  rw [← Table.mem_rows, h.rows]
  exact List.mem_map.mpr ⟨r, hr, if_pos rfl⟩

/-- **Partial updates are faithful exactly if every column takes its field**: null only where
it is NULL, and a value that it can hold. And then the same update again changes nothing, and
a later one has the last word on its own fields. -/
theorem partial_update_iff (env : UpdateEnv) (now : Timestamp) (rows : Table MerchantRow)
    (r : MerchantRow) (input : UpdateInput) (dto : UpdateDto) (hr : r ∈ rows)
    (hparse : parseUpdate env input = .ok dto) :
    ((∃ r' rows', Faithful env now rows input dto r r' rows') ↔ ∀ f, Settable env dto r f)
      ∧ ∀ r' rows', Faithful env now rows input dto r r' rows' →
        (∀ later, ∃ r'' rows'', Faithful env later rows' input dto r' r'' rows''
          ∧ ∀ f, r''.get env f = r'.get env f)
        ∧ ∀ later input' dto' r'' rows'', Faithful env later rows' input' dto' r' r'' rows'' →
          ∀ f, r''.get env f = patched ((dto'.get env f).or (dto.get env f)) (r.get env f) := by
  refine ⟨⟨?_, faithful_of_settable now hr hparse⟩, fun r' rows' h => ⟨fun later => ?_, ?_⟩⟩
  · rintro ⟨r', rows', h⟩
    exact h.settable hr hparse
  · -- a column that took a value once takes it again
    have hagain (f : Field) : Settable env dto r' f :=
      Column.takes_of_patched _ (h.settable hr hparse f) (h.fields f)
    obtain ⟨r'', rows'', h'⟩ := faithful_of_settable later (h.mem hr) hparse hagain
    refine ⟨r'', rows'', h', fun f => ?_⟩
    rw [h'.fields f, h.fields f, patched_self]
  · intro later input' dto' r'' rows'' h' f
    rw [h'.fields f, h.fields f, patched_patched]

theorem inRange_hundred : (1000000000 : Int).natAbs < 10 ^ 18 := by decide

/-- A merchant with a daily limit of 100 USDC. -/
def limitedRow : MerchantRow where
  id := 1
  name := "Merchant"
  tier := .standard
  feeBps := 50
  feeFixedUsdc := ⟨0, Numeric.inRange_zero⟩
  muxedBaseId := none
  invoiceSeq := 0
  minInvoiceUsdc := none
  maxInvoiceUsdc := none
  dailySpendLimitUsdc := some ⟨1000000000, inRange_hundred⟩
  monthlySpendLimitUsdc := none
  acceptedAssets := none
  settlementScheduledAt := none
  unpaidInvoiceTtlMinutes := 60
  testMode := false
  createdAt := 0
  email := "merchant@example.com"
  passwordHash := ""
  status := .active
  settlementCadence := .daily
  kybVerifiedAt := none
  kycStatus := .pending
  updatedAt := 0

def limitedRows : Table MerchantRow := ⟨[limitedRow], List.pairwise_singleton _ _⟩

/-- No request of these has a time. -/
def noTimes : UpdateEnv := ⟨fun _ => none, fun _ => none⟩

/-- `{"name": "Shop", "daily_spend_limit_usdc": 100}`. -/
def renameInput : UpdateInput := { name := some "Shop", dailySpendLimitUsdc := some (some 100) }

def renameDto : UpdateDto :=
  ⟨some "Shop", none, none, some (some 100), none, none, none, none, none, none⟩

theorem partial_update_rename : limitedRow ∈ limitedRows
    ∧ parseUpdate noTimes renameInput = .ok renameDto
    ∧ ∃ r' rows', Faithful noTimes 5 limitedRows renameInput renameDto limitedRow r' rows' := by
  have hmem : limitedRow ∈ limitedRows := List.mem_singleton_self _
  have hparse : parseUpdate noTimes renameInput = .ok renameDto := by decide +kernel
  refine ⟨hmem, hparse,
    (partial_update_iff noTimes 5 limitedRows limitedRow renameInput renameDto hmem hparse).1.mpr
      fun f => ?_⟩
  cases f with
  | name =>
    have hread : textParam "Shop" = some "Shop" := by decide +kernel
    exact ⟨"Shop", hread, rfl⟩
  | dailySpendLimitUsdc =>
    have hvalue : (⟨1000000000, inRange_hundred⟩ : Numeric).value = 100 := by decide +kernel
    refine settable_dailySpendLimitUsdc.mpr ⟨fun hnull => ?_, fun x hx => ?_⟩
    · cases hnull
    · exact ⟨_, hvalue.trans (Option.some.inj (Option.some.inj hx))⟩
  | _ => trivial

/-- `{"daily_spend_limit_usdc": null}`. -/
def unlimitedInput : UpdateInput := { dailySpendLimitUsdc := some none }

def unlimitedDto : UpdateDto :=
  ⟨none, none, none, some none, none, none, none, none, none, none⟩

/-- A limit is never removed again. -/
theorem null_swallowed : parseUpdate noTimes unlimitedInput = .ok unlimitedDto
    ∧ (update noTimes 5 limitedRows 1 unlimitedInput).1
      = .ok { limitedRow with updatedAt := 5 }
    ∧ ¬ ∃ r' rows',
      Faithful noTimes 5 limitedRows unlimitedInput unlimitedDto limitedRow r' rows' := by
  have hparse : parseUpdate noTimes unlimitedInput = .ok unlimitedDto := by decide +kernel
  refine ⟨hparse, by decide +kernel, ?_⟩
  rintro ⟨r', rows', h⟩
  have hset := h.settable (List.mem_singleton_self _) hparse .dailySpendLimitUsdc
  cases hset

end Call

end Stargate.Merchants
