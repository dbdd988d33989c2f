import Stargate.Invoices.Create

/-!
# Payment transactions (`src/stellar/stellar.service.ts`)

`StellarService.buildPaymentXdr` puts one payment operation into a transaction
that the payer signs. It leans on `stellar-sdk`, which is not part of the
repository: what the service calls there is in `Sdk`, and `Sdk.Documented` says
what the documentation of these calls promises.

The amount goes through a JavaScript number on its way: `formatStellarAmount` is
exact where `IsExactDouble` holds of the amount, and for all amounts below `2²⁹`.
-/

namespace Stargate.Stellar

open Base

/-! ## The environment -/

inductive StellarNetwork where
  | testnet | mainnet
  deriving DecidableEq, Repr

/-- The part of `AppEnv` that the service reads, as `validate` passes it on. -/
structure AppEnv where
  STELLAR_NETWORK : StellarNetwork := .testnet
  STELLAR_ASSET_CODE : String := "USDC"
  STELLAR_ASSET_ISSUER : String
  /-- `z.string().min(3)`: there always is an issuer. -/
  issuer_min : 3 ≤ STELLAR_ASSET_ISSUER.length

/-- `Networks`. -/
inductive Passphrase where
  | PUBLIC | TESTNET
  deriving DecidableEq, Repr

/-- An `Asset` with an issuer. -/
structure Asset where
  code : String
  issuer : String
  deriving DecidableEq

/-- The calls of `stellar-sdk` that can throw. -/
structure Sdk where
  /-- `Keypair.fromPublicKey(key)` returns. -/
  fromPublicKey : String → Bool
  /-- `server.loadAccount(key)` finds the account. -/
  loadAccount : String → Bool
  /-- `new Asset(code, issuer)`. -/
  asset : String → String → Option Asset
  /-- `Operation.payment({ destination, asset, amount })` returns. -/
  payment : String → Asset → String → Bool

/-- What the documentation of `stellar-sdk` promises. -/
structure Sdk.Documented (sdk : Sdk) : Prop where
  asset_issuer : ∀ code issuer a, sdk.asset code issuer = some a → a.issuer = issuer
  /-- Only the code `xlm` is written otherwise than it is given. -/
  asset_code : ∀ code issuer a, sdk.asset code issuer = some a →
    a.code = code ∨ (code.toLower = "xlm" ∧ a.code = "XLM")
  /-- An amount is a positive number of stroops. -/
  amount : ∀ destination a text, sdk.payment destination a text = true →
    ∃ n : Nat, 0 < n ∧ n < 2 ^ 63 ∧ decimal? text.toList = some ((n : ℚ) / 10 ^ 7)

/-! ## The transaction -/

/-- `x.toFixed(7)` of a number that may be `NaN`. -/
def toFixedText : Option ℚ → String
  | some x => String.ofList (toFixed7 x)
  | none => "NaN"

/-- `formatStellarAmount(amount)`. -/
def formatStellarAmount (amount : String) : String :=
  String.ofList (trimZeros (toFixedText (number? amount.toList)).toList)

/-- The payment operation. -/
structure PaymentOp where
  destination : String
  asset : Asset
  amount : String
  deriving DecidableEq

/-- The transaction that the XDR encodes. -/
structure PaymentTx where
  source : String
  fee : String
  networkPassphrase : Passphrase
  operation : PaymentOp
  timeout : Nat
  deriving DecidableEq

/-- `buildPaymentXdr(invoice, payerPublicKey, testMode)`. -/
def buildPaymentXdr (sdk : Sdk) (env : AppEnv) (muxedAddress grossUsdc payerPublicKey : String)
    (testMode : Option Bool) : Except ApiError PaymentTx :=
  let networkEnv := if env.STELLAR_NETWORK = .mainnet then Passphrase.PUBLIC else .TESTNET
  let network := match testMode with
    | some true => .TESTNET
    | some false => .PUBLIC
    | none => networkEnv
  if !sdk.fromPublicKey payerPublicKey then .error (.badRequest "Invalid payer public key")
  else if !sdk.loadAccount payerPublicKey then .error .library
  else match sdk.asset env.STELLAR_ASSET_CODE env.STELLAR_ASSET_ISSUER with
    | none => .error .library
    | some asset =>
      let amount := formatStellarAmount grossUsdc
      if !sdk.payment muxedAddress asset amount then .error .library
      else .ok {
        source := payerPublicKey
        fee := "100"
        networkPassphrase := network
        operation := { destination := muxedAddress, asset, amount }
        timeout := 300 }

/-- **What a transaction pays**: the configured asset, in the amount that
`formatStellarAmount` makes of the invoice's gross. -/
theorem buildPaymentXdr_ok {sdk : Sdk} {env : AppEnv}
    {muxedAddress grossUsdc payerPublicKey : String} {testMode : Option Bool} {tx : PaymentTx}
    (h : buildPaymentXdr sdk env muxedAddress grossUsdc payerPublicKey testMode = .ok tx) :
    sdk.asset env.STELLAR_ASSET_CODE env.STELLAR_ASSET_ISSUER = some tx.operation.asset ∧
      tx.operation.destination = muxedAddress ∧
      tx.operation.amount = formatStellarAmount grossUsdc ∧
      sdk.payment muxedAddress tx.operation.asset tx.operation.amount = true := by
  unfold buildPaymentXdr at h
  dsimp only at h
  split at h
  · cases h
  · split at h
    · cases h
    · split at h
      · cases h
      · next asset hasset =>
        split at h
        · cases h
        · next hpay =>
          cases h
          exact ⟨hasset, rfl, rfl, by simpa using hpay⟩

/-! ## Amounts -/

/-- The nearest double of an amount still rounds to the amount. -/
def IsExactDouble (n : Numeric) : Prop := roundHalfUp (toBinary64 n.value * 10 ^ 7) = n.units

instance (n : Numeric) : Decidable (IsExactDouble n) := inferInstanceAs (Decidable (_ = _))

/-- Every amount below 536870912 does. -/
theorem isExactDouble_of_lt {n : Numeric} (h₀ : 0 ≤ n.units) (h : n.units < 2 ^ 29 * 10 ^ 7) :
    IsExactDouble n := by
  obtain ⟨k, hk⟩ := Int.eq_ofNat_of_zero_le h₀
  have hround := roundHalfUp_toBinary64 (n := k) (by omega)
  have hvalue : n.value = (k : ℚ) / 10 ^ 7 := by rw [Numeric.value, hk, Int.cast_natCast]
  rw [IsExactDouble, hvalue, hround, hk]

/-- `Number(text)` of a column is the double nearest to it. -/
theorem number?_text (n : Numeric) : number? n.text.toList = some (toBinary64 n.value) := by
  have hspace : ∀ c ∈ n.text.toList, isSpace c = false := by
    intro c hc
    rcases n.isNumberChar_text c hc with h | rfl | rfl
    · exact isSpace_of_isDigit h
    · decide
    · decide
  have hne : n.text.toList ≠ [] := by
    intro hnil
    have := n.decimal?_text
    rw [hnil] at this
    cases this
  rw [number?_of_forall hne hspace, n.decimal?_text, Option.map_some]

/-- Columns are far from where `toFixed` gives up. -/
theorem toBinary64_lt (n : Numeric) : toBinary64 n.value < 10 ^ 21 := by
  rcases le_total 0 n.value with h | h
  · have hlt : n.value < 10 ^ 11 := by
      have hrange := n.inRange
      have hunits : (n.units : ℚ) < 10 ^ 18 := by
        have : n.units < 10 ^ 18 := by omega
        exact_mod_cast this
      rw [Numeric.value, div_lt_iff₀ (by norm_num)]
      linarith
    have := toBinary64_le h
    linarith
  · have := toBinary64_nonpos h
    linarith

/-- **An amount that the SDK takes** is the amount of the invoice, rounded as a
double. -/
theorem units_of_formatStellarAmount {g : Numeric} {n : Nat} (hn : 0 < n)
    (h : decimal? (formatStellarAmount g.text).toList = some ((n : ℚ) / 10 ^ 7)) :
    roundHalfUp (toBinary64 g.value * 10 ^ 7) = n := by
  have hpos : (0 : ℚ) < (n : ℚ) / 10 ^ 7 := by positivity
  rw [formatStellarAmount, number?_text, toFixedText, String.toList_ofList,
    String.toList_ofList, toFixed7] at h
  split at h
  · -- a sign in front: the amount is not positive
    next hneg =>
    obtain ⟨ds, hds⟩ := trimZeros_minus (toFixed7.positive (-toBinary64 g.value))
    rw [hds] at h
    exact absurd (decimal?_minus_nonpos h) (not_le.mpr hpos)
  · next hnonneg =>
    rw [toFixed7.positive, if_pos (toBinary64_lt g), decimal?_trimZeros 7 _ (by decide),
      Option.some.injEq] at h
    have hround : 0 ≤ roundHalfUp (toBinary64 g.value * 10 ^ 7) := by
      refine Int.floor_nonneg.mpr ?_
      have : 0 ≤ toBinary64 g.value := not_lt.mp hnonneg
      positivity
    have hcast : ((roundHalfUp (toBinary64 g.value * 10 ^ 7)).toNat : ℚ) = n := by
      field_simp at h
      exact h
    have hnat : (roundHalfUp (toBinary64 g.value * 10 ^ 7)).toNat = n := by exact_mod_cast hcast
    rw [← hnat, Int.toNat_of_nonneg hround]

end Stargate.Stellar
