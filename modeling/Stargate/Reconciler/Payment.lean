import Stargate.Schema

/-!
# Payments, configuration and screening (`stream.rs`, `main.rs`, `compliance.rs`)

What a call of `process_payment` is given: the Horizon payment, the
configuration, and Redis.

The reconciler leans on two crates that are not part of the repository:
`rust_decimal` reads amounts, `serde_json` reads and writes the cached
screening result. Their functions are fields of `Env`; results that depend on
how they behave say so in a hypothesis.
-/

namespace Stargate.Reconciler

open Base

/-- `stream::HorizonPayment`. -/
structure HorizonPayment where
  pagingToken : String
  id : String
  /-- `from`. -/
  fromAddress : String
  /-- `to`. -/
  toAddress : String
  amount : String
  assetType : Option String
  assetCode : Option String
  assetIssuer : Option String
  transactionHash : String
  ledger : Int
  transactionSuccessful : Option Bool
  memo : Option String
  deriving DecidableEq

/-- The part of `Config` that decides about payments. -/
structure Config where
  assetIssuer : String
  /-- If unset, any EURC issuer is accepted. -/
  eurcAssetIssuer : Option String
  ofacScreeningEnabled : Bool
  trmLabsApiKey : Option String

/-- `compliance::OfacResult`. -/
structure OfacResult where
  result : String
  riskScore : Nat
  deriving DecidableEq

/-- The configuration and the crates that the reconciler is built with. -/
structure Env where
  config : Config
  /-- `Decimal::from_str`, exact; `none` is the parse error. -/
  decimalFromStr : String → Option ℚ
  /-- `serde_json::from_str::<OfacResult>`. -/
  ofacFromStr : String → Option OfacResult
  /-- `serde_json::to_string(&OfacResult)`. -/
  ofacToStr : OfacResult → String

/-! ## Assets -/

/-- `ACCEPTED_ASSETS`. -/
def acceptedAssets : List String := ["USDC", "EURC", "XLM"]

/-- `is_accepted_asset`. -/
def isAcceptedAsset (payment : HorizonPayment) (config : Config) : Bool :=
  if payment.assetType = some "native" then acceptedAssets.contains "XLM"
  else match payment.assetCode with
    | none => false
    | some code =>
      if !acceptedAssets.contains code then false
      else if code = "USDC" then payment.assetIssuer = some config.assetIssuer
      else if code = "EURC" then
        match config.eurcAssetIssuer with
        | some eurcIssuer => payment.assetIssuer = some eurcIssuer
        | none => true
      else false

/-- `matcher::payment_asset_currency`. -/
def paymentAssetCurrency (payment : HorizonPayment) : String :=
  if payment.assetType = some "native" then "XLM" else payment.assetCode.getD ""

/-- The asset of a payment is one the platform takes for invoices in `c`: the
native asset for XLM, an issued one under the configured issuer otherwise. -/
def PaysIn (config : Config) (payment : HorizonPayment) : Currency → Prop
  | .xlm => payment.assetType = some "native"
  | .usdc => payment.assetType ≠ some "native" ∧ payment.assetCode = some "USDC" ∧
      payment.assetIssuer = some config.assetIssuer
  | .eurc => payment.assetType ≠ some "native" ∧ payment.assetCode = some "EURC" ∧
      ∀ issuer, config.eurcAssetIssuer = some issuer → payment.assetIssuer = some issuer

/-- **The two readings of the asset fields agree**: a payment that passes
`is_accepted_asset` and whose `payment_asset_currency` is the code of `c` pays
in `c`, and conversely. Neither test alone says as much: the first accepts any
of the three assets, the second ignores the issuer. -/
theorem paysIn_iff (config : Config) (payment : HorizonPayment) (c : Currency) :
    (isAcceptedAsset payment config = true ∧ c.code = paymentAssetCurrency payment)
      ↔ PaysIn config payment c := by
  by_cases hn : payment.assetType = some "native"
  · cases c <;>
      simp [isAcceptedAsset, paymentAssetCurrency, PaysIn, Currency.code, acceptedAssets, hn]
  · cases hcode : payment.assetCode with
    | none =>
      cases c <;> simp [isAcceptedAsset, paymentAssetCurrency, PaysIn, Currency.code, hn, hcode]
    | some code =>
      cases c with
      | xlm =>
        refine iff_of_false (fun ⟨hacc, hcur⟩ => ?_) hn
        have hxlm : code = "XLM" := by
          simpa [paymentAssetCurrency, hn, hcode, Currency.code] using hcur.symm
        simp [isAcceptedAsset, hn, hcode, hxlm, acceptedAssets] at hacc
      | usdc =>
        simp only [paymentAssetCurrency, hn, hcode, PaysIn, Currency.code]
        constructor
        · rintro ⟨hacc, hcur⟩
          have husdc : code = "USDC" := by simpa using hcur.symm
          subst husdc
          simpa [isAcceptedAsset, hn, hcode, acceptedAssets] using hacc
        · rintro ⟨-, hcur, hiss⟩
          cases hcur
          simp [isAcceptedAsset, hn, hcode, acceptedAssets, hiss]
      | eurc =>
        simp only [paymentAssetCurrency, hn, hcode, PaysIn, Currency.code]
        constructor
        · rintro ⟨hacc, hcur⟩
          have heurc : code = "EURC" := by simpa using hcur.symm
          subst heurc
          refine ⟨hn, rfl, fun issuer hi => ?_⟩
          simpa [isAcceptedAsset, hn, hcode, acceptedAssets, hi] using hacc
        · rintro ⟨-, hcur, hiss⟩
          cases hcur
          refine ⟨?_, rfl⟩
          cases hi : config.eurcAssetIssuer with
          | none => simp [isAcceptedAsset, hn, hcode, acceptedAssets, hi]
          | some issuer => simp [isAcceptedAsset, hn, hcode, acceptedAssets, hi, hiss issuer hi]

/-! ## Redis and screening -/

/-- The message published when an invoice is paid. -/
structure PaidMessage where
  invoiceId : Uuid
  txHash : String
  currency : Currency
  deriving DecidableEq

/-- Redis: string keys, and the messages published on `invoice:<id>`. -/
structure Redis where
  get : String → Option String := fun _ => none
  published : List PaidMessage := []

/-- `SET key value`. -/
def Redis.set (r : Redis) (key : String) (value : Option String) : Redis :=
  { r with get := fun k => if k = key then value else r.get k }

@[simp] theorem Redis.get_set_self (r : Redis) (key : String) (value : Option String) :
    (r.set key value).get key = value := if_pos rfl

/-- The cache key of an address. -/
def ofacKey (address : String) : String := "ofac:" ++ address

theorem ofacKey_injective {a b : String} (h : ofacKey a = ofacKey b) : a = b := by
  have hl := congrArg String.toList h
  simp only [ofacKey, String.toList_append] at hl
  exact String.toList_inj.mp (List.append_cancel_left hl)

/-- The result that `screen_address` caches on a miss. -/
def freshOfac (config : Config) : OfacResult :=
  if !config.ofacScreeningEnabled then ⟨"clear", 0⟩
  else if config.trmLabsApiKey.isNone then ⟨"review", 50⟩
  else ⟨"clear", 0⟩

/-- The result of `screen_address` over the given cache: the cached one if there
is one (`none` if it does not parse), else a fresh one. -/
def screenAddress (env : Env) (redis : Redis) (address : String) : Option OfacResult :=
  match redis.get (ofacKey address) with
  | some cached => env.ofacFromStr cached
  | none => some (freshOfac env.config)

/-- `serde_json` reads the result that the reconciler caches back. -/
def Env.CacheRoundTrip (env : Env) : Prop :=
  env.ofacFromStr (env.ofacToStr (freshOfac env.config)) = some (freshOfac env.config)

/-- Screening the address can only give results that satisfy `V`. -/
def ScreensAs (env : Env) (redis : Redis) (address : String) (V : OfacResult → Prop) : Prop :=
  ∀ ofac, screenAddress env redis address = some ofac → V ofac

theorem ScreensAs.congr {env : Env} {redis redis' : Redis} {address : String}
    {V : OfacResult → Prop} (h : ScreensAs env redis address V)
    (hget : redis'.get (ofacKey address) = redis.get (ofacKey address)) :
    ScreensAs env redis' address V := fun ofac hof =>
  h ofac (by rwa [screenAddress, hget] at hof)

/-- Writing an entry of the cache, for this address or another one. -/
theorem ScreensAs.set {env : Env} {redis : Redis} {address : String} {V : OfacResult → Prop}
    {key : String} {value : Option String} (h : ScreensAs env redis address V)
    (hvalue : key = ofacKey address → ScreensAs env (redis.set key value) address V) :
    ScreensAs env (redis.set key value) address V := by
  by_cases hkey : key = ofacKey address
  · exact hvalue hkey
  · exact h.congr (if_neg fun heq => hkey heq.symm)

/-- The reconciler itself never screens an address as blocked. -/
theorem freshOfac_ne_blocked (config : Config) : (freshOfac config).result ≠ "blocked" := by
  unfold freshOfac
  split_ifs <;> decide

end Stargate.Reconciler
