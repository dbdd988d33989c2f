import Stargate.Invoices.CreateBulk

/-!
# The amount check of `process_payment`

The reconciler compares decimals: what `Decimal::from_str` makes of Horizon's amount,
and the `gross_usdc` of the invoice. The API wrote `gross_usdc` from `BigInt` units, and
reads amounts as units. The two sides mean the same: `matches_iff`.
-/

namespace Stargate.Reconciler

open Base Invoices

/-- `Decimal::from_str` is exact on amounts. -/
def ReadsExactly (env : Env) : Prop :=
  ∀ cs, isAmountText cs = true → env.decimalFromStr (String.ofList cs) = decimal? cs

/-- The test `paid == expected`. -/
def amountMatches (env : Env) (amount : String) (grossUsdc : Numeric) : Prop :=
  env.decimalFromStr amount = some (roundDp7 grossUsdc)

/-- It decides whether the payment goes on with the invoice. -/
theorem amountMatches_iff_afterMatch {env : Env} {payment : HorizonPayment} {ofac : OfacResult}
    {inv : InvoiceRow} : amountMatches env payment.amount inv.grossUsdc ↔
      afterMatch env payment ofac (some inv) = .goto (.insertEvent ofac (some inv)) := by
  rw [amountMatches, roundDp7_eq, afterMatch_some]
  cases env.decimalFromStr payment.amount with
  | none => exact iff_of_false nofun nofun
  | some paid =>
    dsimp only
    rw [Option.some.injEq]
    constructor
    · intro h
      rw [if_pos h]
    · intro h
      by_contra hne
      rw [if_neg hne] at h
      cases h

/-- A column holds the number that its units denote. -/
theorem value_eq_iff {n : Numeric} {k : Nat} :
    (k : ℚ) / 10 ^ 7 = n.value ↔ (k : Int) = n.units := by
  rw [Numeric.value, div_left_inj' (by norm_num)]
  exact_mod_cast Iff.rfl

/-- What `gross_usdc` holds once `create` has written it. -/
theorem grossUsdc_of_insertQuote {env : CreateEnv} {now : Timestamp} {id : Uuid} {db db' : Db}
    {key : Option String} {q : Quote} {r : Invoice}
    (h : insertQuote env now id db key q = (.ok r, db')) :
    Numeric.ofText? (fromUnits q.gross) = some r.grossUsdc := by
  obtain ⟨_, _, _, _, -, hrow, -, -⟩ := insertQuote_ok_iff.mp h
  simp only [invoiceRow, Option.bind_eq_bind, Option.bind_eq_some_iff] at hrow
  obtain ⟨_, -, gross, hgross, _, -, _, -, _, -, _, -, hrow⟩ := hrow
  split at hrow
  · cases hrow
  · cases hrow
    exact hgross

/-- Every number of units up to the limit of the column can be written. -/
theorem exists_grossUsdc {g : Int} (hg : 1 ≤ g) (hlt : g < 10 ^ 18) :
    ∃ n, Numeric.ofText? (fromUnits g) = some n := by
  obtain ⟨k, rfl⟩ := Int.eq_ofNat_of_zero_le (show 0 ≤ g by omega)
  rw [Numeric.ofText?_fromUnits_natCast, Numeric.ofUnits?, dif_pos (by omega)]
  exact ⟨_, rfl⟩

/-- **The amount check means the same on both sides**: an amount matches what was written for
`g` units if and only if the API reads it as `g` units. -/
theorem matches_iff {env : Env} (hexact : ReadsExactly env) {g : Int} (hg : 1 ≤ g)
    (hlt : g < 10 ^ 18) {amount : String} (hamount : isAmountText amount.toList = true) :
    ∃ grossUsdc, Numeric.ofText? (fromUnits g) = some grossUsdc ∧
      (amountMatches env amount grossUsdc ↔ toUnits amount = .ok g) := by
  obtain ⟨grossUsdc, hgross⟩ := exists_grossUsdc hg hlt
  have hunits : grossUsdc.units = g := Numeric.units_of_ofText?_fromUnits hgross
  obtain ⟨n, hvalue, -, hread⟩ := Numeric.isAmountText_spec hamount
  have hparse := hexact amount.toList hamount
  rw [String.ofList_toList] at hread hparse
  refine ⟨grossUsdc, hgross, ?_⟩
  rw [amountMatches, roundDp7_eq, hparse, hvalue, Option.some.injEq, value_eq_iff, hunits, hread]
  by_cases h0 : n = 0
  · rw [if_pos h0]
    exact iff_of_false (by omega) nofun
  · rw [if_neg h0, Except.ok.injEq]

/-- 10.5 USDC, with and without trailing zeros. -/
theorem matches_padded :
    ReadsExactly { testEnv with decimalFromStr := fun s => decimal? s.toList } ∧
    isAmountText "0010.50".toList = true ∧ (1 : Int) ≤ 105000000 ∧ (105000000 : Int) < 10 ^ 18 ∧
    ∃ grossUsdc, Numeric.ofText? (fromUnits 105000000) = some grossUsdc ∧
      (amountMatches { testEnv with decimalFromStr := fun s => decimal? s.toList } "0010.50"
        grossUsdc ↔ toUnits "0010.50" = .ok 105000000) := by
  have hexact : ReadsExactly { testEnv with decimalFromStr := fun s => decimal? s.toList } := by
    intro cs _
    show decimal? (String.ofList cs).toList = decimal? cs
    rw [String.toList_ofList]
  exact ⟨hexact, by decide, by decide, by decide,
    matches_iff hexact (by decide) (by decide) (by decide)⟩

end Stargate.Reconciler
