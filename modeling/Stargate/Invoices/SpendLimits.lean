import Stargate.Invoices.CreateBulk

/-!
# `InvoicesService.enforceSpendLimits`

The total of the day or the month comes back as text and goes through `toUnits`, the
parser of amounts. It rejects a total of zero, so that the first invoice of a period
is refused under every limit. A negative total loses its sign or is rejected.

- `Legible`: the totals that lead to the right decision;
- `enforceLimit_of_legible`, `enforceLimit_of_not_legible`: one limit;
- `decides_iff`: both limits. For totals that are not negative, the condition is that each total
  read is not zero.
-/

namespace Stargate.Invoices

open Base

/-- What the parser says of a total that is not positive. -/
def notPositive : ApiError := .badRequest "Amount must be greater than zero"

/-- The sum of `gross_usdc_equiv` since a time, over the invoices of a merchant that are not
cancelled. -/
def total (db : Db) (merchantId : Uuid) (since : Timestamp) : Int := (spent db merchantId since).sum

/-- There is no limit, or the total stays within it. -/
def WithinLimit (limit : Option Numeric) (total usdcAmount : Int) : Prop :=
  ∀ l, limit = some l → total + usdcAmount ≤ l.units

/-- There is no limit, or the total is read as what it is, or as an amount that gives the same
decision. -/
def Legible (limit : Option Numeric) (total usdcAmount : Int) : Prop :=
  ∀ l, limit = some l → 0 < total ∨
    (-SCALE < total ∧ total < 0 ∧ (usdcAmount - total ≤ l.units ∨ l.units < total + usdcAmount))

/-- The limits of a merchant, where it has some, are positive. -/
def Positive (limit : Option Numeric) : Prop := ∀ l, limit = some l → 0 < l.units

/-! ## One limit -/

/-- How a total is read back. -/
theorem toUnits_sumText (xs : List Int) :
    toUnits (sumText xs) = if 0 < xs.sum then .ok xs.sum
      else if -SCALE < xs.sum ∧ xs.sum < 0 then .ok (-xs.sum) else .error notPositive := by
  unfold sumText
  by_cases hxs : xs = []
  · rw [hxs, if_pos rfl, List.sum_nil, if_neg (by decide), if_neg (by decide)]
    decide +kernel
  · rw [if_neg hxs, Numeric.unitsText]
    by_cases hneg : xs.sum < 0
    · rw [if_pos hneg, toUnits_neg_fixedText, if_neg (show ¬ 0 < xs.sum by omega)]
      have hiff : (0 < xs.sum.natAbs ∧ xs.sum.natAbs < 10 ^ 7) ↔
          (-SCALE < xs.sum ∧ xs.sum < 0) := by
        unfold SCALE
        omega
      by_cases h : -SCALE < xs.sum ∧ xs.sum < 0
      · rw [if_pos h, if_pos (hiff.mpr h)]
        congr 1
        omega
      · rw [if_neg h, if_neg (mt hiff.mp h)]
        rfl
    · rw [if_neg hneg, toUnits_fixedText]
      by_cases h0 : xs.sum = 0
      · rw [if_pos (by omega), if_neg (by omega), if_neg (by omega)]
        rfl
      · rw [if_neg (by omega), if_pos (by omega)]
        congr 1
        omega

section Decision

variable {env : CreateEnv} {now since : Timestamp} {db : Db} {merchantId : Uuid}
  {merchant : Merchant} {limit : Option Numeric} {usdcAmount : Int} {message : String}

theorem within_some {l : Numeric} {t : Int} :
    WithinLimit (some l) t usdcAmount ↔ t + usdcAmount ≤ l.units :=
  ⟨fun h => h l rfl, fun h _ heq => by cases heq; exact h⟩

/-- The comparison with the total that has been read, or the error of the parser. -/
theorem enforceLimit_some {l : Numeric} (hl : 0 < l.units) :
    enforceLimit db merchantId (some l) since usdcAmount message
      = if 0 < total db merchantId since then
          if l.units < total db merchantId since + usdcAmount then .error (.badRequest message)
          else .ok ()
        else if -SCALE < total db merchantId since ∧ total db merchantId since < 0 then
          if l.units < -total db merchantId since + usdcAmount then .error (.badRequest message)
          else .ok ()
        else .error notPositive := by
  have hlimit : toUnits l.text = .ok l.units := by
    rw [Numeric.toUnits_text hl.le, if_neg hl.ne']
  unfold enforceLimit
  simp only [spentText_eq, toUnits_sumText, hlimit]
  change _ = ite (0 < (spent db merchantId since).sum) _
    (ite (-SCALE < (spent db merchantId since).sum ∧ (spent db merchantId since).sum < 0) _ _)
  by_cases hT : 0 < (spent db merchantId since).sum
  · simp only [if_pos hT]
    rfl
  · by_cases hneg : -SCALE < (spent db merchantId since).sum ∧ (spent db merchantId since).sum < 0
    · simp only [if_neg hT, if_pos hneg]
      rfl
    · simp only [if_neg hT, if_neg hneg]
      rfl

/-- A legible total is compared with the limit. -/
theorem enforceLimit_of_legible (hpos : Positive limit)
    (h : Legible limit (total db merchantId since) usdcAmount) :
    (WithinLimit limit (total db merchantId since) usdcAmount ∧
      enforceLimit db merchantId limit since usdcAmount message = .ok ()) ∨
    (¬ WithinLimit limit (total db merchantId since) usdcAmount ∧
      enforceLimit db merchantId limit since usdcAmount message
        = .error (.badRequest message)) := by
  cases limit with
  | none => exact .inl ⟨nofun, rfl⟩
  | some l =>
    rw [within_some, enforceLimit_some (hpos l rfl)]
    rcases h l rfl with hT | ⟨hlow, hneg, hsame⟩
    · rw [if_pos hT]
      by_cases hw : total db merchantId since + usdcAmount ≤ l.units
      · exact .inl ⟨hw, if_neg (not_lt.mpr hw)⟩
      · exact .inr ⟨hw, if_pos (not_le.mp hw)⟩
    · rw [if_neg (by omega), if_pos ⟨hlow, hneg⟩]
      -- the sign is lost, and the comparison has the same result without it
      rcases hsame with hle | hlt
      · exact .inl ⟨by omega, if_neg (by omega)⟩
      · exact .inr ⟨by omega, if_pos (by omega)⟩

/-- Any other total is an error, of the parser or in spite of the room that is left. -/
theorem enforceLimit_of_not_legible (hpos : Positive limit)
    (h : ¬ Legible limit (total db merchantId since) usdcAmount) :
    enforceLimit db merchantId limit since usdcAmount message = .error notPositive ∨
    (WithinLimit limit (total db merchantId since) usdcAmount ∧
      enforceLimit db merchantId limit since usdcAmount message
        = .error (.badRequest message)) := by
  cases limit with
  | none => exact absurd nofun h
  | some l =>
    have hnot : ¬ (0 < total db merchantId since ∨ (-SCALE < total db merchantId since ∧
        total db merchantId since < 0 ∧ (usdcAmount - total db merchantId since ≤ l.units ∨
          l.units < total db merchantId since + usdcAmount))) :=
      fun hl => h fun _ heq => by cases heq; exact hl
    rw [within_some, enforceLimit_some (hpos l rfl), if_neg fun hT => hnot (.inl hT)]
    by_cases hneg : -SCALE < total db merchantId since ∧ total db merchantId since < 0
    · rw [if_pos hneg]
      exact .inr ⟨by omega, if_pos (by omega)⟩
    · rw [if_neg hneg]
      exact .inl rfl

/-! ## Both limits -/

/-- The call returns if both limits have room for the amount, and otherwise throws the error of
a limit that has not. -/
structure Decides (env : CreateEnv) (now : Timestamp) (db : Db) (merchant : Merchant)
    (usdcAmount : Int) : Prop where
  ok_iff : enforceSpendLimits env now db merchant usdcAmount = .ok () ↔
    WithinLimit merchant.dailySpendLimitUsdc (total db merchant.id (env.startOfDay now))
      usdcAmount ∧
    WithinLimit merchant.monthlySpendLimitUsdc (total db merchant.id (env.startOfMonth now))
      usdcAmount
  error : enforceSpendLimits env now db merchant usdcAmount ≠ .ok () →
    (enforceSpendLimits env now db merchant usdcAmount
        = .error (.badRequest "Daily spend limit exceeded") ∧
      ¬ WithinLimit merchant.dailySpendLimitUsdc (total db merchant.id (env.startOfDay now))
        usdcAmount) ∨
    (enforceSpendLimits env now db merchant usdcAmount
        = .error (.badRequest "Monthly spend limit exceeded") ∧
      ¬ WithinLimit merchant.monthlySpendLimitUsdc (total db merchant.id (env.startOfMonth now))
        usdcAmount)

/-- The daily check decides if it fails. -/
theorem enforceSpendLimits_of_daily {e : ApiError}
    (h : enforceLimit db merchant.id merchant.dailySpendLimitUsdc (env.startOfDay now) usdcAmount
      "Daily spend limit exceeded" = .error e) :
    enforceSpendLimits env now db merchant usdcAmount = .error e := by
  rw [enforceSpendLimits, h]
  rfl

/-- If it does not, the monthly one decides. -/
theorem enforceSpendLimits_of_monthly
    (h : enforceLimit db merchant.id merchant.dailySpendLimitUsdc (env.startOfDay now) usdcAmount
      "Daily spend limit exceeded" = .ok ()) :
    enforceSpendLimits env now db merchant usdcAmount =
      enforceLimit db merchant.id merchant.monthlySpendLimitUsdc (env.startOfMonth now) usdcAmount
        "Monthly spend limit exceeded" := by
  rw [enforceSpendLimits, h]
  rfl

/-- What a right decision throws is not the error of the parser. -/
theorem Decides.ne_notPositive (h : Decides env now db merchant usdcAmount) :
    enforceSpendLimits env now db merchant usdcAmount ≠ .error notPositive := by
  intro heq
  have hthrew : enforceSpendLimits env now db merchant usdcAmount ≠ .ok () := by
    intro hok
    cases heq.symm.trans hok
  rcases h.error hthrew with ⟨hdaily, -⟩ | ⟨hmonthly, -⟩
  · exact absurd (Except.error.inj (heq.symm.trans hdaily)) (by decide)
  · exact absurd (Except.error.inj (heq.symm.trans hmonthly)) (by decide)

/-- Nor does it throw the error of the day where the day has room. -/
theorem Decides.not_within (h : Decides env now db merchant usdcAmount)
    (heq : enforceSpendLimits env now db merchant usdcAmount
      = .error (.badRequest "Daily spend limit exceeded")) :
    ¬ WithinLimit merchant.dailySpendLimitUsdc (total db merchant.id (env.startOfDay now))
      usdcAmount := by
  have hthrew : enforceSpendLimits env now db merchant usdcAmount ≠ .ok () := by
    intro hok
    cases heq.symm.trans hok
  rcases h.error hthrew with ⟨-, hno⟩ | ⟨hmonthly, -⟩
  · exact hno
  · exact absurd (Except.error.inj (heq.symm.trans hmonthly)) (by decide)

/-- **The decision is right if and only if the totals that it reads are legible**: the daily
one, and the monthly one unless the daily limit is exceeded already. -/
theorem decides_iff (hdaily : Positive merchant.dailySpendLimitUsdc)
    (hmonthly : Positive merchant.monthlySpendLimitUsdc) :
    Decides env now db merchant usdcAmount ↔
      Legible merchant.dailySpendLimitUsdc (total db merchant.id (env.startOfDay now)) usdcAmount ∧
      (WithinLimit merchant.dailySpendLimitUsdc (total db merchant.id (env.startOfDay now))
          usdcAmount →
        Legible merchant.monthlySpendLimitUsdc (total db merchant.id (env.startOfMonth now))
          usdcAmount) := by
  constructor
  · intro h
    have hlegible : Legible merchant.dailySpendLimitUsdc
        (total db merchant.id (env.startOfDay now)) usdcAmount := by
      by_contra hnot
      rcases enforceLimit_of_not_legible hdaily hnot with hres | ⟨hwithin, hres⟩
      · exact h.ne_notPositive (enforceSpendLimits_of_daily hres)
      · exact h.not_within (enforceSpendLimits_of_daily hres) hwithin
    refine ⟨hlegible, fun hwithin => ?_⟩
    rcases enforceLimit_of_legible hdaily hlegible with ⟨-, hday⟩ | ⟨hno, -⟩
    · have heq := enforceSpendLimits_of_monthly hday
      by_contra hnot
      rcases enforceLimit_of_not_legible hmonthly hnot with hres | ⟨hroom, hres⟩
      · exact h.ne_notPositive (heq.trans hres)
      · have hok := h.ok_iff.mpr ⟨hwithin, hroom⟩
        rw [heq, hres] at hok
        cases hok
    · exact absurd hwithin hno
  · rintro ⟨hlegible, hmonth⟩
    rcases enforceLimit_of_legible hdaily hlegible with ⟨hday, hres⟩ | ⟨hday, hres⟩
    · have hnext := enforceSpendLimits_of_monthly hres
      rcases enforceLimit_of_legible hmonthly (hmonth hday) with ⟨hroom, hres'⟩ | ⟨hroom, hres'⟩
      · have heq := hnext.trans hres'
        exact ⟨iff_of_true heq ⟨hday, hroom⟩, fun hne => absurd heq hne⟩
      · have heq := hnext.trans hres'
        refine ⟨iff_of_false (fun h => ?_) fun h => hroom h.2, fun _ => .inr ⟨heq, hroom⟩⟩
        rw [heq] at h
        cases h
    · have heq := enforceSpendLimits_of_daily hres
      refine ⟨iff_of_false (fun h => ?_) fun h => hday h.1, fun _ => .inl ⟨heq, hday⟩⟩
      rw [heq] at h
      cases h

end Decision

theorem inRange_limit : (250000000 : Int).natAbs < 10 ^ 18 := by decide

/-- The merchant of `limitedDb`, with a daily limit of 25 USDC. -/
def limitedMerchant : Merchant :=
  { testMerchant with dailySpendLimitUsdc := some ⟨250000000, inRange_limit⟩ }

/-- 10.50 of 25 USDC are spent. -/
theorem decides_spent : Positive limitedMerchant.dailySpendLimitUsdc ∧
    Positive limitedMerchant.monthlySpendLimitUsdc ∧
    Decides testEnv 0 limitedDb limitedMerchant 100000000 := by
  have hdaily : Positive limitedMerchant.dailySpendLimitUsdc := by
    intro l hl
    cases hl
    decide
  have hmonthly : Positive limitedMerchant.monthlySpendLimitUsdc := nofun
  refine ⟨hdaily, hmonthly, (decides_iff hdaily hmonthly).mpr ⟨fun l _ => .inl ?_, fun _ => nofun⟩⟩
  decide +kernel

/-- Nothing is spent yet, and an amount below the limit is refused. -/
theorem first_invoice_refused :
    WithinLimit limitedMerchant.dailySpendLimitUsdc
      (total testDb limitedMerchant.id (testEnv.startOfDay 0)) 100000000 ∧
    WithinLimit limitedMerchant.monthlySpendLimitUsdc
      (total testDb limitedMerchant.id (testEnv.startOfMonth 0)) 100000000 ∧
    enforceSpendLimits testEnv 0 testDb limitedMerchant 100000000
      = .error (.badRequest "Amount must be greater than zero") ∧
    ¬ Decides testEnv 0 testDb limitedMerchant 100000000 := by
  have hday : WithinLimit limitedMerchant.dailySpendLimitUsdc
      (total testDb limitedMerchant.id (testEnv.startOfDay 0)) 100000000 := by
    rintro l ⟨⟩
    decide +kernel
  have hmonth : WithinLimit limitedMerchant.monthlySpendLimitUsdc
      (total testDb limitedMerchant.id (testEnv.startOfMonth 0)) 100000000 := nofun
  have hres : enforceSpendLimits testEnv 0 testDb limitedMerchant 100000000
      = .error (.badRequest "Amount must be greater than zero") := by
    decide +kernel
  refine ⟨hday, hmonth, hres, fun h => ?_⟩
  have hok := h.ok_iff.mpr ⟨hday, hmonth⟩
  rw [hres] at hok
  cases hok

end Stargate.Invoices
