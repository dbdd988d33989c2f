import Mathlib.Algebra.Order.Ring.Int
import Mathlib.Data.Nat.Find

/-!
# The Gregorian calendar, in both directions

Days are counted from 1 January 1970, and months from January of the year zero: month `k` is
the month `k % 12` of the year `k / 12`, where January is month zero of its year.

- `firstDay`, `length`: where a month starts, and its days;
- `monthOf`, `dateOf`: the month of a day, and the day within the month from one on;
- `monthOf_eq_iff`: a day is in one month;
- `setMonth`, `setDate`: what `Date` of ECMAScript computes with them, without daylight saving.
-/

namespace Stargate.Base.Calendar

/-! ## Years -/

/-- `DayFromYear(y)`: the first day of a year. -/
def daysBeforeYear (y : Int) : Int :=
  365 * (y - 1970) + (y - 1969) / 4 - (y - 1901) / 100 + (y - 1601) / 400

/-- `YearFromTime`, of a day: the last year that has begun. 400 years have 146097 days. -/
def yearOf (day : Int) : Int :=
  let y := 1970 + 400 * day / 146097
  if day < daysBeforeYear y then y - 1
  else if daysBeforeYear (y + 1) ≤ day then y + 1
  else y

/-- `DaysInYear(y) = 366`. -/
def isLeap (y : Int) : Bool := y % 4 == 0 && (y % 100 != 0 || y % 400 == 0)

/-- A day is in its year. -/
theorem yearOf_spec (day : Int) :
    daysBeforeYear (yearOf day) ≤ day ∧ day < daysBeforeYear (yearOf day + 1) := by
  unfold yearOf
  dsimp only
  split
  · next hlt =>
    rw [Int.sub_add_cancel]
    refine ⟨?_, hlt⟩
    unfold daysBeforeYear
    omega
  · split
    · next hle =>
      refine ⟨hle, ?_⟩
      unfold daysBeforeYear
      omega
    · omega

theorem daysBeforeYear_succ (y : Int) :
    daysBeforeYear (y + 1) = daysBeforeYear y + if isLeap y then 366 else 365 := by
  have hleap : isLeap y = true ↔ y % 4 = 0 ∧ (y % 100 ≠ 0 ∨ y % 400 = 0) := by
    simp [isLeap]
  unfold daysBeforeYear
  by_cases h : isLeap y = true
  · rw [if_pos h]
    rw [hleap] at h
    omega
  · rw [if_neg h]
    rw [hleap] at h
    omega

/-! ## Months of a year -/

/-- The days of a month of a year. -/
def monthLength (y : Int) (m : Nat) : Int :=
  match m with
  | 1 => if isLeap y then 29 else 28
  | 3 | 5 | 8 | 10 => 30
  | _ => 31

def daysBeforeMonth (y : Int) (m : Nat) : Int := ((List.range m).map (monthLength y)).sum

/-- `MonthFromTime`, of a day of the year from zero on. -/
def monthInYear (y day : Int) : Nat := Nat.findGreatest (fun m => daysBeforeMonth y m ≤ day) 11

theorem monthLength_bounds (y : Int) (m : Nat) : 28 ≤ monthLength y m ∧ monthLength y m ≤ 31 := by
  unfold monthLength
  split
  · split
    · decide
    · decide
  · decide
  · decide
  · decide
  · decide
  · decide

theorem daysBeforeMonth_succ (y : Int) (m : Nat) :
    daysBeforeMonth y (m + 1) = daysBeforeMonth y m + monthLength y m := by
  simp [daysBeforeMonth, List.range_succ]

theorem daysBeforeMonth_year (y : Int) :
    daysBeforeMonth y 12 = if isLeap y then 366 else 365 := by
  simp only [daysBeforeMonth, List.range, List.range.loop, List.map_cons, List.map_nil,
    List.sum_cons, List.sum_nil, monthLength]
  split
  · rfl
  · rfl

theorem monthInYear_spec {y day : Int} (h : 0 ≤ day) (hyear : day < daysBeforeMonth y 12) :
    monthInYear y day ≤ 11 ∧ daysBeforeMonth y (monthInYear y day) ≤ day ∧
      day < daysBeforeMonth y (monthInYear y day + 1) := by
  have hle : monthInYear y day ≤ 11 := Nat.findGreatest_le 11
  refine ⟨hle, ?_, ?_⟩
  · exact Nat.findGreatest_spec (P := fun m => daysBeforeMonth y m ≤ day) (Nat.zero_le 11) h
  · by_cases hlast : monthInYear y day = 11
    · rwa [hlast]
    · have hnext : ¬daysBeforeMonth y (monthInYear y day + 1) ≤ day :=
        Nat.findGreatest_is_greatest (P := fun m => daysBeforeMonth y m ≤ day)
          (Nat.lt_succ_self _) (by omega)
      omega

/-! ## Months -/

/-- The first day of a month. -/
def firstDay (k : Int) : Int := daysBeforeYear (k / 12) + daysBeforeMonth (k / 12) (k % 12).toNat

/-- The number of its days. -/
def length (k : Int) : Int := monthLength (k / 12) (k % 12).toNat

/-- The month of a day. -/
def monthOf (day : Int) : Int :=
  12 * yearOf day + monthInYear (yearOf day) (day - daysBeforeYear (yearOf day))

/-- `DateFromTime`, of a day. -/
def dateOf (day : Int) : Int := day - firstDay (monthOf day) + 1

theorem length_bounds (k : Int) : 28 ≤ length k ∧ length k ≤ 31 := monthLength_bounds _ _

/-- Months follow each other. -/
theorem firstDay_succ (k : Int) : firstDay (k + 1) = firstDay k + length k := by
  unfold firstDay length
  by_cases hlast : k % 12 = 11
  · -- December
    have hyear : (k + 1) / 12 = k / 12 + 1 := by omega
    have hmonth : (k + 1) % 12 = 0 := by omega
    rw [hyear, hmonth, hlast, daysBeforeYear_succ, ← daysBeforeMonth_year,
      show (11 : Int).toNat = 11 from rfl, daysBeforeMonth_succ]
    have hzero : daysBeforeMonth (k / 12 + 1) (0 : Int).toNat = 0 := rfl
    omega
  · have hyear : (k + 1) / 12 = k / 12 := by omega
    have hmonth : ((k + 1) % 12).toNat = (k % 12).toNat + 1 := by omega
    rw [hyear, hmonth, daysBeforeMonth_succ]
    omega

theorem firstDay_add_le (k : Int) (n : Nat) : firstDay k + 28 * n ≤ firstDay (k + n) := by
  induction n with
  | zero => simp
  | succ n ih =>
    have hstep := firstDay_succ (k + n)
    have hlength := (length_bounds (k + n)).1
    rw [Int.add_assoc] at hstep
    push_cast
    omega

theorem firstDay_le {j k : Int} (h : j ≤ k) : firstDay j ≤ firstDay k := by
  obtain ⟨n, rfl⟩ := Int.le.dest h
  have := firstDay_add_le j n
  omega

/-- A day is in its month. -/
theorem monthOf_spec (day : Int) :
    firstDay (monthOf day) ≤ day ∧ day < firstDay (monthOf day + 1) := by
  obtain ⟨hlow, hhigh⟩ := yearOf_spec day
  rw [daysBeforeYear_succ, ← daysBeforeMonth_year] at hhigh
  have hnonneg : 0 ≤ day - daysBeforeYear (yearOf day) := by omega
  have hyear : day - daysBeforeYear (yearOf day) < daysBeforeMonth (yearOf day) 12 := by omega
  obtain ⟨hmonth, hle, hlt⟩ := monthInYear_spec hnonneg hyear
  rw [daysBeforeMonth_succ] at hlt
  rw [firstDay_succ]
  unfold firstDay length monthOf
  generalize monthInYear (yearOf day) (day - daysBeforeYear (yearOf day)) = m at *
  have hdiv : (12 * yearOf day + (m : Int)) / 12 = yearOf day := by omega
  have hmod : ((12 * yearOf day + (m : Int)) % 12).toNat = m := by omega
  rw [hdiv, hmod]
  constructor
  · omega
  · omega

/-- **A day is in one month.** -/
theorem monthOf_eq_iff {day k : Int} :
    monthOf day = k ↔ firstDay k ≤ day ∧ day < firstDay (k + 1) := by
  obtain ⟨hle, hlt⟩ := monthOf_spec day
  constructor
  · rintro rfl
    exact ⟨hle, hlt⟩
  · rintro ⟨hle', hlt'⟩
    by_contra hne
    rcases lt_or_gt_of_ne hne with hbefore | hafter
    · have := firstDay_le (show monthOf day + 1 ≤ k by omega)
      omega
    · have := firstDay_le (show k + 1 ≤ monthOf day by omega)
      omega

theorem dateOf_bounds (day : Int) : 1 ≤ dateOf day ∧ dateOf day ≤ length (monthOf day) := by
  obtain ⟨hle, hlt⟩ := monthOf_spec day
  rw [firstDay_succ] at hlt
  unfold dateOf
  constructor
  · omega
  · omega

/-- The day that is as late in a later month: in that month, or in the one after it. -/
theorem monthOf_firstDay_add {k date : Int} (hone : 1 ≤ date) (hmax : date ≤ 31) :
    monthOf (firstDay k + date - 1) = if date ≤ length k then k else k + 1 := by
  have hnext := firstDay_succ k
  have hafter := firstDay_succ (k + 1)
  have hlength := (length_bounds (k + 1)).1
  split
  · rw [monthOf_eq_iff]
    constructor
    · omega
    · omega
  · rw [monthOf_eq_iff]
    constructor
    · omega
    · have := (length_bounds k).1
      omega

/-! ## Dates of ECMAScript

A time value is a number of milliseconds, and `NaN` is `none`. Local time is `offset` ahead of
UTC. -/

def msPerDay : Int := 86400000

/-- `Day(LocalTime(t))`. -/
def localDay (offset t : Int) : Int := (t + offset) / msPerDay

/-- `TimeWithinDay(LocalTime(t))`. -/
def timeWithinDay (offset t : Int) : Int := (t + offset) % msPerDay

/-- `getFullYear()`. -/
def getFullYear (offset t : Int) : Int := yearOf (localDay offset t)

/-- `getMonth()`, from zero on. -/
def getMonth (offset t : Int) : Int :=
  monthInYear (getFullYear offset t) (localDay offset t - daysBeforeYear (getFullYear offset t))

/-- `getDate()`. -/
def getDate (offset t : Int) : Int := dateOf (localDay offset t)

/-- `MakeDay(year, month, date)`. -/
def makeDay (year month date : Int) : Int := firstDay (12 * year + month) + date - 1

/-- The last time value, in September 275760. -/
def maxTime : Int := 8640000000000000

/-- `TimeClip(t)`. -/
def timeClip (t : Int) : Option Int := if -maxTime ≤ t ∧ t ≤ maxTime then some t else none

/-- `TimeClip(UTC(MakeDate(day, time)))`. -/
def clippedDate (offset day time : Int) : Option Int := timeClip (day * msPerDay + time - offset)

/-- `setMonth(month)`. -/
def setMonth (offset t month : Int) : Option Int :=
  clippedDate offset (makeDay (getFullYear offset t) month (getDate offset t))
    (timeWithinDay offset t)

/-- `setDate(date)`. -/
def setDate (offset t date : Int) : Option Int :=
  clippedDate offset (makeDay (getFullYear offset t) (getMonth offset t) date)
    (timeWithinDay offset t)

example : setMonth 0 1706659200000 1 = some 1709337600000 := by decide +kernel

section Dates

variable {offset t u day time : Int}

theorem timeWithinDay_bounds (offset t : Int) :
    0 ≤ timeWithinDay offset t ∧ timeWithinDay offset t < msPerDay :=
  ⟨Int.emod_nonneg _ (by decide), Int.emod_lt_of_pos _ (by decide)⟩

theorem timeClip_eq_some {t u : Int} :
    timeClip t = some u ↔ t = u ∧ -maxTime ≤ u ∧ u ≤ maxTime := by
  unfold timeClip
  split
  · next h =>
    rw [Option.some.injEq]
    exact ⟨fun heq => ⟨heq, heq ▸ h⟩, fun hu => hu.1⟩
  · next h =>
    constructor
    · intro heq
      cases heq
    · rintro ⟨rfl, hu⟩
      exact absurd hu h

/-- A date is on its day, at its time. -/
theorem localDay_of_clippedDate (htime : 0 ≤ time ∧ time < msPerDay)
    (h : clippedDate offset day time = some u) :
    localDay offset u = day ∧ timeWithinDay offset u = time := by
  obtain ⟨rfl, -⟩ := timeClip_eq_some.mp h
  unfold localDay timeWithinDay
  unfold msPerDay at *
  constructor
  · omega
  · omega

/-- A date comes before those of later days. -/
theorem lt_of_localDay_lt (h : localDay offset t < localDay offset u) : t < u := by
  unfold localDay msPerDay at h
  omega

end Dates

end Stargate.Base.Calendar
