import Stargate.Base.Calendar

/-!
# When a schedule runs next

`nextRunAt` moves a date by a day, a week or a month. A month later, `setMonth` keeps the day of
the month, and a day that the month does not have becomes one of the month after.

- `runs`: the dates of a monthly schedule, each from the one before;
- `monthly_cases`: what a month later can be;
- `monthly_iff`: the schedule hits every month up to one exactly if they all have the day.
-/

namespace Stargate.Schedules

open Base Calendar

inductive Interval where
  | daily | weekly | monthly
  deriving DecidableEq, Repr

/-- `nextRunAt(interval)`, where the clock shows `now` and is `offset` ahead of UTC. -/
def nextRunAt (offset now : Int) : Interval → Option Int
  | .daily => setDate offset now (getDate offset now + 1)
  | .weekly => setDate offset now (getDate offset now + 7)
  | .monthly => setMonth offset now (getMonth offset now + 1)

/-- The dates of a monthly schedule: the start, and then each from the one before. -/
def runs (offset start : Int) : Nat → Option Int
  | 0 => some start
  | n + 1 => (runs offset start n).bind fun now => nextRunAt offset now .monthly

/-- The month of a date, counted from the year zero. -/
def monthNumber (offset t : Int) : Int := 12 * getFullYear offset t + getMonth offset t

/-- The date `n` months later with the same day of the month, if there were no last date. -/
def sameDate (offset start : Int) (n : Nat) : Int :=
  (firstDay (monthNumber offset start + n) + getDate offset start - 1) * msPerDay
    + timeWithinDay offset start - offset

/-- The dates `n` and `n + 1` of a schedule: the later one exists, after the other, in the month
`n + 1` of those after the start. -/
def HitsNext (offset start : Int) (n : Nat) : Prop :=
  ∃ before after, runs offset start n = some before ∧ runs offset start (n + 1) = some after ∧
    monthNumber offset after = monthNumber offset start + (n + 1) ∧ before < after

section Monthly

variable {offset start t u : Int} {n : Nat}

theorem getDate_bounds (offset t : Int) : 1 ≤ getDate offset t ∧ getDate offset t ≤ 31 := by
  obtain ⟨hone, hle⟩ := dateOf_bounds (localDay offset t)
  exact ⟨hone, hle.trans (length_bounds _).2⟩

/-- **A month later**, the day of the month is the same if the month has it, and else the date
is in the month after. -/
theorem monthly_cases (h : nextRunAt offset t .monthly = some u) : t < u ∧
    (getDate offset t ≤ length (monthNumber offset t + 1) ∧
        monthNumber offset u = monthNumber offset t + 1 ∧ getDate offset u = getDate offset t ∨
      length (monthNumber offset t + 1) < getDate offset t ∧
        monthNumber offset u = monthNumber offset t + 2) ∧
    timeWithinDay offset u = timeWithinDay offset t ∧
    u = (firstDay (monthNumber offset t + 1) + getDate offset t - 1) * msPerDay
      + timeWithinDay offset t - offset := by
  obtain ⟨hone, hmax⟩ := getDate_bounds offset t
  have hvalue := (timeClip_eq_some.mp h).1
  obtain ⟨hday, htime⟩ := localDay_of_clippedDate (timeWithinDay_bounds offset t) h
  have hmonth : 12 * getFullYear offset t + (getMonth offset t + 1) = monthNumber offset t + 1 :=
    (Int.add_assoc _ _ _).symm
  unfold makeDay at hday hvalue
  rw [hmonth] at hday hvalue
  have hnumber : monthNumber offset u
      = if getDate offset t ≤ length (monthNumber offset t + 1) then monthNumber offset t + 1
        else monthNumber offset t + 1 + 1 := by
    rw [← monthOf_firstDay_add hone hmax, ← hday]
    rfl
  have hlater : localDay offset t < localDay offset u := by
    have hbefore := (monthOf_spec (localDay offset t)).2
    rw [hday]
    change _ < firstDay (monthNumber offset t + 1) at hbefore
    omega
  refine ⟨lt_of_localDay_lt hlater, ?_, htime, hvalue.symm⟩
  by_cases hfits : getDate offset t ≤ length (monthNumber offset t + 1)
  · rw [if_pos hfits] at hnumber
    refine .inl ⟨hfits, hnumber, ?_⟩
    have hdate : getDate offset u = localDay offset u - firstDay (monthNumber offset u) + 1 := rfl
    rw [hdate, hday, hnumber]
    omega
  · rw [if_neg hfits] at hnumber
    exact .inr ⟨not_le.mp hfits, by omega⟩

/-- A step of the schedule. -/
theorem runs_succ : runs offset start (n + 1) = some u ↔
    ∃ t, runs offset start n = some t ∧ nextRunAt offset t .monthly = some u :=
  Option.bind_eq_some_iff

/-- No month is hit twice, and no date is before the start. -/
theorem le_monthNumber (h : runs offset start n = some t) :
    monthNumber offset start + n ≤ monthNumber offset t ∧ start ≤ t := by
  induction n generalizing t with
  | zero =>
    cases h
    exact ⟨by omega, le_rfl⟩
  | succ n ih =>
    obtain ⟨t', ht', hnext⟩ := runs_succ.mp h
    obtain ⟨hle, hstart⟩ := ih ht'
    obtain ⟨hlt, ⟨-, hmonth, -⟩ | ⟨-, hmonth⟩, -⟩ := monthly_cases hnext
    · exact ⟨by omega, by omega⟩
    · exact ⟨by omega, by omega⟩

/-- Every month up to one has the day of the start. -/
def HasDate (offset start : Int) (n : Nat) : Prop :=
  ∀ k : Nat, 1 ≤ k → k ≤ n → getDate offset start ≤ length (monthNumber offset start + k)

theorem hasDate_succ : HasDate offset start (n + 1) ↔
    HasDate offset start n ∧
      getDate offset start ≤ length (monthNumber offset start + (n + 1 : Nat)) := by
  constructor
  · intro h
    exact ⟨fun k hone hle => h k hone (hle.trans n.le_succ), h (n + 1) (by omega) le_rfl⟩
  · rintro ⟨h, hlast⟩ k hone hle
    rcases Nat.le_succ_iff.mp hle with hle | rfl
    · exact h k hone hle
    · exact hlast

/-- **A date in its own month** has the day of the start, like those before it. -/
theorem hasDate_of_runs (h : runs offset start n = some t)
    (hmonth : monthNumber offset t = monthNumber offset start + n) :
    HasDate offset start n ∧ getDate offset t = getDate offset start ∧
      timeWithinDay offset t = timeWithinDay offset start ∧
      (n ≠ 0 → t = sameDate offset start n) := by
  induction n generalizing t with
  | zero =>
    cases h
    exact ⟨fun k hone hle => by omega, rfl, rfl, fun hne => absurd rfl hne⟩
  | succ n ih =>
    obtain ⟨t', ht', hnext⟩ := runs_succ.mp h
    have hle := (le_monthNumber ht').1
    obtain ⟨-, ⟨hfits, hone, hdate⟩ | ⟨-, htwo⟩, htime, hvalue⟩ := monthly_cases hnext
    · have hmonth' : monthNumber offset t' = monthNumber offset start + n := by omega
      obtain ⟨hall, hdate', htime', -⟩ := ih ht' hmonth'
      have hindex : monthNumber offset t' + 1 = monthNumber offset start + (n + 1 : Nat) := by
        push_cast
        omega
      rw [hindex, hdate'] at hfits
      rw [hindex, hdate', htime'] at hvalue
      exact ⟨hasDate_succ.mpr ⟨hall, hfits⟩, hdate.trans hdate', htime.trans htime',
        fun _ => hvalue⟩
    · -- a month was skipped
      push_cast at hmonth
      omega

theorem sameDate_lt (offset start : Int) (n : Nat) :
    sameDate offset start n < sameDate offset start (n + 1) := by
  have hnext := firstDay_succ (monthNumber offset start + n)
  have hlength := (length_bounds (monthNumber offset start + n)).1
  have hindex : monthNumber offset start + n + 1 = monthNumber offset start + (n + 1 : Nat) := by
    push_cast
    omega
  rw [hindex] at hnext
  unfold sameDate msPerDay
  omega

theorem sameDate_zero (offset start : Int) : sameDate offset start 0 = start := by
  have hday : firstDay (monthNumber offset start) + getDate offset start - 1
      = localDay offset start := by
    show firstDay (monthOf (localDay offset start)) + dateOf (localDay offset start) - 1 = _
    unfold dateOf
    omega
  unfold sameDate
  rw [Nat.cast_zero, Int.add_zero, hday]
  unfold localDay timeWithinDay
  unfold msPerDay
  omega

/-- Where all months have the day, the dates are the same days of these months. -/
theorem runs_of_hasDate (hstart : timeClip start = some start) (h : HasDate offset start n)
    (hmax : sameDate offset start n ≤ maxTime) :
    runs offset start n = some (sameDate offset start n) ∧
      monthNumber offset (sameDate offset start n) = monthNumber offset start + n := by
  induction n with
  | zero => exact ⟨congrArg some (sameDate_zero offset start).symm, by
      rw [sameDate_zero, Nat.cast_zero, Int.add_zero]⟩
  | succ n ih =>
    obtain ⟨hbefore, hlast⟩ := hasDate_succ.mp h
    have hlt := sameDate_lt offset start n
    obtain ⟨hrun, hmonth⟩ := ih hbefore (by omega)
    obtain ⟨-, hdate, htime, -⟩ := hasDate_of_runs hrun hmonth
    have hge := (le_monthNumber hrun).2
    have hmin := (timeClip_eq_some.mp hstart).2.1
    have hindex : 12 * getFullYear offset (sameDate offset start n)
        + (getMonth offset (sameDate offset start n) + 1)
        = monthNumber offset start + (n + 1 : Nat) := by
      unfold monthNumber at hmonth ⊢
      push_cast
      omega
    have hnext : nextRunAt offset (sameDate offset start n) .monthly
        = some (sameDate offset start (n + 1)) := by
      unfold nextRunAt setMonth makeDay clippedDate
      rw [hindex, hdate, htime]
      exact timeClip_eq_some.mpr ⟨rfl, by omega, hmax⟩
    refine ⟨runs_succ.mpr ⟨_, hrun, hnext⟩, ?_⟩
    obtain ⟨-, ⟨-, hone, -⟩ | ⟨hlong, -⟩, -⟩ := monthly_cases hnext
    · rw [hone, hmonth]
      push_cast
      omega
    · rw [hdate, hmonth, Int.add_assoc] at hlong
      push_cast at hlast
      omega

/-- **When a monthly schedule hits its months**: up to a month exactly if this and all months
before it have the day of the start, and the dates do not run out. -/
theorem monthly_iff (offset start : Int) (n : Nat) (hstart : timeClip start = some start) :
    HitsNext offset start n ↔
      HasDate offset start (n + 1) ∧ sameDate offset start (n + 1) ≤ maxTime := by
  constructor
  · rintro ⟨before, after, -, hafter, hmonth, -⟩
    obtain ⟨hall, -, -, hvalue⟩ := hasDate_of_runs hafter (by push_cast; omega)
    refine ⟨hall, ?_⟩
    obtain ⟨t, -, hnext⟩ := runs_succ.mp hafter
    rw [← hvalue n.succ_ne_zero]
    exact (timeClip_eq_some.mp hnext).2.2
  · rintro ⟨hall, hmax⟩
    obtain ⟨hafter, hmonth⟩ := runs_of_hasDate hstart hall hmax
    obtain ⟨before, hbefore, hnext⟩ := runs_succ.mp hafter
    refine ⟨before, _, hbefore, hafter, ?_, (monthly_cases hnext).1⟩
    rw [hmonth]
    push_cast
    omega

/-- All months have the day exactly up to the 28th. -/
theorem hasDate_forall_iff : (∀ n, HasDate offset start n) ↔ getDate offset start ≤ 28 := by
  constructor
  · intro h
    -- February of a year that is odd
    obtain ⟨y, hodd, hlater⟩ : ∃ y, y % 2 = 1 ∧ monthNumber offset start < 12 * y + 1 :=
      ⟨2 * (monthNumber offset start / 24) + 3, by omega, by omega⟩
    obtain ⟨k, hk⟩ := Int.le.dest (Int.le_of_lt hlater)
    have hfits := h k k (by omega) le_rfl
    have hyear : (monthNumber offset start + k) / 12 = y := by omega
    have hmonth : ((monthNumber offset start + k) % 12).toNat = 1 := by omega
    have hleap : isLeap y = false := by
      have hfour : y % 4 ≠ 0 := by omega
      simp [isLeap, hfour]
    rw [length, hyear, hmonth, monthLength, hleap] at hfits
    exact hfits
  · intro h n k _ _
    exact h.trans (length_bounds _).1

/-- A leap day a month after 29 January. -/
theorem monthly_leap_day : HitsNext 0 1706486400000 0 := by
  refine (monthly_iff 0 1706486400000 0 (by decide)).mpr ⟨fun k hone hle => ?_, by decide +kernel⟩
  obtain rfl : k = 1 := by omega
  decide +kernel

/-- A month after 31 January 2025 comes 3 March. -/
theorem february_skipped :
    nextRunAt 0 1738281600000 .monthly = some 1740960000000 ∧
    monthNumber 0 1740960000000 = monthNumber 0 1738281600000 + 2 ∧
    ¬HitsNext 0 1738281600000 0 := by
  have hrun : runs 0 1738281600000 1 = some 1740960000000 := by decide +kernel
  have hmonth : monthNumber 0 1740960000000 = monthNumber 0 1738281600000 + 2 := by
    decide +kernel
  refine ⟨hrun, hmonth, ?_⟩
  rintro ⟨before, after, -, hafter, hnext, -⟩
  rw [hrun] at hafter
  cases hafter
  rw [hmonth] at hnext
  omega

end Monthly

end Stargate.Schedules
