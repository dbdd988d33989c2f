import Mathlib.Algebra.BigOperators.Group.List.Basic
import Mathlib.Algebra.Order.BigOperators.Group.List
import Mathlib.Data.String.Basic
import Stargate.Base.EcmaScript
import Stargate.Base.SortedSet

/-!
# The hourly cap on a merchant's volume (`checkVelocity`)

Each amount is added to a sorted set of the merchant and the hour, and the members of the set
are added up.

- `checkVelocity`: one call, on the sets of all merchants;
- `Tallied`: the set of an hour holds the amounts that were passed, each of them once;
- `answer_iff`: what the last call of any sequence answers;
- `total_exact_iff`: when that is what the sum of the payments says.
-/

namespace Stargate.Compliance

open Base

/-! ## The call -/

/-- `String(amountCents)`, for whole cents. -/
def centsText (amountCents : Nat) : String := String.ofList (Nat.toDigits 10 amountCents)

/-- `Number(value)` of such text. -/
def centsOf (value : String) : Nat := Nat.ofDigitChars 10 value.toList 0

/-- `new Date().toISOString().slice(0, 13)`. -/
def hourText (now : Nat) : Option String :=
  (toISOString now).map fun text => String.ofList (text.take 13)

example : hourText 1735732799999 = some "2025-01-01T11" := by decide +kernel

def velocityKey (merchantId hour : String) : String := "velocity:" ++ merchantId ++ ":" ++ hour

/-- The sorted sets of Redis. -/
abbrev Sets := Stores String String

/-- `checkVelocity(merchantId, amountCents)`, and the sets after it. `limit` is
`VELOCITY_LIMIT_PER_HOUR_CENTS`, and no answer a `RangeError`. -/
def checkVelocity (limit : Option ℚ) (now : Nat) (redis : Sets) (merchantId : String)
    (amountCents : Nat) : Option Bool × Sets :=
  match hourText now with
  | none => (none, redis)
  | some hour =>
    let key := velocityKey merchantId hour
    let redis := redis.zadd now key now (centsText amountCents)
    let redis := redis.expire now key (7200 * 1000)
    let values := redis.zrange now key
    let total := values.foldl (fun sum value => sum + centsOf value) 0
    (some (decide ((total : ℚ) ≤ limit.getD 5000000)), redis)

/-- A call, and the time of it. -/
structure VelocityCall where
  merchantId : String
  now : Nat
  amountCents : Nat

/-- The sets after some calls. -/
def afterCalls (limit : Option ℚ) (redis : Sets) (calls : List VelocityCall) : Sets :=
  calls.foldl (fun redis c => (checkVelocity limit c.now redis c.merchantId c.amountCents).2) redis

/-- The amounts that were passed for a merchant. -/
def passed (merchantId : String) (calls : List VelocityCall) : List Nat :=
  (calls.filter fun c => c.merchantId == merchantId).map VelocityCall.amountCents

/-- A time value of an hour, counted from 1970 on. -/
def InHour (h now : Nat) : Prop := now / 3600000 = h ∧ now ≤ 8640000000000000

instance decidableInHour (h now : Nat) : Decidable (InHour h now) :=
  inferInstanceAs (Decidable (_ ∧ _))

/-! ## Hours and amounts as text -/

section Text

variable {h now now' : Nat}

theorem centsOf_centsText (n : Nat) : centsOf (centsText n) = n := by
  rw [centsOf, centsText, String.toList_ofList, Nat.ofDigitChars_ten_toDigits]

theorem centsText_injective : Function.Injective centsText :=
  Function.LeftInverse.injective centsOf_centsText

theorem le_length_zeroPadded (k n : Nat) : k ≤ (zeroPadded k n).length := by
  rw [zeroPadded, padStart, List.length_append, List.length_replicate]
  omega

theorem le_length_dateText (ms : Nat) : 10 ≤ (dateText ms).length := by
  have hyear (y : Nat) : 4 ≤ (yearText y).length := by
    unfold yearText
    split
    · exact le_length_zeroPadded 4 y
    · have := le_length_zeroPadded 6 y
      rw [List.length_cons]
      omega
  unfold dateText
  dsimp only
  generalize monthDate _ _ = d
  have hy := hyear (yearFromDay (ms / 86400000))
  have hm := le_length_zeroPadded 2 d.1
  have hd := le_length_zeroPadded 2 d.2
  simp only [List.length_append, List.length_cons]
  omega

/-- The minutes stand after the thirteenth character. -/
theorem hourText_eq (hnow : InHour h now) :
    hourText now
      = some (String.ofList ((dateText now ++ 'T' :: zeroPadded 2 (hour now)).take 13)) := by
  have hlength : 13 ≤ (dateText now ++ 'T' :: zeroPadded 2 (hour now)).length := by
    have := le_length_dateText now
    have := le_length_zeroPadded 2 (hour now)
    rw [List.length_append, List.length_cons]
    omega
  have hle {cs : List Char} (l : List Char) (hcs : 13 ≤ cs.length) : 13 ≤ (cs ++ l).length := by
    rw [List.length_append]
    omega
  rw [hourText, toISOString, if_pos hnow.2, Option.map_some,
    List.take_append_of_le_length (hle _ (hle _ (hle _ hlength))),
    List.take_append_of_le_length (hle _ (hle _ hlength)),
    List.take_append_of_le_length (hle _ hlength), List.take_append_of_le_length hlength]

/-- One hour has one text. -/
theorem hourText_congr (hnow : InHour h now) (hnow' : InHour h now') :
    hourText now = hourText now' := by
  have hhour : now / 3600000 = now' / 3600000 := hnow.1.trans hnow'.1.symm
  have hdate : dateText now = dateText now' := by
    have hday : now / 86400000 = now' / 86400000 := by omega
    unfold dateText
    rw [hday]
  have hhours : hour now = hour now' := by rw [hour, hour, hhour]
  rw [hourText_eq hnow, hourText_eq hnow', hdate, hhours]

theorem velocityKey_injective (hour : String) :
    Function.Injective fun merchantId => velocityKey merchantId hour := by
  intro a b hab
  have hab := congrArg String.toList hab
  simp only [velocityKey, String.toList_append, List.append_assoc] at hab
  exact String.toList_inj.mp (List.append_cancel_right (List.append_cancel_left hab))

end Text

/-! ## The set of an hour -/

/-- What is stored under the key of an hour: every amount that was passed, at least until the
hour is over. -/
def Tallied (h : Nat) (paid : List Nat) : Option (SortedSet String × Option Nat) → Prop
  | none => paid = []
  | some (s, deadline) =>
    (∀ text, text ∈ s.members ↔ text ∈ paid.map centsText)
      ∧ ∃ d, deadline = some d ∧ (h + 1) * 3600000 ≤ d

section Set

variable {h now : Nat} {paid : List Nat} {redis : Sets} {key : String}

theorem Tallied.live (hI : Tallied h paid (redis key)) (hnow : InHour h now) :
    redis.live now key = redis key := by
  refine Stores.live_eq fun s deadline hkey => ?_
  rw [hkey] at hI
  obtain ⟨-, d, hd, hle⟩ := hI
  cases hd
  have := hnow.1
  omega

/-- A member is added up once, however often it was passed. -/
theorem sum_zrange {s : SortedSet String}
    (hs : ∀ text, text ∈ s.members ↔ text ∈ paid.map centsText) :
    s.zrange.foldl (fun sum value => sum + centsOf value) 0 = paid.dedup.sum := by
  have hnodup : (paid.dedup.map centsText).Nodup :=
    (List.nodup_dedup paid).map centsText_injective
  have hperm : s.zrange.Perm (paid.dedup.map centsText) :=
    s.perm_zrange.trans <| (List.perm_ext_iff_of_nodup s.nodup_members hnodup).mpr fun text => by
      rw [hs, List.mem_map, List.mem_map]
      simp only [List.mem_dedup]
  have hcents : (paid.dedup.map centsText).map centsOf = paid.dedup := by
    rw [List.map_map]
    exact List.map_id'' centsOf_centsText _
  calc
    s.zrange.foldl (fun sum value => sum + centsOf value) 0
        = (s.zrange.map centsOf).sum := by rw [List.sum_eq_foldl, List.foldl_map]
    _ = paid.dedup.sum := by rw [(hperm.map centsOf).sum_eq, hcents]

theorem Tallied.zadd (amount score : Nat) (hI : Tallied h paid (redis key)) (hnow : InHour h now) :
    ∃ s deadline, redis.zadd now key score (centsText amount) key = some (s, deadline)
      ∧ (∀ text, text ∈ s.members ↔ text ∈ (paid ++ [amount]).map centsText)
      ∧ ∀ d, deadline = some d → now < d := by
  have hhour := hnow.1
  rw [Stores.zadd_self, hI.live hnow]
  refine ⟨_, _, rfl, fun text => ?_, fun d hd => ?_⟩
  · rw [SortedSet.mem_zadd, List.map_append, List.mem_append, List.map_singleton,
      List.mem_singleton, or_comm]
    refine or_congr_left ?_
    -- before the first call of the hour there is no set
    cases hkey : redis key with
    | none =>
      rw [hkey] at hI
      rw [show paid = [] from hI]
      exact Iff.rfl
    | some e =>
      rw [hkey] at hI
      exact hI.1 text
  · cases hkey : redis key with
    | none =>
      rw [hkey] at hd
      cases hd
    | some e =>
      rw [hkey] at hI hd
      obtain ⟨-, d', hd', hle⟩ := hI
      cases hd.symm.trans hd'
      omega

/-- One call of the merchant. -/
theorem checkVelocity_self {hour merchantId : String} (limit : Option ℚ) (amount : Nat)
    (hhour : hourText now = some hour) (hnow : InHour h now)
    (hI : Tallied h paid (redis (velocityKey merchantId hour))) :
    Tallied h (paid ++ [amount])
        ((checkVelocity limit now redis merchantId amount).2 (velocityKey merchantId hour))
      ∧ (checkVelocity limit now redis merchantId amount).1
        = some (decide (((paid ++ [amount]).dedup.sum : ℚ) ≤ limit.getD 5000000)) := by
  obtain ⟨s, deadline, hzadd, hs, hdeadline⟩ := hI.zadd amount now hnow
  unfold checkVelocity
  rw [hhour]
  dsimp only
  generalize velocityKey merchantId hour = key at hzadd ⊢
  generalize redis.zadd now key now (centsText amount) = added at hzadd ⊢
  -- nothing expires within the call: it lasts no time, and the key outlives the hour
  have hlive : added.live now key = some (s, deadline) := by
    rw [Stores.live_eq, hzadd]
    intro s' d hkey
    cases hzadd.symm.trans hkey
    exact hdeadline d rfl
  have hexpire := Stores.expire_self hlive (7200 * 1000)
  generalize added.expire now key (7200 * 1000) = expiring at hexpire ⊢
  have hrange : expiring.zrange now key = s.zrange := by
    rw [Stores.zrange, Stores.live_eq, hexpire]
    intro s' d hkey
    cases hexpire.symm.trans hkey
    omega
  refine ⟨?_, ?_⟩
  · rw [hexpire]
    have hle : (h + 1) * 3600000 ≤ now + 7200 * 1000 := by
      have := hnow.1
      omega
    exact ⟨hs, _, rfl, hle⟩
  · rw [hrange, sum_zrange hs]

/-- A call of another merchant. -/
theorem checkVelocity_of_ne {hour merchantId other : String} (limit : Option ℚ) (amount : Nat)
    (hhour : hourText now = some hour) (hne : other ≠ merchantId) :
    (checkVelocity limit now redis other amount).2 (velocityKey merchantId hour)
      = redis (velocityKey merchantId hour) := by
  have hkey : velocityKey merchantId hour ≠ velocityKey other hour := fun heq =>
    hne (velocityKey_injective hour heq).symm
  unfold checkVelocity
  rw [hhour]
  dsimp only
  rw [Stores.expire_of_ne _ hkey, Stores.zadd_of_ne _ hkey]

end Set

/-! ## Runs of an hour -/

section Runs

variable {h : Nat} {hour merchantId : String} {limit : Option ℚ} {calls : List VelocityCall}

theorem passed_append (merchantId : String) (calls : List VelocityCall) (c : VelocityCall) :
    passed merchantId (calls ++ [c])
      = passed merchantId calls
        ++ (if c.merchantId = merchantId then [c.amountCents] else []) := by
  rw [passed, List.filter_append, List.map_append]
  by_cases hc : c.merchantId = merchantId <;> simp [passed, hc]

theorem afterCalls_append (limit : Option ℚ) (redis : Sets) (calls : List VelocityCall)
    (c : VelocityCall) :
    afterCalls limit redis (calls ++ [c])
      = (checkVelocity limit c.now (afterCalls limit redis calls) c.merchantId
          c.amountCents).2 := by
  rw [afterCalls, List.foldl_append]
  rfl

/-- However the calls of all merchants follow each other. -/
theorem tallied_afterCalls (limit : Option ℚ) {redis : Sets}
    (hhour : ∀ now, InHour h now → hourText now = some hour)
    (hcalls : ∀ c ∈ calls, InHour h c.now) (hnew : redis (velocityKey merchantId hour) = none) :
    Tallied h (passed merchantId calls)
      (afterCalls limit redis calls (velocityKey merchantId hour)) := by
  -- on the calls, the last of them apart: it is the merchant's own, or another's
  induction calls using List.reverseRecOn with
  | nil =>
    rw [afterCalls, List.foldl_nil, hnew]
    rfl
  | append_singleton calls c ih =>
    have hI := ih fun d hd => hcalls d (List.mem_append_left _ hd)
    have hnow : InHour h c.now := hcalls c (List.mem_append_right _ (List.mem_singleton_self c))
    rw [passed_append, afterCalls_append]
    by_cases hc : c.merchantId = merchantId
    · subst hc
      rw [if_pos rfl]
      exact (checkVelocity_self limit c.amountCents (hhour c.now hnow) hnow hI).1
    · rw [if_neg hc, List.append_nil,
        checkVelocity_of_ne limit c.amountCents (hhour c.now hnow) hc]
      exact hI

/-- **The last call compares the distinct amounts with the cap.** -/
theorem answer_iff {redis : Sets} {c : VelocityCall} (hcalls : ∀ d ∈ calls ++ [c], InHour h d.now)
    (hnew : ∀ hour, hourText c.now = some hour → redis (velocityKey c.merchantId hour) = none) :
    (checkVelocity limit c.now (afterCalls limit redis calls) c.merchantId c.amountCents).1
        = some true
      ↔ ((passed c.merchantId (calls ++ [c])).dedup.sum : ℚ) ≤ limit.getD 5000000 := by
  have hnow : InHour h c.now := hcalls c (List.mem_append_right _ (List.mem_singleton_self c))
  obtain ⟨hour, hhour⟩ : ∃ hour, hourText c.now = some hour := ⟨_, hourText_eq hnow⟩
  have hhours (now : Nat) (hin : InHour h now) : hourText now = some hour :=
    (hourText_congr hin hnow).trans hhour
  have hI := tallied_afterCalls limit hhours
    (fun d hd => hcalls d (List.mem_append_left _ hd)) (hnew hour hhour)
  rw [(checkVelocity_self limit c.amountCents hhour hnow hI).2, passed_append, if_pos rfl,
    Option.some.injEq, decide_eq_true_iff]

/-- **The total is the sum of the payments exactly if no repeated amount decides.** A set keeps
one member for each amount, so an amount that is passed again is not added up again. -/
theorem total_exact_iff (limit : Option ℚ) (redis : Sets) (h : Nat) (calls : List VelocityCall)
    (c : VelocityCall) (hcalls : ∀ d ∈ calls ++ [c], InHour h d.now)
    (hnew : ∀ hour, hourText c.now = some hour → redis (velocityKey c.merchantId hour) = none) :
    ((checkVelocity limit c.now (afterCalls limit redis calls) c.merchantId c.amountCents).1
          = some true
        ↔ ((passed c.merchantId (calls ++ [c])).sum : ℚ) ≤ limit.getD 5000000)
      ↔ ((passed c.merchantId (calls ++ [c])).sum : ℚ) ≤ limit.getD 5000000
        ∨ limit.getD 5000000 < ((passed c.merchantId (calls ++ [c])).dedup.sum : ℚ) := by
  rw [answer_iff hcalls hnew]
  generalize passed c.merchantId (calls ++ [c]) = paid
  have hle : (paid.dedup.sum : ℚ) ≤ (paid.sum : ℚ) :=
    Nat.cast_le.mpr ((List.dedup_sublist paid).sum_le_sum fun a _ => Nat.zero_le a)
  constructor
  · intro hiff
    by_cases hsum : (paid.sum : ℚ) ≤ limit.getD 5000000
    · exact .inl hsum
    · exact .inr (not_le.mp fun hdedup => hsum (hiff.mp hdedup))
  · rintro (hsum | hdedup)
    · exact iff_of_true (hle.trans hsum) hsum
    · exact iff_of_false (not_le.mpr hdedup) (not_le.mpr (hdedup.trans_le hle))

/-- A payment of $30,000. -/
def largeCall : VelocityCall := ⟨"mer-1", 1735732799999, 3000000⟩

theorem total_exact_largeCall :
    ((checkVelocity none largeCall.now (afterCalls none (fun _ => none) [largeCall])
            largeCall.merchantId largeCall.amountCents).1 = some true
        ↔ ((passed largeCall.merchantId [largeCall, largeCall]).sum : ℚ) ≤ (none : Option ℚ).getD
          5000000)
      ↔ ((passed largeCall.merchantId [largeCall, largeCall]).sum : ℚ) ≤ (none : Option ℚ).getD
          5000000
        ∨ (none : Option ℚ).getD 5000000
          < ((passed largeCall.merchantId [largeCall, largeCall]).dedup.sum : ℚ) :=
  total_exact_iff none (fun _ => none) 482147 [largeCall] largeCall (by decide) fun _ _ => rfl

/-- Two such payments within an hour pass a cap of $50,000. -/
theorem repeated_amount_passes :
    (checkVelocity none largeCall.now (afterCalls none (fun _ => none) [largeCall])
          largeCall.merchantId largeCall.amountCents).1 = some true
      ∧ ¬ ((passed largeCall.merchantId [largeCall, largeCall]).sum : ℚ)
        ≤ (none : Option ℚ).getD 5000000 := by
  decide +kernel

end Runs

end Stargate.Compliance
