import Stargate.Schedules.NextRun
import Stargate.Tenants.Services

/-!
# A schedule that is updated by several requests (`SchedulesService`)

`update` reads the row, and then writes `interval` back, the one that it has read where the body
has none. The date in `next_run_at` is written with an interval from a body only.

- `program`: any number of calls, statement by statement;
- `World.asked`: the interval that a body has last named for a schedule, with its date;
- `dated_of_run`: `next_run_at` is always the date of that interval;
- `inStep_iff`: the interval of the row is that one as well, in every state of a run, exactly if
  no `UPDATE` writes back an interval that another one has replaced.
-/

namespace Stargate.Schedules

open Base
open Tenants (ScheduleStatus)

/-! ## Rows and requests -/

/-- The columns of `recurring_schedules` that a body can set. -/
structure Row where
  id : Uuid
  merchantId : Uuid
  recipient : String
  amountUsdc : Numeric
  interval : Interval
  status : ScheduleStatus
  nextRunAt : Int
  deriving DecidableEq

instance keyedRow : Keyed Row where
  Key := Uuid
  key s := s.id
  Clash a b := a = b
  clash_symm := Eq.symm
  decClash _ _ := inferInstanceAs (Decidable (_ = _))

/-- What `createSchema` makes of a body. -/
structure CreateSchedule where
  recipient : String
  amountUsdc : String
  interval : Interval
  deriving DecidableEq

/-- What `updateSchema` makes of a body. -/
structure UpdateSchedule where
  recipient : Option String := none
  amountUsdc : Option String := none
  interval : Option Interval := none
  status : Option ScheduleStatus := none
  deriving DecidableEq

/-- `WHERE id=$1 AND merchant_id=$2`. -/
def ownRow (merchantId id : Uuid) (row : Row) : Bool := row.id == id && row.merchantId == merchantId

/-- The row that the `UPDATE` writes. -/
def Row.updated (dto : UpdateSchedule) (amount : Option Numeric) (interval : Interval) (date : Int)
    (row : Row) : Row :=
  { row with
    recipient := dto.recipient.getD row.recipient
    amountUsdc := amount.getD row.amountUsdc
    interval
    status := dto.status.getD row.status
    nextRunAt := if dto.interval.isSome then date else row.nextRunAt }

/-- `SET status='cancelled'`. -/
def Row.cancelled (row : Row) : Row := { row with status := .cancelled }

/-! ## Calls -/

/-- The input of a call is `none` where the schema throws. -/
inductive Input where
  | create (merchantId : Uuid) (input : Option CreateSchedule)
  | update (merchantId id : Uuid) (input : Option UpdateSchedule)
  | remove (merchantId id : Uuid)
  /-- The next statement, with `gen_random_uuid()`. -/
  | exec (uuid : Uuid)
  /-- A statement fails, or the process dies. -/
  | throw
  deriving DecidableEq

inductive Call where
  | idle
  /-- The `INSERT` is next. -/
  | creating (merchantId : Uuid) (dto : CreateSchedule) (date : Int)
  /-- The `SELECT` of `get` is next. -/
  | getting (merchantId id : Uuid) (input : Option UpdateSchedule)
  /-- The `UPDATE` is next. -/
  | updating (merchantId id : Uuid) (dto : UpdateSchedule) (interval : Interval) (date : Int)
  | removing (merchantId id : Uuid)
  | returned (row : Option Row)
  | threw
  deriving DecidableEq

/-- Nothing runs. -/
def Call.resting : Call → Bool
  | .idle | .returned _ | .threw => true
  | _ => false

/-- The table and the clock, in milliseconds; and for each schedule the interval that a body has
last named, with the date that was written for it. -/
structure World where
  schedules : Table Row
  now : Int
  asked : Uuid → Option (Interval × Int)

/-- What bodies have asked for, after one with this interval. -/
def mention (asked : Uuid → Option (Interval × Int)) (id : Uuid) (interval : Option Interval)
    (date : Int) : Uuid → Option (Interval × Int) :=
  match interval with
  | some interval => Function.update asked id (some (interval, date))
  | none => asked

section Program

variable (offset : Int)

/-- A call begins. -/
def Input.start (w : World) : Input → Option Call
  | .create merchantId input =>
    match input with
    | none => some .threw
    | some dto =>
      match nextRunAt offset w.now dto.interval with
      | some date => some (.creating merchantId dto date)
      -- an invalid date is no `timestamptz`
      | none => some .threw
  | .update merchantId id input => some (.getting merchantId id input)
  | .remove merchantId id => some (.removing merchantId id)
  | .exec _ | .throw => none

/-- The next statement of a call. -/
def Call.exec (uuid : Uuid) (w : World) : Call → Option (World × Call)
  | .creating merchantId dto date =>
    match Numeric.ofText? dto.amountUsdc with
    -- numeric field overflow
    | none => some (w, .threw)
    | some amount =>
      let row : Row := ⟨uuid, merchantId, dto.recipient, amount, dto.interval, .active, date⟩
      match w.schedules.insert? row with
      | some schedules =>
        some ({ w with schedules, asked := mention w.asked uuid (some dto.interval) date },
          .returned (some row))
      | none => some (w, .threw)
  | .getting merchantId id input =>
    match w.schedules.find? (ownRow merchantId id), input with
    | some current, some dto =>
      let interval := dto.interval.getD current.interval
      match nextRunAt offset w.now interval with
      | some date => some (w, .updating merchantId id dto interval date)
      | none => some (w, .threw)
    | _, _ => some (w, .threw)
  | .updating merchantId id dto interval date =>
    match dto.amountUsdc.mapM Numeric.ofText? with
    | none => some (w, .threw)
    | some amount =>
      match w.schedules.find? (ownRow merchantId id) with
      | none => some (w, .returned none)
      | some row =>
        some ({ w with
          schedules := w.schedules.modify (ownRow merchantId id)
            (Row.updated dto amount interval date) fun _ => rfl
          asked := mention w.asked id dto.interval date },
          .returned (some (row.updated dto amount interval date)))
  | .removing merchantId id =>
    match w.schedules.find? (ownRow merchantId id) with
    | none => some (w, .threw)
    | some row =>
      some ({ w with
        schedules := w.schedules.modify (ownRow merchantId id) Row.cancelled fun _ => rfl },
        .returned (some row.cancelled))
  | .idle | .returned _ | .threw => none

/-- Any number of calls, and the clock. -/
def program : Program World Call Input Nat where
  exec _
    | .exec uuid, w, c => c.exec offset uuid w
    | .throw, w, c => if c.resting then none else some (w, .threw)
    | i, w, c => if c.resting then (i.start offset w).map fun c => (w, c) else none
  env ms w := some { w with now := w.now + ms }

end Program

/-- No schedules yet. -/
def start (n : Nat) (now : Int) : Program.Sys World Call n where
  db := ⟨.empty, now, fun _ => none⟩
  calls _ := .idle

/-! ## What a statement does -/

section Moves

variable {offset : Int} {others : List Call} {i : Input} {uuid : Uuid} {w w' : World} {c c' : Call}

/-- The date of a call is that of its interval, from a moment of the past, and an interval in the
body is the one that is written. -/
def Call.Dated (offset now : Int) : Call → Prop
  | .creating _ dto date => ∃ t ≤ now, nextRunAt offset t dto.interval = some date
  | .updating _ _ dto interval date =>
    (∀ i, dto.interval = some i → interval = i) ∧ ∃ t ≤ now, nextRunAt offset t interval = some date
  | _ => True

/-- The steps of a call. -/
inductive Moves (offset : Int) (w : World) : Call → World → Call → Prop
  /-- The table is left alone. -/
  | read {c c' : Call} (hc : c'.Dated offset w.now) : Moves offset w c w c'
  | inserted {merchantId : Uuid} {dto : CreateSchedule} {date : Int} {row : Row}
      {schedules : Table Row} (hinterval : row.interval = dto.interval)
      (hdate : row.nextRunAt = date) (hinsert : w.schedules.insert? row = some schedules) :
      Moves offset w (.creating merchantId dto date)
        { w with schedules, asked := mention w.asked row.id (some dto.interval) date }
        (.returned (some row))
  | updated {merchantId id : Uuid} {dto : UpdateSchedule} {interval : Interval} {date : Int}
      {amount : Option Numeric} {row row' : Row} (hrow : row ∈ w.schedules)
      (hown : ownRow merchantId id row = true)
      (hamount : dto.amountUsdc.mapM Numeric.ofText? = some amount) :
      Moves offset w (.updating merchantId id dto interval date)
        { w with
          schedules := w.schedules.modify (ownRow merchantId id)
            (Row.updated dto amount interval date) fun _ => rfl
          asked := mention w.asked id dto.interval date }
        (.returned (some row'))
  | removed {merchantId id : Uuid} {row : Row} :
      Moves offset w (.removing merchantId id)
        { w with
          schedules := w.schedules.modify (ownRow merchantId id) Row.cancelled fun _ => rfl }
        (.returned (some row))

theorem dated_start (h : i.start offset w = some c) : c.Dated offset w.now := by
  cases i with
  | create merchantId input =>
    simp only [Input.start] at h
    split at h
    · cases h
      trivial
    · split at h
      · next hdate =>
        cases h
        exact ⟨w.now, le_rfl, hdate⟩
      · cases h
        trivial
  | update merchantId id input =>
    cases h
    trivial
  | remove merchantId id =>
    cases h
    trivial
  | exec uuid => cases h
  | throw => cases h

theorem moves_exec (h : c.exec offset uuid w = some (w', c')) : Moves offset w c w' c' := by
  cases c with
  | creating merchantId dto date =>
    simp only [Call.exec] at h
    split at h
    · cases h
      exact .read trivial
    · split at h
      · next hinsert =>
        cases h
        exact .inserted rfl rfl hinsert
      · cases h
        exact .read trivial
  | getting merchantId id input =>
    simp only [Call.exec] at h
    split at h
    · next dto _ =>
      split at h
      · next hdate =>
        cases h
        refine .read ⟨fun i hi => ?_, w.now, le_rfl, hdate⟩
        rw [hi]
        rfl
      · cases h
        exact .read trivial
    · cases h
      exact .read trivial
  | updating merchantId id dto interval date =>
    simp only [Call.exec] at h
    split at h
    · cases h
      exact .read trivial
    · next hamount =>
      split at h
      · cases h
        exact .read trivial
      · next hfind =>
        cases h
        obtain ⟨hrow, hown⟩ := Table.find?_some hfind
        exact .updated hrow hown hamount
  | removing merchantId id =>
    simp only [Call.exec] at h
    split at h
    · cases h
      exact .read trivial
    · cases h
      exact .removed
  | _ => cases h

/-- **What a step of a call can do**: only a statement writes. -/
theorem moves_of_exec (h : (program offset).exec others i w c = some (w', c')) :
    Moves offset w c w' c' ∧ ((∃ uuid, i = .exec uuid) ∨ w' = w) := by
  cases i with
  | exec uuid => exact ⟨moves_exec h, .inl ⟨uuid, rfl⟩⟩
  | throw =>
    simp only [program] at h
    split at h
    · cases h
    · cases h
      exact ⟨.read trivial, .inr rfl⟩
  | _ =>
    simp only [program] at h
    split at h
    · obtain ⟨c₁, hstart, heq⟩ := Option.map_eq_some_iff.mp h
      cases heq
      exact ⟨.read (dated_start hstart), .inr rfl⟩
    · cases h

end Moves

/-! ## What the rows show of the bodies -/

/-- `next_run_at` is the date of the interval that was named last, and this date is that of the
interval, from a moment of the past. -/
structure World.Dated (offset : Int) (w : World) : Prop where
  rows : ∀ row ∈ w.schedules, ∃ i, w.asked row.id = some (i, row.nextRunAt)
  past : ∀ id i date, w.asked id = some (i, date) → ∃ t ≤ w.now, nextRunAt offset t i = some date

/-- The interval of a row is the one that was named last. -/
def World.InStep (w : World) : Prop :=
  ∀ row ∈ w.schedules, w.asked row.id = some (row.interval, row.nextRunAt)

section Steps

variable {offset : Int} {n : Nat} {w w' : World} {c c' : Call} {now : Int} {id : Uuid}

theorem Call.Dated.mono {now' : Int} (h : c.Dated offset now) (hle : now ≤ now') :
    c.Dated offset now' := by
  cases c with
  | creating merchantId dto date =>
    obtain ⟨t, ht, hdate⟩ := h
    exact ⟨t, ht.trans hle, hdate⟩
  | updating merchantId id dto interval date =>
    obtain ⟨hsame, t, ht, hdate⟩ := h
    exact ⟨hsame, t, ht.trans hle, hdate⟩
  | _ => trivial

theorem mention_of_ne {asked : Uuid → Option (Interval × Int)} {id' : Uuid} (h : id' ≠ id)
    (interval : Option Interval) (date : Int) : mention asked id interval date id' = asked id' := by
  cases interval with
  | none => rfl
  | some interval => exact Function.update_of_ne h _ _

/-- Only the row with this id is written. -/
theorem of_mem_updated {merchantId : Uuid} {f : Row → Row} (hf : ∀ r, Keyed.key (f r) = Keyed.key r)
    {row x : Row} (hrow : row ∈ w.schedules) (hown : ownRow merchantId id row = true)
    (hx : x ∈ w.schedules.modify (ownRow merchantId id) f hf) :
    x ∈ w.schedules ∧ x.id ≠ id ∨ x = f row ∧ row.id = id := by
  have hid : ∀ {r}, ownRow merchantId id r = true → r.id = id := fun h =>
    beq_iff_eq.mp (Bool.and_eq_true_iff.mp h).1
  rcases Table.of_mem_modify hx with ⟨hx, hnot⟩ | ⟨r, hr, hr', rfl⟩
  · refine .inl ⟨hx, fun heq => ?_⟩
    rw [Table.eq_of_conflict hx hrow (heq.trans (hid hown).symm), hown] at hnot
    cases hnot
  · rw [Table.eq_of_conflict hr hrow ((hid hr').trans (hid hown).symm)]
    exact .inr ⟨rfl, hid hown⟩

/-- A date that was asked for before, or is asked for now. -/
theorem past_mention {asked : Uuid → Option (Interval × Int)} {interval : Option Interval}
    {date : Int}
    (hpast : ∀ id i date, asked id = some (i, date) → ∃ t ≤ now, nextRunAt offset t i = some date)
    (hdate : ∀ i, interval = some i → ∃ t ≤ now, nextRunAt offset t i = some date) :
    ∀ id' i date', mention asked id interval date id' = some (i, date') →
      ∃ t ≤ now, nextRunAt offset t i = some date' := by
  intro id' i date' h
  cases interval with
  | none => exact hpast id' i date' h
  | some interval =>
    simp only [mention] at h
    by_cases hid : id' = id
    · rw [hid, Function.update_self] at h
      obtain ⟨rfl, rfl⟩ := Prod.mk.inj (Option.some.inj h)
      exact hdate interval rfl
    · rw [Function.update_of_ne hid] at h
      exact hpast id' i date' h

/-- **Dates through a statement.** -/
theorem dated_moves (hw : w.Dated offset) (hc : c.Dated offset w.now)
    (h : Moves offset w c w' c') : w'.Dated offset ∧ c'.Dated offset w'.now ∧ w'.now = w.now := by
  cases h with
  | read hc' => exact ⟨hw, hc', rfl⟩
  | @inserted merchantId dto date row schedules hinterval hdate hinsert =>
    have hpast : ∀ i, some dto.interval = some i →
        ∃ t ≤ w.now, nextRunAt offset t i = some date := by
      rintro i ⟨⟩
      exact hc
    refine ⟨⟨fun x hx => ?_, past_mention hw.past hpast⟩, trivial, rfl⟩
    show ∃ i, mention w.asked row.id (some dto.interval) date x.id = some (i, x.nextRunAt)
    rcases (Table.mem_of_insert? hinsert x).mp hx with hx | rfl
    · have hne : x.id ≠ row.id := (Table.insert?_eq_some.mp hinsert).1 x hx
      rw [mention_of_ne hne]
      exact hw.rows x hx
    · rw [hdate]
      exact ⟨dto.interval, Function.update_self _ _ _⟩
  | @updated merchantId id dto interval date amount row row' hrow hown hamount =>
    obtain ⟨hsame, hdate⟩ := hc
    refine ⟨⟨fun x hx => ?_, past_mention hw.past fun i hi => hsame i hi ▸ hdate⟩, trivial, rfl⟩
    show ∃ i, mention w.asked id dto.interval date x.id = some (i, x.nextRunAt)
    rcases of_mem_updated (f := Row.updated dto amount interval date) (fun _ => rfl) hrow hown hx
      with ⟨hx, hne⟩ | ⟨rfl, rfl⟩
    · rw [mention_of_ne hne]
      exact hw.rows x hx
    · show ∃ i, mention w.asked row.id dto.interval date row.id
        = some (i, if dto.interval.isSome then date else row.nextRunAt)
      cases dto.interval with
      | none => exact hw.rows row hrow
      | some i => exact ⟨i, Function.update_self _ _ _⟩
  | removed =>
    refine ⟨⟨fun x hx => ?_, hw.past⟩, trivial, rfl⟩
    obtain ⟨row, hrow, rfl⟩ :=
      (Table.mem_modify (f := Row.cancelled) fun _ => rfl).mp hx
    split
    · exact hw.rows row hrow
    · exact hw.rows row hrow

/-- The store and the calls of a run. -/
def SysDated (offset : Int) (s : Program.Sys World Call n) : Prop :=
  s.db.Dated offset ∧ ∀ k, (s.calls k).Dated offset s.db.now

theorem sysDated_step {s s' : Program.Sys World Call n} {a : Program.Label Input Nat n}
    (h : SysDated offset s) (hstep : ((program offset).interleave n).step s a = some s') :
    SysDated offset s' := by
  cases a with
  | call k i =>
    obtain ⟨w, c, hexec, rfl⟩ := (program offset).step_call.mp hstep
    obtain ⟨hw, hc, hnow⟩ := dated_moves h.1 (h.2 k) (moves_of_exec hexec).1
    exact ⟨hw, forall_update (P := fun _ c => Call.Dated offset w.now c) hc fun j _ =>
      (h.2 j).mono hnow.ge⟩
  | env ms =>
    obtain ⟨w, henv, rfl⟩ := (program offset).step_env.mp hstep
    cases henv
    refine ⟨⟨h.1.rows, fun id i date hasked => ?_⟩, fun k => (h.2 k).mono (by simp)⟩
    obtain ⟨t, ht, hdate⟩ := h.1.past id i date hasked
    exact ⟨t, ht.trans (by simp), hdate⟩

theorem sysDated_start (now : Int) : SysDated offset (start n now) :=
  ⟨⟨fun _ h => (nomatch h), fun _ _ _ h => (nomatch h)⟩, fun _ => trivial⟩

/-- **The date of a schedule** is, in every state of every run, the one that `nextRunAt` has
given, at some time up to now, for the interval that a body has named last. -/
theorem dated_of_run {s : Program.Sys World Call n} {steps : List (Program.Label Input Nat n)}
    (hrun : ((program offset).interleave n).run (start n now) steps = some s) {row : Row}
    (hrow : row ∈ s.db.schedules) :
    ∃ i, s.db.asked row.id = some (i, row.nextRunAt) ∧
      ∃ t ≤ s.db.now, nextRunAt offset t i = some row.nextRunAt := by
  have h := ((program offset).interleave n).inv_of_run (fun _ _ _ => sysDated_step)
    (sysDated_start now) hrun
  obtain ⟨i, hi⟩ := h.1.rows row hrow
  exact ⟨i, hi, h.1.past row.id i _ hi⟩

/-! ## Intervals that are written back -/

/-- The step is an `UPDATE` that writes back an interval which is no longer the one of the row. -/
def WritesBack (s : Program.Sys World Call n) (a : Program.Label Input Nat n) : Prop :=
  ∃ k uuid merchantId id dto interval date row, a = .call k (.exec uuid) ∧
    s.calls k = .updating merchantId id dto interval date ∧ dto.interval = none ∧
    (dto.amountUsdc.mapM Numeric.ofText?).isSome = true ∧ row ∈ s.db.schedules ∧
    ownRow merchantId id row = true ∧ row.interval ≠ interval

/-- **A statement keeps the rows in step** if it writes back what is there. -/
theorem inStep_moves (hw : w.InStep) (hc : c.Dated offset w.now) (h : Moves offset w c w' c')
    (hback : ∀ merchantId id dto interval date row,
      c = .updating merchantId id dto interval date → dto.interval = none →
      (dto.amountUsdc.mapM Numeric.ofText?).isSome = true → row ∈ w.schedules →
      ownRow merchantId id row = true → row.interval = interval) : w'.InStep := by
  cases h with
  | read _ => exact hw
  | @inserted merchantId dto date row schedules hinterval hdate hinsert =>
    intro x hx
    show mention w.asked row.id (some dto.interval) date x.id = some (x.interval, x.nextRunAt)
    rcases (Table.mem_of_insert? hinsert x).mp hx with hx | rfl
    · have hne : x.id ≠ row.id := (Table.insert?_eq_some.mp hinsert).1 x hx
      rw [mention_of_ne hne]
      exact hw x hx
    · rw [hinterval, hdate]
      exact Function.update_self _ _ _
  | @updated merchantId id dto interval date amount row row' hrow hown hamount =>
    intro x hx
    show mention w.asked id dto.interval date x.id = some (x.interval, x.nextRunAt)
    rcases of_mem_updated (f := Row.updated dto amount interval date) (fun _ => rfl) hrow hown hx
      with ⟨hx, hne⟩ | ⟨rfl, rfl⟩
    · rw [mention_of_ne hne]
      exact hw x hx
    · show mention w.asked row.id dto.interval date row.id
        = some (interval, if dto.interval.isSome then date else row.nextRunAt)
      cases hnamed : dto.interval with
      | none =>
        rw [← hback _ _ _ _ _ row rfl hnamed (by rw [hamount]; rfl) hrow hown]
        exact hw row hrow
      | some i =>
        obtain rfl := hc.1 i hnamed
        exact Function.update_self _ _ _
  | removed =>
    intro x hx
    obtain ⟨row, hrow, rfl⟩ :=
      (Table.mem_modify (f := Row.cancelled) fun _ => rfl).mp hx
    split
    · exact hw row hrow
    · exact hw row hrow

theorem inStep_step {s s' : Program.Sys World Call n} {a : Program.Label Input Nat n}
    (h : SysDated offset s ∧ s.db.InStep) (hback : ¬ WritesBack s a)
    (hstep : ((program offset).interleave n).step s a = some s') : s'.db.InStep := by
  cases a with
  | call k i =>
    obtain ⟨w, c, hexec, rfl⟩ := (program offset).step_call.mp hstep
    obtain ⟨hmoves, ⟨uuid, rfl⟩ | rfl⟩ := moves_of_exec hexec
    · refine inStep_moves h.2 (h.1.2 k) hmoves ?_
      intro merchantId id dto interval date row hk hnone hamount hrow hown
      by_contra hne
      exact hback ⟨k, uuid, merchantId, id, dto, interval, date, row, rfl, hk, hnone, hamount,
        hrow, hown, hne⟩
    · exact h.2
  | env ms =>
    obtain ⟨w, henv, rfl⟩ := (program offset).step_env.mp hstep
    cases henv
    exact h.2

/-- What is written back over another interval is seen at once. -/
theorem not_inStep_of_writesBack {s s' : Program.Sys World Call n}
    {a : Program.Label Input Nat n} (h : s.db.InStep) (hback : WritesBack s a)
    (hstep : ((program offset).interleave n).step s a = some s') : ¬ s'.db.InStep := by
  obtain ⟨k, uuid, merchantId, id, dto, interval, date, row, rfl, hk, hnone, hamount, hrow, hown,
    hne⟩ := hback
  obtain ⟨amount, hamount⟩ := Option.isSome_iff_exists.mp hamount
  obtain ⟨w, c, hexec, rfl⟩ := (program offset).step_call.mp hstep
  obtain ⟨r, hfind⟩ : ∃ r, s.db.schedules.find? (ownRow merchantId id) = some r := by
    rw [← Option.isSome_iff_exists, Table.find?, List.find?_isSome]
    exact ⟨row, hrow, hown⟩
  simp only [program, hk, Call.exec, hamount, hfind] at hexec
  cases hexec
  intro hafter
  have hid : row.id = id := beq_iff_eq.mp (Bool.and_eq_true_iff.mp hown).1
  have hmem : row.updated dto amount interval date ∈ s.db.schedules.modify (ownRow merchantId id)
      (Row.updated dto amount interval date) fun _ => rfl :=
    (Table.mem_modify _).mpr ⟨row, hrow, if_pos hown⟩
  have hasked : mention s.db.asked id dto.interval date row.id = some (interval, _) :=
    hafter _ hmem
  rw [hnone] at hasked
  exact hne (Prod.mk.inj (Option.some.inj ((h row hrow).symm.trans hasked))).1

/-- **When a schedule runs as it was asked to**: the intervals and dates of all rows are those
that bodies have named last, in every state of a run, if and only if no `UPDATE` of the run writes
back an interval that another one has replaced. -/
theorem inStep_iff {s : Program.Sys World Call n} {steps : List (Program.Label Input Nat n)}
    (hrun : ((program offset).interleave n).run (start n now) steps = some s) :
    ((program offset).interleave n).Guarded (fun u a => ¬ WritesBack u a) (start n now) steps ↔
      ∀ before after u, steps = before ++ after →
        ((program offset).interleave n).run (start n now) before = some u → u.db.InStep := by
  refine Lts.guarded_iff _ (I := fun u => SysDated offset u ∧ u.db.InStep) ?_ (fun _ h => h.2) ?_
    ⟨sysDated_start now, fun _ h => (nomatch h)⟩ hrun
  · exact fun u a u' h hok hstep => ⟨sysDated_step h.1 hstep, inStep_step h hok hstep⟩
  · exact fun u a u' h hbad hstep => not_inStep_of_writesBack h.2 (not_not.mp hbad) hstep

end Steps

/-! ## Two updates -/

/-- One request sets another recipient, and while it runs another one sets another interval. -/
def overlapping : List (Program.Label Input Nat 2) :=
  [.call 0 (.create 1 (some ⟨"GA", "5", .daily⟩)), .call 0 (.exec 7),
    .call 0 (.update 1 7 (some { recipient := some "GB" })), .call 0 (.exec 0),
    .call 1 (.update 1 7 (some { interval := some .weekly })), .call 1 (.exec 0),
    .call 1 (.exec 0), .call 0 (.exec 0)]

/-- A daily schedule that runs next in a week. -/
theorem overlapping_run :
    ∃ s, ((program 0).interleave 2).run (start 2 0) overlapping = some s ∧
      ∃ row ∈ s.db.schedules.rows, row.interval = .daily ∧ row.nextRunAt = 604800000 ∧
        s.db.asked row.id = some (.weekly, 604800000) :=
  ((program 0).interleave 2).exists_of_leadsTo
    (fun s => ∃ row ∈ s.db.schedules.rows, row.interval = .daily ∧ row.nextRunAt = 604800000 ∧
      s.db.asked row.id = some (.weekly, 604800000)) _ _ (by decide +kernel)

theorem inStep_iff_overlapping :
    ¬ ((program 0).interleave 2).Guarded (fun u a => ¬ WritesBack u a) (start 2 0) overlapping := by
  obtain ⟨s, hrun, row, hrow, hdaily, -, hasked⟩ := overlapping_run
  intro hg
  have hstep := (inStep_iff hrun).mp hg overlapping [] s (List.append_nil _).symm hrun row hrow
  rw [hasked, hdaily] at hstep
  cases hstep

theorem dated_of_run_overlapping :
    ∃ t ≤ (0 : Int), nextRunAt 0 t .weekly = some 604800000 := by
  obtain ⟨s, hrun, row, hrow, -, hnext, hasked⟩ := overlapping_run
  have hnow : s.db.now = 0 := by
    obtain ⟨t, ht, hnow⟩ := ((program 0).interleave 2).exists_of_leadsTo
      (fun t => t.db.now = 0) (start 2 0) overlapping (by decide +kernel)
    obtain rfl := Option.some.inj (hrun.symm.trans ht)
    exact hnow
  obtain ⟨i, hi, hpast⟩ := dated_of_run hrun hrow
  rw [hasked] at hi
  obtain ⟨rfl, -⟩ := Prod.mk.inj (Option.some.inj hi)
  rwa [hnow, hnext] at hpast

end Stargate.Schedules
