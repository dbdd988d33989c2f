import Mathlib.Data.Option.Basic

/-!
# One field of a partial update

A field of a JSON object is absent, null or a value, and a column is NULL or a value. What a
partial update should do to a column is `patched`; what `UPDATE ... SET c=COALESCE($k, c)` does
with the parameter `x ?? null` is `coalesced`.

- `patched_patched`, `patched_self`: two updates, and an update twice;
- `Takes`: the column is NULL where null is given, and holds the value that is given;
- `patched_iff_takes`: the statement is a partial update where the column takes the field.
-/

namespace Stargate.Base

variable {α β γ : Type}

/-! ## The law -/

/-- What a column should hold: the field, if it is present. -/
def patched (field : Option (Option γ)) (old : Option γ) : Option γ := field.getD old

/-- Of two updates, the second has the last word where it has the field. -/
theorem patched_patched (a b : Option (Option γ)) (old : Option γ) :
    patched b (patched a old) = patched (b.or a) old := by
  cases b with
  | none => rfl
  | some v => rfl

/-- An update twice is the update. -/
theorem patched_self (a : Option (Option γ)) (old : Option γ) :
    patched a (patched a old) = patched a old := by
  rw [patched_patched, Option.or_self]

/-! ## The statement -/

theorem mapM_some (x : Option α) : x.mapM some = some x := by
  cases x with
  | none => rfl
  | some a => rfl

/-- How inputs of type `α` and stored values of type `β` stand for values of type `γ`. -/
structure Column (α β γ : Type) where
  /-- What the database stores of a parameter; `none` where it refuses that. -/
  read : α → Option β
  /-- The value of an input. -/
  den : α → Option γ
  /-- The value of what is stored. -/
  val : β → γ

namespace Column

variable (c : Column α β γ) {field : Option (Option α)} {old new : Option β}

/-- The value of a field that is present. -/
def given (field : Option (Option α)) : Option (Option γ) := field.map fun v => v.bind c.den

/-- `COALESCE($k, c)` with the parameter `x ?? null`. -/
def coalesced (field : Option (Option α)) (old : Option β) : Option (Option β) :=
  (field.join.mapM c.read).map fun new => new.or old

/-- The column takes a field: null only where it is NULL, and a value only where it holds it. -/
def Takes (old : Option β) : Option (Option α) → Prop
  | none => True
  | some none => old = none
  | some (some a) => ∃ b, c.read a = some b ∧ c.den a = some (c.val b)

theorem coalesced_some (a : α) (old : Option β) :
    c.coalesced (some (some a)) old = (c.read a).map some := by
  show ((c.read a).map some).map (fun new => new.or old) = (c.read a).map some
  cases c.read a with
  | none => rfl
  | some b => rfl

theorem exists_coalesced (h : c.Takes old field) : ∃ new, c.coalesced field old = some new := by
  cases field with
  | none => exact ⟨old, rfl⟩
  | some v =>
    cases v with
    | none => exact ⟨old, rfl⟩
    | some a =>
      obtain ⟨b, hread, -⟩ := h
      exact ⟨some b, by rw [coalesced_some, hread, Option.map_some]⟩

/-- **The statement is a partial update of a column exactly if the column takes the field.** -/
theorem patched_iff_takes (h : c.coalesced field old = some new) :
    new.map c.val = patched (c.given field) (old.map c.val) ↔ c.Takes old field := by
  cases field with
  | none =>
    cases h
    exact iff_of_true rfl trivial
  | some v =>
    cases v with
    | none =>
      cases h
      exact Option.map_eq_none_iff
    | some a =>
      rw [coalesced_some] at h
      obtain ⟨b, hread, rfl⟩ := Option.map_eq_some_iff.mp h
      constructor
      · intro hval
        exact ⟨b, hread, hval.symm⟩
      · rintro ⟨b', hread', hden⟩
        cases hread.symm.trans hread'
        exact hden.symm

/-- A column that has taken a field takes it again. -/
theorem takes_of_patched (h : c.Takes old field)
    (hnew : new.map c.val = patched (c.given field) (old.map c.val)) : c.Takes new field := by
  cases field with
  | none => trivial
  | some v =>
    cases v with
    | none => exact Option.map_eq_none_iff.mp hnew
    | some a => exact h

/-- A field that is never null. -/
theorem coalesced_map_some (field : Option α) (old : Option β) :
    c.coalesced (field.map some) old = (field.mapM c.read).map fun new => new.or old := by
  cases field with
  | none => rfl
  | some a => rfl

end Column

end Stargate.Base
