import Mathlib.Algebra.Ring.Int.Defs
import Mathlib.Data.List.Basic
import Mathlib.Data.List.Nodup
import Mathlib.Data.List.Pairwise

/-!
# Tables with unique constraints

A table is a list of rows, in insertion order, no two of which clash on the
unique constraints of their type. The constraint is carried by the structure,
so a table that violates it cannot be built:

- `insert?` is `INSERT`: it fails where the new row clashes with a stored one;
- `append` is `INSERT` into a table whose only constraint is a serial id: the
  id is above every stored one, so the row never clashes;
- `modify p f` is `UPDATE ... WHERE p`, for an `f` that leaves the keys alone,
  and `update?` the same for an `f` that may write them;
- `delete p` is `DELETE ... WHERE p`;
- `find?` is a `SELECT` of one row, `sumOf p f` is `SELECT SUM(f) WHERE p`.
-/

namespace Stargate.Base

universe u v

/-- The unique constraints of a row type: the columns they are about, and when
two rows may not be stored together. -/
class Keyed (ρ : Type u) where
  /-- The columns under unique constraints. -/
  Key : Type v
  /-- The key columns of a row. -/
  key : ρ → Key
  /-- Two keys that violate a unique constraint. -/
  Clash : Key → Key → Prop
  clash_symm : ∀ {a b : Key}, Clash a b → Clash b a
  decClash : DecidableRel Clash

namespace Keyed

variable {ρ : Type u} [Keyed.{u, v} ρ]

/-- Two rows violate a unique constraint. -/
def Conflict (a b : ρ) : Prop := Clash (key a) (key b)

instance : DecidableRel (@Conflict ρ _) := fun a b => decClash (key a) (key b)

theorem conflict_symm {a b : ρ} (h : Conflict a b) : Conflict b a := clash_symm h

end Keyed

open Keyed

/-- A row type with a `BIGSERIAL` column. -/
class Serial (ρ : Type u) where
  /-- The serial column. -/
  id : ρ → Nat

/-- Rows in insertion order, no two of which violate a unique constraint. -/
structure Table (ρ : Type u) [Keyed.{u, v} ρ] where
  rows : List ρ
  unique : rows.Pairwise fun a b => ¬ Conflict a b

namespace Table

variable {ρ : Type u} [Keyed.{u, v} ρ]

instance : Membership ρ (Table ρ) := ⟨fun t r => r ∈ t.rows⟩

@[simp] theorem mem_rows {t : Table ρ} {r : ρ} : r ∈ t.rows ↔ r ∈ t := Iff.rfl

@[ext] theorem ext {s t : Table ρ} (h : s.rows = t.rows) : s = t := by
  cases s
  cases t
  congr

instance [DecidableEq ρ] : DecidableEq (Table ρ) := fun s t =>
  decidable_of_iff (s.rows = t.rows) ⟨ext, fun h => h ▸ rfl⟩

/-- The table without rows. -/
def empty : Table ρ := ⟨[], .nil⟩

/-- The first row that meets a condition. -/
def find? (t : Table ρ) (p : ρ → Bool) : Option ρ := t.rows.find? p

theorem find?_some {t : Table ρ} {p : ρ → Bool} {r : ρ} (h : t.find? p = some r) :
    r ∈ t ∧ p r :=
  ⟨List.mem_of_find?_eq_some h, List.find?_some h⟩

instance : Std.Symm fun a b : ρ => ¬ Conflict a b := ⟨fun _ _ h hc => h (conflict_symm hc)⟩

/-- Two stored rows that clash are the same row. -/
theorem eq_of_conflict {t : Table ρ} {a b : ρ} (ha : a ∈ t) (hb : b ∈ t)
    (hc : Conflict a b) : a = b := by
  by_contra hne
  exact t.unique.forall ha hb hne hc

/-! ## Insertion -/

/-- `INSERT` under the unique constraints: `none` is the unique violation. -/
def insert? (t : Table ρ) (r : ρ) : Option (Table ρ) :=
  if h : ∀ a ∈ t.rows, ¬ Conflict a r then
    some ⟨t.rows ++ [r], List.pairwise_append.mpr
      ⟨t.unique, List.pairwise_singleton _ _, fun a ha b hb => by
        rw [List.mem_singleton.mp hb]
        exact h a ha⟩⟩
  else none

theorem insert?_eq_some {t t' : Table ρ} {r : ρ} :
    t.insert? r = some t' ↔ (∀ a ∈ t, ¬ Conflict a r) ∧ t'.rows = t.rows ++ [r] := by
  unfold insert?
  split
  · next h =>
    rw [Option.some.injEq]
    exact ⟨fun heq => ⟨h, heq ▸ rfl⟩, fun heq => ext heq.2.symm⟩
  · next h =>
    exact iff_of_false (fun heq => nomatch heq) fun heq => h heq.1

theorem mem_of_insert? {t t' : Table ρ} {r : ρ} (h : t.insert? r = some t') (x : ρ) :
    x ∈ t' ↔ x ∈ t ∨ x = r := by
  rw [← mem_rows, (insert?_eq_some.mp h).2, List.mem_append, List.mem_singleton]
  exact Iff.rfl

/-! ## Updates -/

/-- `UPDATE ... SET f WHERE p`. The assignment leaves the key columns alone. -/
def modify (t : Table ρ) (p : ρ → Bool) (f : ρ → ρ) (hf : ∀ r, key (f r) = key r) :
    Table ρ where
  rows := t.rows.map fun r => if p r then f r else r
  unique := by
    refine List.pairwise_map.mpr (t.unique.imp fun {a b} h hc => h ?_)
    have hkey : ∀ r : ρ, key (if p r then f r else r) = key r := fun r => by
      split
      · exact hf r
      · rfl
    unfold Conflict at hc ⊢
    rwa [hkey a, hkey b] at hc

theorem mem_modify {t : Table ρ} {p : ρ → Bool} {f : ρ → ρ} (hf : ∀ r, key (f r) = key r)
    {x : ρ} : x ∈ t.modify p f hf ↔ ∃ r ∈ t, (if p r then f r else r) = x :=
  List.mem_map

/-- A row after an update: one that did not match, or the new value of one that did. -/
theorem of_mem_modify {t : Table ρ} {p : ρ → Bool} {f : ρ → ρ}
    {hf : ∀ r, key (f r) = key r} {x : ρ} (h : x ∈ t.modify p f hf) :
    x ∈ t ∧ p x = false ∨ ∃ r ∈ t, p r = true ∧ x = f r := by
  obtain ⟨r, hr, rfl⟩ := (mem_modify hf).mp h
  cases hp : p r with
  | false => exact .inl ⟨hr, hp⟩
  | true => exact .inr ⟨r, hr, hp, rfl⟩

/-- `DELETE ... WHERE p`. -/
def delete (t : Table ρ) (p : ρ → Bool) : Table ρ :=
  ⟨t.rows.filter fun r => !p r, t.unique.filter _⟩

theorem mem_delete {t : Table ρ} {p : ρ → Bool} {r : ρ} :
    r ∈ t.delete p ↔ r ∈ t ∧ p r = false := by
  rw [← mem_rows, delete, List.mem_filter, Bool.not_eq_true']
  exact Iff.rfl

/-- An `UPDATE` that may write key columns: `none` is the unique violation. -/
def update? (t : Table ρ) (p : ρ → Bool) (f : ρ → ρ) : Option (Table ρ) :=
  let rows := t.rows.map fun r => if p r then f r else r
  if h : rows.Pairwise fun a b => ¬ Conflict a b then some ⟨rows, h⟩ else none

theorem rows_of_update? {t t' : Table ρ} {p : ρ → Bool} {f : ρ → ρ}
    (h : t.update? p f = some t') : t'.rows = t.rows.map fun r => if p r then f r else r := by
  unfold update? at h
  dsimp only at h
  split at h
  · cases h
    rfl
  · cases h

/-! ## Serial ids -/

variable [Serial ρ]

/-- The next value of the serial column: above every stored one. The gaps that
a sequence leaves after failed inserts are not observable in this system. -/
def nextId (t : Table ρ) : Nat := (t.rows.map Serial.id).foldr max 0 + 1

theorem lt_nextId {t : Table ρ} {r : ρ} (h : r ∈ t) : Serial.id r < t.nextId := by
  have hle : ∀ l : List ρ, r ∈ l → Serial.id r ≤ (l.map Serial.id).foldr max 0 := by
    intro l hl
    induction l with
    | nil => cases hl
    | cons a l ih =>
      rcases List.mem_cons.mp hl with rfl | hl
      · exact Nat.le_max_left _ _
      · exact Nat.le_trans (ih hl) (Nat.le_max_right _ _)
  exact Nat.lt_succ_of_le (hle t.rows h)

/-- `INSERT` into a table whose only unique constraint is its serial id. -/
def append (t : Table ρ) (mk : Nat → ρ)
    (hmk : ∀ (r : ρ) (n : Nat), Conflict r (mk n) → Serial.id r = n) : Table ρ where
  rows := t.rows ++ [mk t.nextId]
  unique := List.pairwise_append.mpr
    ⟨t.unique, List.pairwise_singleton _ _, fun a ha b hb hc => by
      rw [List.mem_singleton.mp hb] at hc
      exact absurd (hmk a _ hc) (Nat.ne_of_lt (lt_nextId ha))⟩

@[simp] theorem append_rows {t : Table ρ} {mk : Nat → ρ}
    {hmk : ∀ (r : ρ) (n : Nat), Conflict r (mk n) → Serial.id r = n} :
    (t.append mk hmk).rows = t.rows ++ [mk t.nextId] := rfl

theorem mem_append {t : Table ρ} {mk : Nat → ρ}
    (hmk : ∀ (r : ρ) (n : Nat), Conflict r (mk n) → Serial.id r = n) {x : ρ} :
    x ∈ t.append mk hmk ↔ x ∈ t ∨ x = mk t.nextId := by
  rw [← mem_rows, append_rows, List.mem_append, List.mem_singleton]
  exact Iff.rfl

end Table

/-! ## Sums -/

namespace Table

variable {ρ : Type u} [Keyed.{u, v} ρ] {t : Table ρ} {p q : ρ → Bool} {f : ρ → Int}

/-- `SELECT SUM(f) WHERE p`. -/
def sumOf (t : Table ρ) (p : ρ → Bool) (f : ρ → Int) : Int := ((t.rows.filter p).map f).sum

theorem sumOf_congr (h : ∀ r ∈ t, p r = q r) : t.sumOf p f = t.sumOf q f := by
  rw [sumOf, List.filter_congr h, sumOf]

theorem sumOf_append [Serial ρ] {mk : Nat → ρ}
    (hmk : ∀ (r : ρ) (n : Nat), Conflict r (mk n) → Serial.id r = n) :
    (t.append mk hmk).sumOf p f
      = t.sumOf p f + if p (mk t.nextId) then f (mk t.nextId) else 0 := by
  rw [sumOf, append_rows, List.filter_append, List.map_append, List.sum_append, sumOf]
  cases hp : p (mk t.nextId) <;> simp [hp]

/-- An update of columns that are not summed: the rows that meet `q` after it are
those that met `p` before it. -/
theorem sumOf_modify {u : ρ → Bool} {g : ρ → ρ} (hg : ∀ r, key (g r) = key r)
    (hf : ∀ r, f (g r) = f r) (hq : ∀ r ∈ t, q (if u r then g r else r) = p r) :
    (t.modify u g hg).sumOf q f = t.sumOf p f := by
  have hsame : f ∘ (fun r => if u r then g r else r) = f := by
    funext r
    simp only [Function.comp]
    split
    · exact hf r
    · rfl
  have hrows : t.rows.filter (q ∘ fun r => if u r then g r else r) = t.rows.filter p :=
    List.filter_congr hq
  calc (t.modify u g hg).sumOf q f
      = (((t.rows.filter (q ∘ fun r => if u r then g r else r)).map
          fun r => if u r then g r else r).map f).sum := by rw [sumOf, modify, List.filter_map]
    _ = ((t.rows.filter (q ∘ fun r => if u r then g r else r)).map f).sum := by
        rw [List.map_map, hsame]
    _ = t.sumOf p f := by rw [hrows, sumOf]

end Table

end Stargate.Base
