import Mathlib.Data.List.Lex
import Mathlib.Data.List.Sort

/-!
# The order of strings in ECMAScript

Strings are compared by their UTF-16 code units. The order is total on strings, so that sorting
has one result for all orders of its input: `sortStrings_eq_of_perm`.
-/

namespace Stargate.Base

/-- The UTF-16 code units of a character. -/
def codeUnits (c : Char) : List Nat :=
  if c.toNat < 0x10000 then [c.toNat]
  else [0xD800 + (c.toNat - 0x10000) / 0x400, 0xDC00 + (c.toNat - 0x10000) % 0x400]

/-- The UTF-16 code units of a string. -/
def utf16 (s : String) : List Nat := s.toList.flatMap codeUnits

/-- No character's units begin those of another one: no scalar value is a surrogate. -/
theorem codeUnits_append_inj {c d : Char} {xs ys : List Nat}
    (h : codeUnits c ++ xs = codeUnits d ++ ys) : c = d ∧ xs = ys := by
  have hc : c.toNat < 0xD800 ∨ 0xDFFF < c.toNat ∧ c.toNat < 0x110000 := c.valid
  have hd : d.toNat < 0xD800 ∨ 0xDFFF < d.toNat ∧ d.toNat < 0x110000 := d.valid
  suffices hcd : c.toNat = d.toNat ∧ xs = ys from ⟨Char.toNat_inj.mp hcd.1, hcd.2⟩
  unfold codeUnits at h
  by_cases hc' : c.toNat < 0x10000
  · by_cases hd' : d.toNat < 0x10000
    · rw [if_pos hc', if_pos hd'] at h
      exact List.cons.inj h
    · rw [if_pos hc', if_neg hd'] at h
      have := (List.cons.inj h).1
      omega
  · by_cases hd' : d.toNat < 0x10000
    · rw [if_neg hc', if_pos hd'] at h
      have := (List.cons.inj h).1
      omega
    · rw [if_neg hc', if_neg hd'] at h
      obtain ⟨hhigh, h⟩ := List.cons.inj h
      obtain ⟨hlow, h⟩ := List.cons.inj h
      exact ⟨by omega, h⟩

theorem codeUnits_ne_nil (c : Char) : codeUnits c ≠ [] := by
  unfold codeUnits
  split
  · exact List.cons_ne_nil _ _
  · exact List.cons_ne_nil _ _

theorem utf16_injective : Function.Injective utf16 := by
  intro s t h
  suffices hlist : ∀ cs ds : List Char, cs.flatMap codeUnits = ds.flatMap codeUnits → cs = ds from
    String.ext (hlist _ _ h)
  intro cs
  induction cs with
  | nil =>
    intro ds h
    cases ds with
    | nil => rfl
    | cons d ds => exact absurd (List.append_eq_nil_iff.mp h.symm).1 (codeUnits_ne_nil d)
  | cons c cs ih =>
    intro ds h
    cases ds with
    | nil => exact absurd (List.append_eq_nil_iff.mp h).1 (codeUnits_ne_nil c)
    | cons d ds =>
      rw [List.flatMap_cons, List.flatMap_cons] at h
      obtain ⟨rfl, hrest⟩ := codeUnits_append_inj h
      rw [ih ds hrest]

/-- `strings.sort()`. -/
def sortStrings (xs : List String) : List String := xs.insertionSort fun a b => utf16 a ≤ utf16 b

theorem perm_sortStrings (xs : List String) : (sortStrings xs).Perm xs :=
  List.perm_insertionSort _ xs

theorem sortStrings_eq_of_perm {xs ys : List String} (h : xs.Perm ys) :
    sortStrings xs = sortStrings ys := by
  have hperm : (sortStrings xs).Perm (sortStrings ys) :=
    ((perm_sortStrings xs).trans h).trans (perm_sortStrings ys).symm
  have : Std.Total fun a b => utf16 a ≤ utf16 b := ⟨fun a b => le_total (utf16 a) (utf16 b)⟩
  have : IsTrans String fun a b => utf16 a ≤ utf16 b := ⟨fun a b c => le_trans⟩
  have hsorted := List.pairwise_insertionSort fun a b => utf16 a ≤ utf16 b
  refine hperm.eq_of_pairwise (fun a b _ _ hab hba => ?_) (hsorted xs) (hsorted ys)
  exact utf16_injective (le_antisymm hab hba)

end Stargate.Base
