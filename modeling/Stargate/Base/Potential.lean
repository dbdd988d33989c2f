import Mathlib.Algebra.BigOperators.Group.List.Basic
import Mathlib.Tactic.Linarith
import Mathlib.Tactic.Ring
import Stargate.Base.Table
import Stargate.Base.Transition

/-!
# Potentials

To bound how often something happens in a run, one finds a quantity that every such step adds
to and no step takes from, and bounds it in the last state.

- `Lts.mul_length_outputs_le`: the rule for runs. A step may use that the last state is still
  to be reached from it;
- `Table.sumOf_modify_one`: what an `UPDATE` of one row does to a sum, for potentials that sum up
  a column.
-/

namespace Stargate.Base

universe u v

namespace Lts

variable {σ : Type u} {α : Type v} (T : Lts σ α) {β : Type*}

/-- **The potential rule**: what each step adds to `Φ` at least adds up over a run. -/
theorem mul_length_outputs_le {I : σ → Prop} {Φ : σ → Int} {f : σ → α → List β} {c : Int} {t : σ}
    (hstep : ∀ s a s', I s → T.step s a = some s' → I s')
    (hgain : ∀ s a s', I s → T.step s a = some s' → (∃ rest, T.run s' rest = some t) →
      Φ s + c * (f s a).length ≤ Φ s')
    {s : σ} {as : List α} (h₀ : I s) (hr : T.run s as = some t) :
    Φ s + c * (T.outputs f s as).length ≤ Φ t := by
  induction as generalizing s with
  | nil =>
    cases hr
    simp [outputs]
  | cons a as ih =>
    obtain ⟨s', hs, hr'⟩ := T.run_cons.mp hr
    have hfirst := hgain s a s' h₀ hs ⟨as, hr'⟩
    have hrest := ih (hstep s a s' h₀ hs) hr'
    simp only [outputs, hs, List.length_append, Nat.cast_add, mul_add]
    linarith

end Lts

namespace Table

variable {ρ : Type u}

theorem sum_filter_map (l : List ρ) (p : ρ → Bool) (f : ρ → Int) :
    ((l.filter p).map f).sum = (l.map fun r => if p r then f r else 0).sum := by
  rw [List.sum_map_ite]
  simp

/-- One element of a list changes. -/
theorem sum_map_update {l : List ρ} {v : ρ → Int} {u : ρ → Bool} {g : ρ → ρ} {d : ρ}
    (hnodup : l.Nodup) (hd : d ∈ l) (hu : ∀ r ∈ l, u r = true ↔ r = d) :
    ((l.map fun r => if u r then g r else r).map v).sum + v d = (l.map v).sum + v (g d) := by
  induction l with
  | nil => cases hd
  | cons r l ih =>
    obtain ⟨hr, hnodup⟩ := List.nodup_cons.mp hnodup
    obtain ⟨hself, hrest⟩ := List.forall_mem_cons.mp hu
    simp only [List.map_cons, List.sum_cons]
    rcases List.mem_cons.mp hd with rfl | hd
    · -- the others are not touched
      have hsame : (l.map fun r => if u r then g r else r) = l := by
        refine (List.map_congr_left fun x hx => ?_).trans (List.map_id l)
        exact if_neg fun hux => hr ((hrest x hx).mp hux ▸ hx)
      rw [hsame, if_pos (hself.mpr rfl)]
      ring
    · have hne : ¬ u r = true := fun hur => hr (hself.mp hur ▸ hd)
      have hl := ih hnodup hd hrest
      rw [if_neg hne]
      linarith

variable [Keyed.{u, v} ρ] {t : Table ρ}

/-- **An `UPDATE` of one row** changes a sum by what it changes of the row. -/
theorem sumOf_modify_one {p u : ρ → Bool} {f : ρ → Int} {g : ρ → ρ} {d : ρ}
    (hg : ∀ r, Keyed.key (g r) = Keyed.key r) (hrefl : ∀ r : ρ, Keyed.Conflict r r) (hd : d ∈ t)
    (hu : ∀ r ∈ t, u r = true ↔ r = d) :
    (t.modify u g hg).sumOf p f + (if p d then f d else 0)
      = t.sumOf p f + if p (g d) then f (g d) else 0 := by
  have hnodup : t.rows.Nodup := t.unique.imp fun {a b} hno => by
    rintro rfl
    exact hno (hrefl a)
  rw [sumOf, sumOf, sum_filter_map, sum_filter_map]
  exact sum_map_update hnodup hd hu

end Table

end Stargate.Base
