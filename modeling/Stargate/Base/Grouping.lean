import Mathlib.Algebra.BigOperators.Group.List.Basic
import Mathlib.Data.List.Dedup
import Mathlib.Data.List.Nodup
import Mathlib.Logic.Function.Basic
import Mathlib.Tactic.Ring

/-!
# Joins and groups

`LEFT JOIN` and `GROUP BY` over lists of rows.

- `leftJoin on as bs`: a row of the left table with each row of the right one that it matches,
  or alone;
- `groupBy key rows`: the rows of each key that occurs;
- `groupBy_leftJoin`: grouped by a unique key of the left table, a left join has one group for
  each left row;
- `countP_matching`: sums over such a group count the matching rows;
- `foldl_groupBy`: counts by key, collected from the groups;
- `sum_classes`: sums over classes of rows, of which each row is in one.
-/

namespace Stargate.Base

universe u v w

variable {α : Type u} {β : Type v} {κ : Type w} [DecidableEq κ]

/-- What a left row is joined with. -/
def matching (on : α → β → Bool) (bs : List β) (a : α) : List (α × Option β) :=
  match bs.filter (on a) with
  | [] => [(a, none)]
  | b :: rest => (b :: rest).map fun b => (a, some b)

/-- `as LEFT JOIN bs ON on`. -/
def leftJoin (on : α → β → Bool) (as : List α) (bs : List β) : List (α × Option β) :=
  as.flatMap (matching on bs)

/-- `GROUP BY key`. -/
def groupBy (key : α → κ) (rows : List α) : List (List α) :=
  (rows.map key).dedup.map fun k => rows.filter fun r => key r = k

variable {on : α → β → Bool} {bs : List β} {a : α} {x : α × Option β}

theorem matching_ne_nil (on : α → β → Bool) (bs : List β) (a : α) : matching on bs a ≠ [] := by
  unfold matching
  split <;> simp

theorem fst_of_mem_matching (h : x ∈ matching on bs a) : x.1 = a := by
  unfold matching at h
  split at h
  · rw [List.mem_singleton.mp h]
  · obtain ⟨b, -, rfl⟩ := List.mem_map.mp h
    rfl

/-- Rows that count only where there is a right row. -/
theorem countP_matching (p : Option β → Bool) (hp : p none = false) :
    (matching on bs a).countP (fun x => p x.2) = bs.countP fun b => on a b && p (some b) := by
  have hfilter : (bs.filter (on a)).countP (fun b => p (some b))
      = bs.countP fun b => on a b && p (some b) := by
    rw [List.countP_filter]
    exact List.countP_congr fun b _ => by rw [Bool.and_comm]
  rw [← hfilter, matching]
  split
  · next hnil =>
    rw [hnil]
    simp [hp]
  · next b rest hcons =>
    rw [hcons, List.countP_map]
    rfl

/-- `WHERE` on the left table, after the join or before it. -/
theorem filter_leftJoin (p : α → Bool) (as : List α) :
    (leftJoin on as bs).filter (fun x => p x.1) = leftJoin on (as.filter p) bs := by
  induction as with
  | nil => rfl
  | cons a as ih =>
    have hblock : (matching on bs a).filter (fun x => p x.1)
        = if p a then matching on bs a else [] := by
      split
      · next h =>
        exact List.filter_eq_self.mpr fun x hx => by rwa [fst_of_mem_matching hx]
      · next h =>
        exact List.filter_eq_nil_iff.mpr fun x hx => by rwa [fst_of_mem_matching hx]
    rw [leftJoin, List.flatMap_cons, List.filter_append, hblock, ← leftJoin, ih]
    cases hp : p a <;> simp [hp, leftJoin]

/-- The keys of a block of rows with one key, in front of rows with other keys. -/
theorem dedup_block {k : κ} {block : List κ} {rest : List κ} (hne : block ≠ [])
    (hblock : ∀ x ∈ block, x = k) (hrest : k ∉ rest) :
    (block ++ rest).dedup = k :: rest.dedup := by
  induction block with
  | nil => exact absurd rfl hne
  | cons y block ih =>
    obtain rfl := hblock y List.mem_cons_self
    have htail : ∀ x ∈ block, x = y := fun x hx => hblock x (List.mem_cons_of_mem y hx)
    rw [List.cons_append]
    cases block with
    | nil => exact List.dedup_cons_of_notMem hrest
    | cons z block =>
      have hz : y ∈ z :: block ++ rest := by
        rw [htail z List.mem_cons_self]
        simp
      rw [List.dedup_cons_of_mem hz, ih (List.cons_ne_nil z block) htail]

/-- **One group for each left row.** -/
theorem groupBy_leftJoin {key : α → κ} {as : List α} (hkeys : (as.map key).Nodup) :
    groupBy (fun x => key x.1) (leftJoin on as bs) = as.map (matching on bs) := by
  have hmem : ∀ (as : List α) (x : α × Option β), x ∈ leftJoin on as bs → x.1 ∈ as := by
    intro as x hx
    obtain ⟨a, ha, hx⟩ := List.mem_flatMap.mp hx
    rwa [fst_of_mem_matching hx]
  induction as with
  | nil => rfl
  | cons a as ih =>
    rw [List.map_cons, List.nodup_cons] at hkeys
    obtain ⟨hnew, hkeys⟩ := hkeys
    have hother : ∀ x ∈ leftJoin on as bs, key x.1 ≠ key a := fun x hx heq =>
      hnew (List.mem_map.mpr ⟨x.1, hmem as x hx, heq⟩)
    have hself : ∀ x ∈ matching on bs a, key x.1 = key a := fun x hx => by
      rw [fst_of_mem_matching hx]
    have hdedup : ((leftJoin on (a :: as) bs).map fun x => key x.1).dedup
        = key a :: ((leftJoin on as bs).map fun x => key x.1).dedup := by
      rw [leftJoin, List.flatMap_cons, List.map_append]
      refine dedup_block (by simpa using matching_ne_nil on bs a) ?_ ?_
      · intro k hk
        obtain ⟨x, hx, rfl⟩ := List.mem_map.mp hk
        exact hself x hx
      · intro hk
        obtain ⟨x, hx, heq⟩ := List.mem_map.mp hk
        exact hother x hx heq
    rw [groupBy, hdedup, List.map_cons, List.map_cons, ← ih hkeys]
    have hsplit : leftJoin on (a :: as) bs = matching on bs a ++ leftJoin on as bs :=
      List.flatMap_cons
    rw [hsplit]
    congr 1
    · -- the group of the first key is its block
      rw [List.filter_append, List.filter_eq_self.mpr fun x hx => decide_eq_true (hself x hx),
        List.filter_eq_nil_iff.mpr fun x hx => by simpa using hother x hx, List.append_nil]
    · -- the block has no part in the other groups
      refine List.map_congr_left fun k hk => ?_
      obtain ⟨y, hy, rfl⟩ := List.mem_map.mp (List.mem_dedup.mp hk)
      rw [List.filter_append, List.filter_eq_nil_iff.mpr fun x hx => ?_, List.nil_append]
      simpa [hself x hx] using (hother y hy).symm

/-- A table of counts by key, filled group by group: keys without rows keep their entry. -/
theorem foldl_groupBy {key : α → κ} {rows : List α} (k : κ) :
    ((groupBy key rows).filterMap fun g => g.head?.map fun r => (key r, g.length)).foldl
      (fun counts (entry : κ × Nat) => Function.update counts entry.1 entry.2) (fun _ => 0) k
      = rows.countP fun r => key r = k := by
  -- each group gives its key and its size
  have hentries : ((groupBy key rows).filterMap fun g => g.head?.map fun r => (key r, g.length))
      = (rows.map key).dedup.map fun k => (k, rows.countP fun r => key r = k) := by
    rw [groupBy, List.filterMap_map]
    refine (List.filterMap_congr fun k hk => ?_).trans (congrFun List.filterMap_eq_map _)
    obtain ⟨r, hr, rfl⟩ := List.mem_map.mp (List.mem_dedup.mp hk)
    have hmem : r ∈ rows.filter fun x => key x = key r :=
      List.mem_filter.mpr ⟨hr, decide_eq_true rfl⟩
    obtain ⟨y, ys, hys⟩ := List.exists_cons_of_ne_nil (List.ne_nil_of_mem hmem)
    have hy : key y = key r := by
      have : y ∈ rows.filter fun x => key x = key r := hys ▸ List.mem_cons_self
      exact of_decide_eq_true (List.mem_filter.mp this).2
    simp only [Function.comp_apply, hys, List.head?_cons, Option.map_some, hy]
    rw [List.countP_eq_length_filter, hys]
  -- a key is set once at most
  have hfold : ∀ (ks : List κ) (f : κ → Nat) (init : κ → Nat), ks.Nodup →
      (ks.map fun k => (k, f k)).foldl
        (fun counts (entry : κ × Nat) => Function.update counts entry.1 entry.2) init k
        = if k ∈ ks then f k else init k := by
    intro ks f
    induction ks with
    | nil => intro init _; rfl
    | cons x ks ih =>
      intro init hnodup
      obtain ⟨hx, hnodup⟩ := List.nodup_cons.mp hnodup
      rw [List.map_cons, List.foldl_cons, ih _ hnodup]
      by_cases hkx : k = x
      · subst hkx
        simp [hx]
      · simp [hkx]
  rw [hentries, hfold _ _ _ (List.nodup_dedup _)]
  split
  · rfl
  · next hk =>
    rw [List.mem_dedup] at hk
    refine (List.countP_eq_zero.mpr fun r hr => ?_).symm
    simpa using fun heq => hk (List.mem_map.mpr ⟨r, hr, heq⟩)

/-- What one row adds to the sums of its classes. -/
theorem sum_map_ite (classes : List (α → Bool)) (r : α) (v : Int) :
    (classes.map fun p => if p r then v else 0).sum = classes.countP (fun p => p r) * v := by
  induction classes with
  | nil => simp
  | cons p classes ih =>
    rw [List.map_cons, List.sum_cons, ih, List.countP_cons]
    split
    · push_cast
      ring
    · simp

/-- **Sums by class**: where a row is in one class if it meets `q`, and in none otherwise, the
sums of the classes add up to the sum over the rows that meet `q`. -/
theorem sum_classes {rows : List α} {f : α → Int} {q : α → Bool} {classes : List (α → Bool)}
    (h : ∀ r ∈ rows, classes.countP (fun p => p r) = if q r then 1 else 0) :
    (classes.map fun p => ((rows.filter p).map f).sum).sum = ((rows.filter q).map f).sum := by
  induction rows with
  | nil => simp
  | cons r rows ih =>
    have hsplit : ∀ p : α → Bool, (((r :: rows).filter p).map f).sum
        = (if p r then f r else 0) + ((rows.filter p).map f).sum := by
      intro p
      rw [List.filter_cons]
      split <;> simp
    have hrest := ih fun x hx => h x (List.mem_cons_of_mem r hx)
    simp only [hsplit, List.sum_map_add, sum_map_ite, hrest, h r List.mem_cons_self]
    split <;> simp

end Stargate.Base
