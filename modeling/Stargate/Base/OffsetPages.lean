import Mathlib.Data.List.Sort
import Mathlib.Order.Defs.LinearOrder

/-!
# Pages by offset

A client reads a listing page by page, `LIMIT n OFFSET k * n`, each page by a query of its
own. Two queries may order the rows of one key differently, and rows may be inserted
between them.

- `window`: what one query returns;
- `collect`: what the client has after its first queries;
- `ListedBy`: the orders that `ORDER BY key DESC` allows, and `listDesc`: one of them;
- `Straddles`: the rows of one key stand on both sides of an offset. `collect_perm_iff`: the
  pages of a table that nobody writes are complete, whatever the orders, exactly where this
  happens at no page;
- `mem_collect_of_sublist`: insertions never make the client miss a row that was there;
- `nodup_collect_iff`: it gets no row twice exactly where none is inserted in front of what it
  has read.
-/

namespace Stargate.Base

universe u v

section Windows

variable {ρ : Type u} {n k m : Nat} {lists : Nat → List ρ}

/-- `LIMIT n OFFSET offset`. -/
def window (n offset : Nat) (rows : List ρ) : List ρ := (rows.drop offset).take n

/-- The first `m` pages of `n` rows; `lists k` is what the `k`-th query reads, in its order. -/
def collect (n : Nat) (lists : Nat → List ρ) : Nat → List ρ
  | 0 => []
  | m + 1 => collect n lists m ++ window n (m * n) (lists m)

theorem take_append_window (n offset : Nat) (rows : List ρ) :
    rows.take offset ++ window n offset rows = rows.take (offset + n) :=
  List.take_add.symm

theorem mem_collect {r : ρ} :
    r ∈ collect n lists m ↔ ∃ k < m, r ∈ window n (k * n) (lists k) := by
  induction m with
  | zero => simp [collect]
  | succ m ih =>
    rw [collect, List.mem_append, ih]
    constructor
    · rintro (⟨k, hk, hr⟩ | hr)
      · exact ⟨k, Nat.lt_succ_of_lt hk, hr⟩
      · exact ⟨m, Nat.lt_succ_self m, hr⟩
    · rintro ⟨k, hk, hr⟩
      rcases Nat.lt_succ_iff_lt_or_eq.mp hk with hk | rfl
      · exact .inl ⟨k, hk, hr⟩
      · exact .inr hr

/-- A short page is the end of its listing. -/
theorem window_eq_drop (h : (window n k (lists m)).length < n) :
    window n k (lists m) = (lists m).drop k := by
  refine List.take_of_length_le ?_
  rw [window, List.length_take] at h
  omega

/-- The last row of a full page. -/
theorem getElem_mem_window {rows : List ρ} {i : Nat} (hn : 0 < n) (hi : k + n = i + 1)
    (hlt : i < rows.length) : rows[i] ∈ window n k rows := by
  rw [window, List.mem_take_iff_getElem]
  refine ⟨i - k, by rw [List.length_drop]; omega, ?_⟩
  rw [List.getElem_drop]
  congr 1
  omega

end Windows

/-! ## Rows of the same key -/

section Ties

variable {ρ : Type u} {κ : Type v} [LinearOrder κ] {key : ρ → κ} {rows l l' : List ρ}
  {n m i : Nat}

/-- The orders that `ORDER BY key DESC` allows. -/
structure ListedBy (key : ρ → κ) (rows l : List ρ) : Prop where
  perm : l.Perm rows
  ordered : l.Pairwise fun a b => key b ≤ key a

/-- Some rows of the key `x` come before the offset `i` and some after it. -/
def Straddles (key : ρ → κ) (rows : List ρ) (x : κ) (i : Nat) : Prop :=
  rows.countP (x < key ·) < i ∧ i < rows.countP (x ≤ key ·)

instance (key : ρ → κ) (rows : List ρ) (x : κ) (i : Nat) : Decidable (Straddles key rows x i) :=
  inferInstanceAs (Decidable (_ ∧ _))

/-- What meets a condition comes first: then it is the beginning of the list. -/
theorem take_drop_countP {p : ρ → Bool} (h : l.Pairwise fun a b => p b = true → p a = true) :
    l.take (l.countP p) = l.filter p ∧ l.drop (l.countP p) = l.filter (!p ·) := by
  induction l with
  | nil => simp
  | cons a l ih =>
    obtain ⟨hhead, htail⟩ := List.pairwise_cons.mp h
    obtain ⟨htake, hdrop⟩ := ih htail
    cases ha : p a with
    | true => simp [ha, htake, hdrop]
    | false =>
      have hnone : ∀ b ∈ l, p b = false := fun b hb => by
        cases hp : p b with
        | true => rw [hhead b hb hp] at ha; cases ha
        | false => rfl
      have hcount : (a :: l).countP p = 0 := by
        rw [List.countP_eq_zero]
        intro b hb
        rcases List.mem_cons.mp hb with rfl | hb
        · simp [ha]
        · simp [hnone b hb]
      have hfilter : l.filter p = [] := List.filter_eq_nil_iff.mpr fun b hb => by
        simp [hnone b hb]
      have hself : l.filter (!p ·) = l := List.filter_eq_self.mpr fun b hb => by
        simp [hnone b hb]
      rw [hcount]
      simp [ha, hfilter, hself]

namespace ListedBy

theorem length_eq (h : ListedBy key rows l) : l.length = rows.length := h.perm.length_eq

theorem countP_eq (h : ListedBy key rows l) (p : ρ → Bool) : l.countP p = rows.countP p :=
  h.perm.countP_eq p

/-- The rows above a key, in front. -/
theorem take_lt (h : ListedBy key rows l) (x : κ) :
    l.take (rows.countP (x < key ·)) = l.filter (x < key ·) := by
  rw [← h.countP_eq]
  refine (take_drop_countP (h.ordered.imp fun {a b} hab hb => ?_)).1
  exact decide_eq_true ((of_decide_eq_true hb).trans_le hab)

/-- Where a row stands among the keys. -/
theorem index (h : ListedBy key rows l) (hi : i < l.length) :
    (∀ x, i < rows.countP (x < key ·) ↔ x < key l[i]) ∧
      (∀ x, i < rows.countP (x ≤ key ·) ↔ x ≤ key l[i]) := by
  -- both conditions hold of a beginning of the list
  have hsplit : ∀ p : ρ → Bool, (∀ a b : ρ, key b ≤ key a → p b = true → p a = true) →
      (i < rows.countP p ↔ p l[i] = true) := by
    intro p hp
    obtain ⟨htake, hdrop⟩ := take_drop_countP (h.ordered.imp fun {a b} hab => hp a b hab)
    rw [h.countP_eq] at htake hdrop
    constructor
    · intro hlt
      have hmem : l[i] ∈ l.take (rows.countP p) := List.mem_take_iff_getElem.mpr
        ⟨i, Nat.lt_min.mpr ⟨hlt, hi⟩, rfl⟩
      rw [htake] at hmem
      exact (List.mem_filter.mp hmem).2
    · intro hpi
      by_contra hge
      have hmem : l[i] ∈ l.drop (rows.countP p) := List.mem_drop_iff_getElem.mpr
        ⟨i - rows.countP p, by omega, by simp [Nat.add_sub_cancel' (not_lt.mp hge)]⟩
      rw [hdrop] at hmem
      have hnot := (List.mem_filter.mp hmem).2
      simp [hpi] at hnot
  constructor
  · intro x
    rw [hsplit _ fun a b hab hb => decide_eq_true ((of_decide_eq_true hb).trans_le hab)]
    exact decide_eq_true_iff
  · intro x
    rw [hsplit _ fun a b hab hb => decide_eq_true ((of_decide_eq_true hb).trans hab)]
    exact decide_eq_true_iff

/-- Where no key stands on both sides of an offset, every order has the same rows in front
of it. -/
theorem take_perm (h : ListedBy key rows l) (h' : ListedBy key rows l')
    (hi : ∀ x, ¬ Straddles key rows x i) : (l.take i).Perm (l'.take i) := by
  by_cases hlt : i < l.length
  · obtain ⟨hbelow, hfrom⟩ := h.index hlt
    have hcount : i = rows.countP (key l[i] < key ·) := by
      have hge := (hbelow (key l[i])).not.mpr (lt_irrefl _)
      have hle := (hfrom (key l[i])).mpr le_rfl
      by_contra hne
      exact hi (key l[i]) ⟨by omega, hle⟩
    rw [hcount, h.take_lt, h'.take_lt]
    exact (h.perm.trans h'.perm.symm).filter _
  · have hle := not_lt.mp hlt
    rw [List.take_of_length_le hle, List.take_of_length_le (by rwa [h'.length_eq, ← h.length_eq])]
    exact h.perm.trans h'.perm.symm

/-- Two neighbours of the same key may change places. -/
theorem swap {xs ys : List ρ} {a b : ρ} (h : ListedBy key rows (xs ++ a :: b :: ys))
    (hab : key a = key b) : ListedBy key rows (xs ++ b :: a :: ys) where
  perm := ((List.Perm.swap a b ys).append_left xs).trans h.perm
  ordered := by
    have := h.ordered
    simp only [List.pairwise_append, List.pairwise_cons, List.mem_cons, forall_eq_or_imp] at this ⊢
    obtain ⟨hxs, ⟨⟨_, ha⟩, hb, hys⟩, hcross⟩ := this
    refine ⟨hxs, ⟨⟨hab.le, hb⟩, ha, hys⟩, fun x hx => ?_⟩
    obtain ⟨h₁, h₂, h₃⟩ := hcross x hx
    exact ⟨h₂, h₁, h₃⟩

/-- Where every row has a key of its own, there is one order. -/
theorem strict (h : ListedBy key rows l) (hkeys : (rows.map key).Nodup) :
    l.Pairwise fun a b => key b < key a := by
  have hne := List.pairwise_map.mp ((h.perm.map key).nodup_iff.mpr hkeys)
  exact (h.ordered.and hne).imp fun hab => lt_of_le_of_ne hab.1 (Ne.symm hab.2)

end ListedBy

/-- One of the orders. -/
def listDesc (key : ρ → κ) (rows : List ρ) : List ρ :=
  rows.insertionSort fun a b => key b ≤ key a

theorem listedBy_listDesc (key : ρ → κ) (rows : List ρ) :
    ListedBy key rows (listDesc key rows) := by
  have : Std.Total fun a b : ρ => key b ≤ key a := ⟨fun a b => le_total (key b) (key a)⟩
  have : IsTrans ρ fun a b : ρ => key b ≤ key a := ⟨fun _ _ _ hab hbc => hbc.trans hab⟩
  exact ⟨List.perm_insertionSort _ rows, List.pairwise_insertionSort _ rows⟩

/-! ## A table that nobody writes -/

/-- Queries that use one listing up to a page and another one from there on. -/
theorem collect_switch (l l' : List ρ) (n k : Nat) (j : Nat) :
    collect n (fun i => if i < k then l else l') (k + j)
      = l.take (k * n) ++ window (j * n) (k * n) l' := by
  have hfront : ∀ m ≤ k, collect n (fun i => if i < k then l else l') m = l.take (m * n) := by
    intro m hm
    induction m with
    | zero => simp [collect]
    | succ m ih =>
      rw [collect, ih (Nat.le_of_succ_le hm), if_pos (Nat.lt_of_succ_le hm), take_append_window,
        Nat.succ_mul]
  induction j with
  | zero => simp [hfront k le_rfl, window]
  | succ j ih =>
    rw [← Nat.add_assoc, collect, ih, if_neg (Nat.not_lt.mpr (Nat.le_add_right k j)),
      List.append_assoc]
    congr 1
    rw [window, window, window, Nat.succ_mul, List.take_add, List.drop_drop, Nat.add_mul]

variable {lists : Nat → List ρ}

/-- Where no key stands on both sides of an offset, every client has the same rows so far. -/
theorem collect_perm (hlists : ∀ k, ListedBy key rows (lists k))
    (hpages : ∀ x k, ¬ Straddles key rows x (k * n)) (hl : ListedBy key rows l) :
    (collect n lists m).Perm (l.take (m * n)) := by
  induction m with
  | zero => simp [collect]
  | succ m ih =>
    have hpage := (hl.take_perm (hlists m) fun x => hpages x m).append_right
      (window n (m * n) (lists m))
    calc collect n lists (m + 1)
        = collect n lists m ++ window n (m * n) (lists m) := rfl
      _ |>.Perm (l.take (m * n) ++ window n (m * n) (lists m)) := ih.append_right _
      _ |>.Perm ((lists m).take (m * n) ++ window n (m * n) (lists m)) := hpage
      _ = (lists m).take ((m + 1) * n) := by rw [take_append_window, Nat.succ_mul]
      _ |>.Perm (l.take ((m + 1) * n)) := (hlists m).take_perm hl fun x => hpages x (m + 1)

/-- Two neighbours of the same key, one on each side of the offset. -/
theorem Straddles.split {x : κ} (h : Straddles key rows x i) :
    ∃ xs a b ys, ListedBy key rows (xs ++ a :: b :: ys) ∧ key a = key b ∧ i = xs.length + 1 := by
  obtain ⟨habove, hfrom⟩ := h
  obtain ⟨l, hl⟩ : ∃ l, ListedBy key rows l := ⟨_, listedBy_listDesc key rows⟩
  have hlt : i < l.length := hl.length_eq ▸ hfrom.trans_le List.countP_le_length
  obtain ⟨i, rfl⟩ := Nat.exists_eq_succ_of_ne_zero (Nat.ne_zero_of_lt habove)
  have hkey : ∀ j (hj : j < l.length), i ≤ j → j ≤ i + 1 → key l[j] = x := by
    intro j hj hij hji
    obtain ⟨hgt, hge⟩ := hl.index hj
    have h₁ := (hgt x).not.mp (by omega)
    have h₂ := (hge x).mp (by omega)
    exact le_antisymm (not_lt.mp h₁) h₂
  have hi : i < l.length := Nat.lt_of_succ_lt hlt
  have hsplit : l.take i ++ l[i] :: l[i + 1] :: l.drop (i + 2) = l := by
    rw [← List.drop_eq_getElem_cons, ← List.drop_eq_getElem_cons, List.take_append_drop]
  refine ⟨l.take i, l[i], l[i + 1], l.drop (i + 2), ?_, ?_, ?_⟩
  · rwa [hsplit]
  · rw [hkey i hi le_rfl (Nat.le_succ i), hkey (i + 1) hlt (Nat.le_succ i) le_rfl]
  · rw [List.length_take_of_le hi.le]

/-- Two neighbours that change places when the first of them has been read: it comes twice. -/
theorem collect_swapped {xs ys : List ρ} {a b : ρ} {k j : Nat} (hk : k * n = xs.length + 1)
    (hj : (xs ++ a :: b :: ys).length ≤ (k + j) * n) :
    collect n (fun i => if i < k then xs ++ a :: b :: ys else xs ++ b :: a :: ys) (k + j)
      = xs ++ [a] ++ a :: ys := by
  have hfront : (xs ++ a :: b :: ys).take (k * n) = xs ++ [a] := by
    rw [hk, List.take_length_add_append]
    rfl
  have hrest : (xs ++ b :: a :: ys).drop (k * n) = a :: ys := by
    rw [hk, List.drop_length_add_append]
    rfl
  rw [collect_switch, hfront, window, hrest, List.take_of_length_le]
  simp only [List.length_append, List.length_cons, Nat.add_mul] at hj ⊢
  omega

/-- **Complete pages**: whatever orders the queries use, the pages are the rows of the table,
exactly where no page ends between two rows of the same key. -/
theorem collect_perm_iff (hrows : rows.Nodup) (hm : rows.length ≤ m * n) :
    (∀ lists : Nat → List ρ, (∀ k, ListedBy key rows (lists k)) →
        (collect n lists m).Perm rows) ↔
      ∀ x k, ¬ Straddles key rows x (k * n) := by
  constructor
  · intro hall x k hx
    obtain ⟨xs, a, b, ys, hl, hab, hk⟩ := hx.split
    have hlen : xs.length + 1 < m * n := by
      have := hl.length_eq
      rw [List.length_append, List.length_cons, List.length_cons] at this
      omega
    have hkm : k ≤ m := by
      by_contra hmk
      have := Nat.mul_le_mul_right n (not_le.mp hmk).le
      omega
    obtain ⟨j, rfl⟩ := Nat.exists_eq_add_of_le hkm
    have hperm := hall (fun i => if i < k then xs ++ a :: b :: ys else xs ++ b :: a :: ys)
      fun i => by
        split
        · exact hl
        · exact hl.swap hab
    rw [collect_swapped hk (hl.length_eq ▸ hm)] at hperm
    have hdup := hperm.nodup_iff.mpr hrows
    rw [List.nodup_append] at hdup
    exact hdup.2.2 a (by simp) a (by simp) rfl
  · intro hpages lists hlists
    have := collect_perm (n := n) (m := m) hlists hpages (hlists 0)
    rw [List.take_of_length_le ((hlists 0).length_eq ▸ hm)] at this
    exact this.trans (hlists 0).perm

end Ties

/-! ## A table that grows -/

/-- Keys of their own, also before rows were added. -/
theorem nodup_keys_of_subperm {ρ : Type u} {κ : Type v} {key : ρ → κ} {rows rows' : List ρ}
    (hrows : rows.Subperm rows') (hkeys : (rows'.map key).Nodup) : (rows.map key).Nodup := by
  obtain ⟨l, hl, hsub⟩ := hrows
  exact (hl.map key).nodup_iff.mp (hkeys.sublist (hsub.map key))

section Growth

variable {ρ : Type u} {n m : Nat} {lists : Nat → List ρ}

/-- A row that the client has not come to yet is on one of the next pages, or still ahead. -/
theorem mem_window_or_drop (hgrow : ∀ k, (lists k).Sublist (lists (k + 1))) {j k : Nat} {r : ρ}
    (hr : r ∈ (lists j).drop (j * n)) (hjk : j ≤ k) :
    (∃ i, j ≤ i ∧ i < k ∧ r ∈ window n (i * n) (lists i)) ∨ r ∈ (lists k).drop (k * n) := by
  induction k, hjk using Nat.le_induction with
  | base => exact .inr hr
  | succ k hjk ih =>
    rcases ih with ⟨i, hji, hik, hi⟩ | hk
    · exact .inl ⟨i, hji, Nat.lt_succ_of_lt hik, hi⟩
    · rw [← List.take_append_drop n ((lists k).drop (k * n)), List.mem_append] at hk
      rcases hk with hk | hk
      · exact .inl ⟨k, hjk, Nat.lt_succ_self k, hk⟩
      · rw [List.drop_drop, ← Nat.succ_mul] at hk
        exact .inr (((hgrow k).drop ((k + 1) * n)).mem hk)

/-- What was ahead of the client has been read once a page is short. -/
theorem exists_window_of_mem_drop (hgrow : ∀ k, (lists k).Sublist (lists (k + 1)))
    (hlast : (window n (m * n) (lists m)).length < n) {j : Nat} {r : ρ}
    (hr : r ∈ (lists j).drop (j * n)) (hjm : j ≤ m) :
    ∃ i, j ≤ i ∧ i ≤ m ∧ r ∈ window n (i * n) (lists i) := by
  rcases mem_window_or_drop hgrow hr hjm with ⟨i, hji, him, hi⟩ | hm
  · exact ⟨i, hji, him.le, hi⟩
  · rw [← window_eq_drop hlast] at hm
    exact ⟨m, hjm, le_rfl, hm⟩

/-- **Nothing is missed**: however the table grows while it is read, the pages up to the first
short one have every row that the first query could see. -/
theorem mem_collect_of_sublist (hgrow : ∀ k, (lists k).Sublist (lists (k + 1)))
    (hlast : (window n (m * n) (lists m)).length < n) {r : ρ} (hr : r ∈ lists 0) :
    r ∈ collect n lists (m + 1) := by
  obtain ⟨i, -, him, hi⟩ := exists_window_of_mem_drop hgrow hlast (j := 0) (by simpa using hr)
    (Nat.zero_le m)
  exact mem_collect.mpr ⟨i, Nat.lt_succ_of_le him, hi⟩

theorem not_mem_of_nodup_collect (h : (collect n lists m).Nodup) {j k : Nat} {r : ρ} (hjk : j < k)
    (hk : k < m) (hr : r ∈ window n (j * n) (lists j)) : r ∉ window n (k * n) (lists k) := by
  induction m with
  | zero => cases hk
  | succ m ih =>
    rw [collect, List.nodup_append] at h
    rcases Nat.lt_succ_iff_lt_or_eq.mp hk with hk | rfl
    · exact ih h.1 hk
    · intro hmem
      exact h.2.2 r (mem_collect.mpr ⟨j, hjk, hr⟩) r hmem rfl

/-- The beginning of a list is where it was, unless its last row has moved on. -/
theorem take_eq_of_sublist {l l' : List ρ} {i : Nat} (hi : i < l.length) (h : l.Sublist l')
    (hlast : l[i] ∉ l'.drop (i + 1)) : l'.take (i + 1) = l.take (i + 1) := by
  have hbegin : (l.take i ++ [l[i]]).Sublist (l'.take (i + 1) ++ l'.drop (i + 1)) := by
    rw [List.take_append_getElem, List.take_append_drop]
    exact (List.take_sublist _ _).trans h
  obtain ⟨ys, zs, heq, hys, hzs⟩ := List.sublist_append_iff.mp hbegin
  rcases List.eq_nil_or_concat zs with rfl | ⟨zs, z, rfl⟩
  · rw [List.append_nil] at heq
    rw [List.take_append_getElem] at heq
    have hle : (l'.take (i + 1)).length ≤ ys.length := by
      rw [← heq, List.length_take_of_le hi]
      exact List.length_take_le _ _
    exact (hys.eq_of_length_le hle).symm.trans heq.symm
  · rw [List.concat_eq_append, ← List.append_assoc] at heq
    have hz : l[i] = z := by
      have := congrArg List.getLast? heq
      rw [List.getLast?_concat, List.getLast?_concat] at this
      exact Option.some.inj this
    exact absurd (hzs.mem (by simp [hz])) hlast

/-- **Nothing comes twice** exactly where no row is inserted in front of those that the client
has read. -/
theorem nodup_collect_iff (hgrow : ∀ k, (lists k).Sublist (lists (k + 1))) (hn : 0 < n)
    (hfull : ∀ k < m, (k + 1) * n ≤ (lists k).length)
    (hlast : (window n (m * n) (lists m)).length < n) (hnodup : (lists m).Nodup) :
    (collect n lists (m + 1)).Nodup ↔
      ∀ k < m, (lists (k + 1)).take ((k + 1) * n) = (lists k).take ((k + 1) * n) := by
  constructor
  · intro h k hk
    obtain ⟨i, hi⟩ : ∃ i, (k + 1) * n = i + 1 :=
      Nat.exists_eq_succ_of_ne_zero (Nat.mul_pos k.succ_pos hn).ne'
    have hlen := hfull k hk
    have hkn : (k + 1) * n = k * n + n := Nat.succ_mul k n
    rw [hi] at hlen
    have hmem : (lists k)[i] ∈ window n (k * n) (lists k) :=
      getElem_mem_window hn (by omega) hlen
    rw [hi]
    refine take_eq_of_sublist hlen (hgrow k) fun hmoved => ?_
    rw [← hi] at hmoved
    obtain ⟨j, hkj, hjm, hj⟩ := exists_window_of_mem_drop hgrow hlast hmoved hk
    exact not_mem_of_nodup_collect h hkj (Nat.lt_succ_of_le hjm) hmem hj
  · intro h
    have hall : ∀ k ≤ m, collect n lists (k + 1) = (lists k).take ((k + 1) * n) := by
      intro k hk
      induction k with
      | zero => simp [collect, window]
      | succ k ih =>
        rw [collect, ih (Nat.le_of_succ_le hk), ← h k (Nat.lt_of_succ_le hk), take_append_window,
          ← Nat.succ_mul]
    rw [hall m le_rfl]
    exact hnodup.sublist (List.take_sublist _ _)

end Growth

/-! ## Rows with keys of their own -/

namespace ListedBy

variable {ρ : Type u} {κ : Type v} [LinearOrder κ] {key : ρ → κ} {rows rows' l l' : List ρ}
  {i : Nat}

/-- They stay in order when others are added. -/
theorem sublist (h : ListedBy key rows l) (h' : ListedBy key rows' l')
    (hrows : rows.Subperm rows') (hkeys : (rows'.map key).Nodup) : l.Sublist l' := by
  have hsub : l.Subperm l' := h'.perm.subperm_left.mpr (h.perm.subperm_right.mpr hrows)
  have : Std.Antisymm fun a b : ρ => key b < key a := ⟨fun _ _ hab hba => absurd hab hba.asymm⟩
  exact List.sublist_of_subperm_of_pairwise hsub
    (h.strict (nodup_keys_of_subperm hrows hkeys)) (h'.strict hkeys)

/-- The beginning is where it was exactly where the rows added come after its last row. -/
theorem take_eq_iff (h : ListedBy key rows l) (h' : ListedBy key rows' l')
    (hrows : rows.Subperm rows') (hkeys : (rows'.map key).Nodup) (hi : i < l.length) :
    l'.take (i + 1) = l.take (i + 1) ↔ ∀ r ∈ rows', r ∉ rows → key r < key l[i] := by
  have hstrict := h.strict (nodup_keys_of_subperm hrows hkeys)
  have hstrict' := h'.strict hkeys
  rw [← List.take_append_drop (i + 1) l', List.pairwise_append] at hstrict'
  constructor
  · intro heq r hr hnew
    have hlast : l[i] ∈ l'.take (i + 1) :=
      heq ▸ List.mem_take_iff_getElem.mpr ⟨i, by omega, rfl⟩
    have hmem : r ∈ l'.take (i + 1) ++ l'.drop (i + 1) := by
      rw [List.take_append_drop]
      exact h'.perm.mem_iff.mpr hr
    rcases List.mem_append.mp hmem with hmem | hmem
    · rw [heq] at hmem
      exact absurd (h.perm.mem_iff.mp (List.mem_of_mem_take hmem)) hnew
    · exact hstrict'.2.2 l[i] hlast r hmem
  · intro hnew
    refine take_eq_of_sublist hi (h.sublist h' hrows hkeys) fun hmoved => ?_
    -- what now stands in front of the last row was in front of it before
    have hfront : l'.take (i + 1) ⊆ l.take i := by
      intro b hb
      have habove := hstrict'.2.2 b hb l[i] hmoved
      have hold : b ∈ l := by
        by_contra hb'
        have := hnew b (h'.perm.mem_iff.mp (List.mem_of_mem_take hb))
          fun hrow => hb' (h.perm.mem_iff.mpr hrow)
        exact absurd this habove.asymm
      rw [← List.take_append_drop i l, List.mem_append] at hold
      rcases hold with hold | hold
      · exact hold
      · have hdrop := hstrict.sublist (List.drop_sublist i l)
        rw [List.drop_eq_getElem_cons hi] at hdrop hold
        rcases List.mem_cons.mp hold with rfl | hold
        · exact absurd habove (lt_irrefl _)
        · exact absurd (List.rel_of_pairwise_cons hdrop hold) habove.asymm
    have hnodup : (l'.take (i + 1)).Nodup :=
      hstrict'.1.imp fun hab => fun heq => absurd (heq ▸ hab) (lt_irrefl _)
    have hle := (List.subperm_of_subset hnodup hfront).length_le
    have hlong := (h.sublist h' hrows hkeys).length_le
    rw [List.length_take, List.length_take] at hle
    omega

/-- A row is in front of a page exactly where it is in front of its last row. -/
theorem lt_window_iff (h : ListedBy key rows l) {n k : Nat} (hn : 0 < n)
    (hi : k + n = i + 1) (hlt : i < l.length) (x : κ) :
    (∀ a ∈ window n k l, x < key a) ↔ x < key l[i] := by
  refine ⟨fun hall => hall _ (getElem_mem_window hn hi hlt), fun hx a ha => ?_⟩
  obtain ⟨j, hj, rfl⟩ := List.mem_take_iff_getElem.mp ha
  rw [List.length_drop, Nat.lt_min] at hj
  rw [List.getElem_drop]
  rcases Nat.lt_or_ge (k + j) i with hji | hij
  · exact hx.trans_le (List.pairwise_iff_getElem.mp h.ordered (k + j) i (by omega) hlt hji)
  · have : k + j = i := by omega
    simpa only [this] using hx

end ListedBy

end Stargate.Base
