import Mathlib.Data.List.Perm.Basic
import Mathlib.Data.List.Sort
import Stargate.Base.Table
import Stargate.Base.Transition

/-!
# Statement sequences, and what they show of a shared state

A call of a service is a sequence of statements on a state, each committed on its own: what is
written before an error stays.

- `Statements`: such sequences; `run_bind`: one after the other;
- `Isolated`: from two states that an observer cannot tell apart, the same result and again such
  states, and what is not the observer's is left alone. There is one rule for each construct:
  `Isolated.bind`, `Isolated.query` and so on;
- `isolated_run`: what holds of each call holds of every run of calls;
- `find?_eq_of_perm`, `sort_eq_of_perm` and others: queries that see only rows of the observer.
-/

namespace Stargate.Base

/-- Statements on a state, with errors that end the sequence. -/
abbrev Statements (σ ε α : Type) := ExceptT ε (StateM σ) α

namespace Statements

variable {σ ε α β : Type}

theorem run_bind (s : Statements σ ε α) (k : α → Statements σ ε β) (w : σ) :
    (s >>= k) w =
      match s w with
      | (.ok a, after) => k a after
      | (.error e, after) => (.error e, after) := by
  change (ExceptT.bindCont k (s w).1) (s w).2 = _
  obtain ⟨result, after⟩ := s w
  cases result with
  | ok a => rfl
  | error e => rfl

/-- A statement that only reads. -/
def query (f : σ → Except ε α) : Statements σ ε α := fun w => (f w, w)

end Statements

/-! ## Isolation -/

section Isolation

variable {σ ε α β υ : Type} (R : σ → σ → Prop) (others : σ → υ)

/-- From states that are related by `R`, and by `P` at this point of the sequence: the same
result, states that are related by `R`, and by `Q` where there is a result; and `others` stays
as it is. -/
def Isolated (P : σ → σ → Prop) (s : Statements σ ε α) (Q : α → σ → σ → Prop) : Prop :=
  ∀ w w', R w w' → P w w' →
    (s w).1 = (s w').1 ∧ R (s w).2 (s w').2 ∧ others (s w).2 = others w ∧
      ∀ a, (s w).1 = .ok a → Q a (s w).2 (s w').2

namespace Isolated

variable {R : σ → σ → Prop} {others : σ → υ} {P : σ → σ → Prop} {Q : α → σ → σ → Prop}
  {s : Statements σ ε α}

protected theorem pure (a : α) : Isolated R others P (pure a : Statements σ ε α) fun _ => P :=
  fun _ _ hR hP => ⟨rfl, hR, rfl, fun _ _ => hP⟩

protected theorem throw (e : ε) : Isolated R others P (throw e : Statements σ ε α) Q :=
  fun _ _ hR _ => ⟨rfl, hR, rfl, nofun⟩

/-- What a query finds is known afterwards, on both sides. -/
protected theorem query {f : σ → Except ε α} (h : ∀ w w', R w w' → P w w' → f w = f w') :
    Isolated R others P (Statements.query f) fun a w w' => P w w' ∧ f w = .ok a ∧ f w' = .ok a :=
  fun w w' hR hP => ⟨h w w' hR hP, hR, rfl, fun _ ha => ⟨hP, ha, (h w w' hR hP).symm.trans ha⟩⟩

protected theorem bind {k : α → Statements σ ε β} {S : β → σ → σ → Prop}
    (hs : Isolated R others P s Q)
    (hk : ∀ a, Isolated R others (Q a) (k a) S) : Isolated R others P (s >>= k) S := by
  intro w w' hR hP
  obtain ⟨hresult, hR', hothers, hQ⟩ := hs w w' hR hP
  rw [Statements.run_bind, Statements.run_bind]
  generalize s w = x at *
  generalize s w' = y at *
  obtain ⟨result, after⟩ := x
  obtain ⟨result', after'⟩ := y
  obtain rfl : result = result' := hresult
  cases result with
  | error e => exact ⟨rfl, hR', hothers, nofun⟩
  | ok a =>
    obtain ⟨hresult, hR'', hothers', hS⟩ := hk a after after' hR' (hQ a rfl)
    exact ⟨hresult, hR'', hothers'.trans hothers, hS⟩

/-- A check that throws. -/
theorem guard {c : Prop} [Decidable c] {e : ε} {k : PUnit → Statements σ ε α}
    (hk : Isolated R others P (k ⟨⟩) Q) :
    Isolated R others P (if c then throw e >>= k else k ⟨⟩) Q := by
  split
  · exact fun w w' hR _ => ⟨rfl, hR, rfl, nofun⟩
  · exact hk

/-- Less may be known afterwards, and more before. -/
theorem imp {P' : σ → σ → Prop} {Q' : α → σ → σ → Prop} (hs : Isolated R others P s Q)
    (hP : ∀ w w', P' w w' → P w w') (hQ : ∀ a w w', Q a w w' → Q' a w w') :
    Isolated R others P' s Q' := by
  intro w w' hR hP'
  obtain ⟨hresult, hR', hothers, hpost⟩ := hs w w' hR (hP w w' hP')
  exact ⟨hresult, hR', hothers, fun a ha => hQ a _ _ (hpost a ha)⟩

theorem ite {t : Statements σ ε α} {c : Prop} [Decidable c] (hs : Isolated R others P s Q)
    (ht : Isolated R others P t Q) : Isolated R others P (if c then s else t) Q := by
  split
  · exact hs
  · exact ht

end Isolated

/-- **Isolation of runs**: where each call is isolated, two runs of the same calls have the same
results and end in related states. -/
theorem isolated_run {γ : Type} (T : Lts σ γ) {R : σ → σ → Prop} {result : σ → γ → List β}
    (hstep : ∀ s t a s' t', R s t → T.step s a = some s' → T.step t a = some t' →
      result s a = result t a ∧ R s' t')
    {s t u v : σ} {as : List γ} (hR : R s t) (hs : T.run s as = some u)
    (ht : T.run t as = some v) : T.outputs result s as = T.outputs result t as ∧ R u v := by
  induction as generalizing s t with
  | nil =>
    cases hs
    cases ht
    exact ⟨rfl, hR⟩
  | cons a as ih =>
    obtain ⟨s', hs, hs'⟩ := T.run_cons.mp hs
    obtain ⟨t', ht, ht'⟩ := T.run_cons.mp ht
    obtain ⟨hresult, hR'⟩ := hstep s t a s' t' hR hs ht
    obtain ⟨houtputs, hlast⟩ := ih hR' hs' ht'
    refine ⟨?_, hlast⟩
    simp only [Lts.outputs, hs, ht, hresult, houtputs]

end Isolation

/-! ## Rows of one owner -/

section Rows

variable {ρ : Type} {own own' : ρ → Bool} {rows rows' : List ρ}

/-- A query that asks for rows of the owner only finds the same rows. -/
theorem filter_perm (h : (rows.filter own).Perm (rows'.filter own')) {q : ρ → Bool}
    (hq : ∀ r ∈ rows, q r = true → own r = true) (hq' : ∀ r ∈ rows', q r = true → own' r = true) :
    (rows.filter q).Perm (rows'.filter q) := by
  have hnarrow {rows : List ρ} {own : ρ → Bool} (hq : ∀ r ∈ rows, q r = true → own r = true) :
      (rows.filter own).filter q = rows.filter q := by
    rw [List.filter_filter]
    refine List.filter_congr fun r hr => ?_
    by_cases hqr : q r = true
    · rw [hqr, hq r hr hqr, Bool.and_self]
    · rw [Bool.eq_false_iff.mpr hqr, Bool.false_and]
  rw [← hnarrow hq, ← hnarrow hq']
  exact h.filter q

theorem any_eq_of_perm (h : (rows.filter own).Perm (rows'.filter own')) {q : ρ → Bool}
    (hq : ∀ r ∈ rows, q r = true → own r = true) (hq' : ∀ r ∈ rows', q r = true → own' r = true) :
    rows.any q = rows'.any q := by
  rw [Bool.eq_iff_iff, List.any_eq_true, List.any_eq_true]
  refine exists_congr fun r => ?_
  rw [← List.mem_filter, ← List.mem_filter]
  exact (filter_perm h hq hq').mem_iff

/-- A query for one row. -/
theorem find?_eq_of_perm (h : (rows.filter own).Perm (rows'.filter own')) {q : ρ → Bool}
    (hq : ∀ r ∈ rows, q r = true → own r = true) (hq' : ∀ r ∈ rows', q r = true → own' r = true)
    (hone : ∀ a ∈ rows', ∀ b ∈ rows', q a = true → q b = true → a = b) :
    rows.find? q = rows'.find? q := by
  have hmem (r : ρ) : r ∈ rows ∧ q r = true ↔ r ∈ rows' ∧ q r = true := by
    rw [← List.mem_filter, ← List.mem_filter]
    exact (filter_perm h hq hq').mem_iff
  cases hfind : rows.find? q with
  | none =>
    symm
    rw [List.find?_eq_none] at hfind ⊢
    intro r hr hqr
    exact hfind r ((hmem r).mpr ⟨hr, hqr⟩).1 hqr
  | some a =>
    have ha := (hmem a).mp ⟨List.mem_of_find?_eq_some hfind, List.find?_some hfind⟩
    cases hfind' : rows'.find? q with
    | none => exact absurd ha.2 (List.find?_eq_none.mp hfind' a ha.1)
    | some b =>
      rw [hone a ha.1 b (List.mem_of_find?_eq_some hfind') ha.2 (List.find?_some hfind')]

/-- Rows in an order that tells any two of them apart. -/
theorem sort_eq_of_perm {r : ρ → ρ → Prop} [DecidableRel r] [Std.Total r] [IsTrans ρ r]
    (hanti : ∀ a ∈ rows, ∀ b ∈ rows, r a b → r b a → a = b) (h : rows.Perm rows') :
    rows.insertionSort r = rows'.insertionSort r := by
  have hperm : (rows.insertionSort r).Perm (rows'.insertionSort r) :=
    ((List.perm_insertionSort r rows).trans h).trans (List.perm_insertionSort r rows').symm
  refine hperm.eq_of_pairwise (fun a b ha hb hab hba => ?_) (List.pairwise_insertionSort r rows)
    (List.pairwise_insertionSort r rows')
  have hb' : b ∈ rows := (h.mem_iff).mpr ((List.mem_insertionSort r).mp hb)
  exact hanti a ((List.mem_insertionSort r).mp ha) b hb' hab hba

/-- An `UPDATE` of rows of the owner, for the owner. -/
theorem filter_map_own {f : ρ → ρ} (hown : ∀ r ∈ rows, own (f r) = own r) :
    (rows.map f).filter own = (rows.filter own).map f := by
  rw [List.filter_map]
  congr 1
  exact List.filter_congr hown

/-- It leaves the rows of others alone. -/
theorem filter_map_others {f : ρ → ρ} (hown : ∀ r ∈ rows, own (f r) = own r)
    (hothers : ∀ r ∈ rows, own r = false → f r = r) :
    (rows.map f).filter (!own ·) = rows.filter (!own ·) := by
  rw [List.filter_map, List.filter_congr fun r hr => by rw [Function.comp_apply, hown r hr]]
  conv_rhs => rw [← List.map_id (rows.filter (!own ·))]
  refine List.map_congr_left fun r hr => ?_
  rw [List.mem_filter, Bool.not_eq_true'] at hr
  exact hothers r hr.1 hr.2

end Rows

section Tables

variable {ρ : Type} [Keyed ρ] {own own' p : ρ → Bool} {f : ρ → ρ}
  (hf : ∀ r, Keyed.key (f r) = Keyed.key r) {t t' : Table ρ}

/-- A query for a row of the owner by its key. -/
theorem found_eq (h : (t.rows.filter own).Perm (t'.rows.filter own')) {q : ρ → Bool}
    (hq : ∀ r, q r = true → own r = true) (hq' : ∀ r, q r = true → own' r = true)
    (hone : ∀ a b, q a = true → q b = true → Keyed.Conflict a b) : t.find? q = t'.find? q :=
  find?_eq_of_perm h (fun r _ => hq r) (fun r _ => hq' r) fun a ha b hb hqa hqb =>
    Table.eq_of_conflict ha hb (hone a b hqa hqb)

/-- An `UPDATE` that leaves the columns of a condition alone. -/
theorem any_modify {q : ρ → Bool} (hq : ∀ r, q (f r) = q r) :
    (t.modify p f hf).rows.any q = t.rows.any q := by
  rw [Table.modify, List.any_map]
  refine List.any_congr rfl fun r => ?_
  rw [Function.comp_apply]
  split
  · exact hq r
  · rfl

/-- An `UPDATE` that no row changes its owner by. -/
theorem own_modify (h : (t.rows.filter own).Perm (t'.rows.filter own'))
    (hown : ∀ r, own (f r) = own r) (hown' : ∀ r, own' (f r) = own' r) :
    ((t.modify p f hf).rows.filter own).Perm ((t'.modify p f hf).rows.filter own') := by
  have hkeeps {own : ρ → Bool} (hown : ∀ r, own (f r) = own r) (r : ρ) :
      own (if p r then f r else r) = own r := by
    split
    · exact hown r
    · rfl
  rw [Table.modify, Table.modify, filter_map_own fun r _ => hkeeps hown r,
    filter_map_own fun r _ => hkeeps hown' r]
  exact h.map _

theorem others_modify (hown : ∀ r, own (f r) = own r) (hp : ∀ r ∈ t, p r = true → own r = true) :
    (t.modify p f hf).rows.filter (!own ·) = t.rows.filter (!own ·) := by
  rw [Table.modify]
  refine filter_map_others (fun r _ => ?_) fun r hr hother => ?_
  · split
    · exact hown r
    · rfl
  · rw [if_neg]
    intro hpr
    rw [hp r hr hpr] at hother
    cases hother

theorem own_delete (h : (t.rows.filter own).Perm (t'.rows.filter own)) :
    ((t.delete p).rows.filter own).Perm ((t'.delete p).rows.filter own) := by
  rw [Table.delete, Table.delete, List.filter_comm, List.filter_comm (l := t'.rows)]
  exact h.filter _

theorem others_delete (hp : ∀ r ∈ t, p r = true → own r = true) :
    (t.delete p).rows.filter (!own ·) = t.rows.filter (!own ·) := by
  rw [Table.delete, List.filter_filter]
  refine List.filter_congr fun r hr => ?_
  cases hother : own r with
  | true => rfl
  | false =>
    have hpr : p r = false := by
      refine Bool.eq_false_iff.mpr fun hpr => ?_
      rw [hp r hr hpr] at hother
      cases hother
    rw [hpr]
    rfl

end Tables

end Stargate.Base
