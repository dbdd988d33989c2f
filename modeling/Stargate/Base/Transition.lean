import Mathlib.Algebra.GroupWithZero.Nat
import Mathlib.Data.Option.Basic
import Mathlib.Logic.Function.Basic
import Mathlib.Logic.Relation

/-!
# Labelled transition systems with an executable step

A system is given by its step function alone: `step s a` is the state after
the label `a`, or `none` where `a` is not enabled in `s`. Runs are lists of
labels, so a property of every run is a property of every list, and a run on
fixed labels can be evaluated.

- `run`: the state a list of labels leads to;
- `Guarded ok`: every step of the run meets the condition `ok` in the state it
  is taken from. Results that hold only for disciplined runs are stated with it;
- `inv_of_guarded_run`, `inv_of_run`: what one step preserves, a run preserves;
- `guarded_iff`: the guard that is exact for a property;
- `run_purge`: two runs that differ in extra steps;
- `outputs`: what the steps of a run yield, in order. `inv_of_guarded_history` is the rule
  for invariants that speak of it, and `concat_eq_append_cons` says where a label of it stands;
- `Once`, `Did`: what a run has passed and done;
- `forall_update`, `pairwise_update`: of several parties, one moves.
-/

namespace Stargate.Base

universe u v

/-- A labelled transition system. -/
structure Lts (σ : Type u) (α : Type v) where
  /-- The state after a label, or `none` where the label is not enabled. -/
  step : σ → α → Option σ

namespace Lts

variable {σ : Type u} {α : Type v} (T : Lts σ α) {ok : σ → α → Prop}

/-- The state a list of labels leads to, if every label is enabled in turn. -/
def run : σ → List α → Option σ
  | s, [] => some s
  | s, a :: as => (T.step s a).bind fun s' => run s' as

/-- Every step of the run meets `ok` in the state it is taken from. -/
def Guarded (ok : σ → α → Prop) : σ → List α → Prop
  | _, [] => True
  | s, a :: as => ok s a ∧ match T.step s a with
    | some s' => Guarded ok s' as
    | none => True

/-- Guards over decidable conditions can be checked by evaluation. -/
instance decidableGuarded [h : ∀ s a, Decidable (ok s a)] :
    ∀ s as, Decidable (T.Guarded ok s as)
  | _, [] => isTrue trivial
  | s, a :: as =>
    match hs : T.step s a with
    | some s' =>
      have : Decidable (T.Guarded ok s' as) := decidableGuarded s' as
      decidable_of_iff (ok s a ∧ T.Guarded ok s' as) (by simp [Guarded, hs])
    | none => decidable_of_iff (ok s a) (by simp [Guarded, hs])

@[simp] theorem run_nil (s : σ) : T.run s [] = some s := rfl

theorem run_cons {s t : σ} {a : α} {as : List α} :
    T.run s (a :: as) = some t ↔ ∃ s', T.step s a = some s' ∧ T.run s' as = some t := by
  simp [run, Option.bind_eq_some_iff]

theorem run_append {s t : σ} {as bs : List α} :
    T.run s (as ++ bs) = some t ↔ ∃ s', T.run s as = some s' ∧ T.run s' bs = some t := by
  induction as generalizing s with
  | nil => simp
  | cons a as ih =>
    rw [List.cons_append, run_cons]
    constructor
    · rintro ⟨s₁, h₁, h₂⟩
      obtain ⟨s₂, h₃, h₄⟩ := ih.mp h₂
      exact ⟨s₂, T.run_cons.mpr ⟨s₁, h₁, h₃⟩, h₄⟩
    · rintro ⟨s₂, h₁, h₂⟩
      obtain ⟨s₁, h₃, h₄⟩ := T.run_cons.mp h₁
      exact ⟨s₁, h₃, ih.mpr ⟨s₂, h₄, h₂⟩⟩

/-- Does the run lead to a state that meets `P`? -/
def leadsTo (P : σ → Prop) [DecidablePred P] (s : σ) (as : List α) : Bool :=
  match T.run s as with
  | some t => decide (P t)
  | none => false

/-- A run on fixed labels is checked by evaluation. -/
theorem exists_of_leadsTo (P : σ → Prop) [DecidablePred P] (s : σ) (as : List α)
    (h : T.leadsTo P s as = true) : ∃ t, T.run s as = some t ∧ P t := by
  unfold leadsTo at h
  split at h
  · next t ht => exact ⟨t, ht, of_decide_eq_true h⟩
  · cases h

theorem guarded_cons {s s' : σ} {a : α} {as : List α} (hs : T.step s a = some s') :
    T.Guarded ok s (a :: as) ↔ ok s a ∧ T.Guarded ok s' as := by
  simp [Guarded, hs]

/-- A guarded run is guarded on both sides of every state it passes. -/
theorem guarded_append {s u : σ} {as bs : List α} (hr : T.run s as = some u) :
    T.Guarded ok s (as ++ bs) ↔ T.Guarded ok s as ∧ T.Guarded ok u bs := by
  induction as generalizing s with
  | nil =>
    cases hr
    exact ⟨fun h => ⟨trivial, h⟩, fun h => h.2⟩
  | cons a as ih =>
    obtain ⟨s', hs, hr'⟩ := T.run_cons.mp hr
    rw [List.cons_append, T.guarded_cons hs, T.guarded_cons hs, ih hr', and_assoc]

/-- **The invariant rule for guarded runs**: what every step that meets the
guard preserves holds in the last state of every guarded run. -/
theorem inv_of_guarded_run {I : σ → Prop}
    (hstep : ∀ s a s', I s → ok s a → T.step s a = some s' → I s')
    {s t : σ} {as : List α} (h₀ : I s) (hg : T.Guarded ok s as)
    (hr : T.run s as = some t) : I t := by
  induction as generalizing s with
  | nil =>
    cases hr
    exact h₀
  | cons a as ih =>
    obtain ⟨s', hs, hr'⟩ := T.run_cons.mp hr
    obtain ⟨hok, hg'⟩ := (T.guarded_cons hs).mp hg
    exact ih (hstep s a s' h₀ hok hs) hg' hr'

/-- A guard on labels alone is a guard on each label of the run. -/
theorem guarded_of_forall {s : σ} {as : List α} (h : ∀ s, ∀ a ∈ as, ok s a) :
    T.Guarded ok s as := by
  induction as generalizing s with
  | nil => trivial
  | cons a as ih =>
    have hrest : ∀ s, ∀ b ∈ as, ok s b := fun s b hb => h s b (List.mem_cons_of_mem a hb)
    cases hs : T.step s a with
    | none => exact ⟨h s a List.mem_cons_self, by simp [hs]⟩
    | some s' => exact (T.guarded_cons hs).mpr ⟨h s a List.mem_cons_self, ih hrest⟩

theorem guarded_true (s : σ) (as : List α) : T.Guarded (fun _ _ => True) s as :=
  T.guarded_of_forall fun _ _ _ => trivial

/-- **The invariant rule**: what every step preserves holds in the last state
of every run. -/
theorem inv_of_run {I : σ → Prop}
    (hstep : ∀ s a s', I s → T.step s a = some s' → I s')
    {s t : σ} {as : List α} (h₀ : I s) (hr : T.run s as = some t) : I t :=
  T.inv_of_guarded_run (fun s a s' hI _ => hstep s a s' hI) h₀ (T.guarded_true s as) hr

/-- A weaker guard admits every run that a stronger one admits. -/
theorem Guarded.mono {ok' : σ → α → Prop} (himp : ∀ s a, ok s a → ok' s a)
    {s : σ} {as : List α} (hg : T.Guarded ok s as) : T.Guarded ok' s as := by
  induction as generalizing s with
  | nil => trivial
  | cons a as ih =>
    cases hs : T.step s a with
    | none => exact ⟨himp s a hg.1, by simp [hs]⟩
    | some s' =>
      obtain ⟨hok, hg'⟩ := (T.guarded_cons hs).mp hg
      exact (T.guarded_cons hs).mpr ⟨himp s a hok, ih hg'⟩

/-- What a guard admits under an invariant. -/
theorem Guarded.of_inv {ok' : σ → α → Prop} {I : σ → Prop}
    (hstep : ∀ s a s', I s → ok s a → T.step s a = some s' → I s')
    (himp : ∀ s a, I s → ok s a → ok' s a) {s : σ} {as : List α} (h₀ : I s)
    (hg : T.Guarded ok s as) : T.Guarded ok' s as := by
  induction as generalizing s with
  | nil => trivial
  | cons a as ih =>
    cases hs : T.step s a with
    | none => exact ⟨himp s a h₀ hg.1, by simp [hs]⟩
    | some s' =>
      obtain ⟨hok, hrest⟩ := (T.guarded_cons hs).mp hg
      exact (T.guarded_cons hs).mpr ⟨himp s a h₀ hok, ih (hstep s a s' h₀ hok hs) hrest⟩

theorem Guarded.and {ok' : σ → α → Prop} {s : σ} {as : List α} (hg : T.Guarded ok s as)
    (hg' : T.Guarded ok' s as) : T.Guarded (fun s a => ok s a ∧ ok' s a) s as := by
  induction as generalizing s with
  | nil => trivial
  | cons a as ih =>
    cases hs : T.step s a with
    | none => exact ⟨⟨hg.1, hg'.1⟩, by simp [hs]⟩
    | some s' =>
      obtain ⟨hok, hrest⟩ := (T.guarded_cons hs).mp hg
      obtain ⟨hok', hrest'⟩ := (T.guarded_cons hs).mp hg'
      exact (T.guarded_cons hs).mpr ⟨⟨hok, hok'⟩, ih hrest hrest'⟩

/-- **The rule for exact guards**: where a step that the guard does not admit is the only one
that leads to a state without `P`, and always does, the runs that it admits are those that
keep `P`. -/
theorem guarded_iff {I P : σ → Prop}
    (hstep : ∀ s a s', I s → ok s a → T.step s a = some s' → I s') (hP : ∀ s, I s → P s)
    (hbad : ∀ s a s', I s → ¬ ok s a → T.step s a = some s' → ¬ P s')
    {s t : σ} {as : List α} (h₀ : I s) (hr : T.run s as = some t) :
    T.Guarded ok s as ↔ ∀ bs cs u, as = bs ++ cs → T.run s bs = some u → P u := by
  constructor
  · rintro hg bs cs u rfl hu
    exact hP u (T.inv_of_guarded_run hstep h₀ ((T.guarded_append hu).mp hg).1 hu)
  · intro hkeeps
    induction as generalizing s with
    | nil => trivial
    | cons a as ih =>
      obtain ⟨s', hs, hr'⟩ := T.run_cons.mp hr
      have hok : ok s a := by
        by_contra hnot
        exact hbad s a s' h₀ hnot hs (hkeeps [a] as s' rfl (T.run_cons.mpr ⟨s', hs, rfl⟩))
      refine (T.guarded_cons hs).mpr ⟨hok, ih (hstep s a s' h₀ hok hs) hr' ?_⟩
      rintro bs cs u rfl hu
      exact hkeeps (a :: bs) cs u rfl (T.run_cons.mpr ⟨s', hs, hu⟩)

/-! ## Two runs -/

/-- **The unwinding rule**: where extra steps (on the right of the sum) leave nothing
behind that the other steps can see, a run with them and the run without them end in
related states. -/
theorem run_purge {α₁ α₂ : Type*} (T : Lts σ (α₁ ⊕ α₂)) {ok : σ → α₁ ⊕ α₂ → Prop}
    {R : σ → σ → Prop}
    (hcommon : ∀ s t a s', R s t → ok s (.inl a) → T.step s (.inl a) = some s' →
      ∃ t', T.step t (.inl a) = some t' ∧ R s' t')
    (hextra : ∀ s t b s', R s t → ok s (.inr b) → T.step s (.inr b) = some s' → R s' t)
    {s t s' : σ} {as : List (α₁ ⊕ α₂)} (hR : R s t) (hg : T.Guarded ok s as)
    (hr : T.run s as = some s') :
    ∃ t', T.run t (as.filter Sum.isLeft) = some t' ∧ R s' t' := by
  induction as generalizing s t with
  | nil =>
    cases hr
    exact ⟨t, rfl, hR⟩
  | cons a as ih =>
    obtain ⟨s₁, hs, hr'⟩ := T.run_cons.mp hr
    obtain ⟨hok, hg'⟩ := (T.guarded_cons hs).mp hg
    cases a with
    | inl a =>
      obtain ⟨t₁, ht, hR'⟩ := hcommon s t a s₁ hR hok hs
      obtain ⟨t', ht', hlast⟩ := ih hR' hg' hr'
      exact ⟨t', T.run_cons.mpr ⟨t₁, ht, ht'⟩, hlast⟩
    | inr b => exact ih (hextra s t b s₁ hR hok hs) hg' hr'

/-! ## Histories -/

/-- What the steps of a run yield, in order. -/
def outputs {β : Type*} (f : σ → α → List β) : σ → List α → List β
  | _, [] => []
  | s, a :: as => f s a ++ match T.step s a with
    | some s' => outputs f s' as
    | none => []

theorem outputs_append {β : Type*} {f : σ → α → List β} {s u : σ} {as bs : List α}
    (hr : T.run s as = some u) :
    T.outputs f s (as ++ bs) = T.outputs f s as ++ T.outputs f u bs := by
  induction as generalizing s with
  | nil =>
    cases hr
    rfl
  | cons a as ih =>
    obtain ⟨s', hs, hr'⟩ := T.run_cons.mp hr
    simp only [List.cons_append, outputs, hs, ih hr', List.append_assoc]

/-- What one more step adds. -/
theorem outputs_concat {β : Type*} {f : σ → α → List β} {s u : σ} {as : List α} (a : α)
    (hr : T.run s as = some u) : T.outputs f s (as ++ [a]) = T.outputs f s as ++ f u a := by
  rw [T.outputs_append hr]
  congr 1
  simp only [outputs]
  split <;> simp

/-- Steps that yield one thing at most. -/
theorem length_outputs_le {β : Type*} {f : σ → α → List β} (hf : ∀ s a, (f s a).length ≤ 1)
    (s : σ) (as : List α) : (T.outputs f s as).length ≤ as.length := by
  induction as generalizing s with
  | nil => exact Nat.le_refl 0
  | cons a as ih =>
    have hhead := hf s a
    rw [outputs, List.length_append, List.length_cons]
    split
    · next s' _ =>
      have := ih s'
      omega
    · rw [List.length_nil]
      omega

/-- **The invariant rule with history, for guarded runs**: `I` may speak of the run so far. -/
theorem inv_of_guarded_history {I : List α → σ → Prop} {s t : σ} {as : List α} (h₀ : I [] s)
    (hstep : ∀ done u a u', T.run s done = some u → I done u → ok u a → T.step u a = some u' →
      I (done ++ [a]) u')
    (hg : T.Guarded ok s as) (hr : T.run s as = some t) : I as t := by
  -- the run so far, and what is left of it
  suffices h : ∀ rest done u, T.run s done = some u → I done u → T.Guarded ok u rest →
      T.run u rest = some t → I (done ++ rest) t from h as [] s rfl h₀ hg hr
  intro rest
  induction rest with
  | nil =>
    intro done u _ hI _ hrest
    cases hrest
    rwa [List.append_nil]
  | cons a rest ih =>
    intro done u hdone hI hg hrest
    obtain ⟨u', hs, hrest'⟩ := T.run_cons.mp hrest
    obtain ⟨hok, hg'⟩ := (T.guarded_cons hs).mp hg
    have hrun : T.run s (done ++ [a]) = some u' :=
      T.run_append.mpr ⟨u, hdone, T.run_cons.mpr ⟨u', hs, rfl⟩⟩
    have := ih (done ++ [a]) u' hrun (hstep done u a u' hdone hI hok hs) hg' hrest'
    rwa [List.append_assoc, List.singleton_append] at this

/-- **The invariant rule with history.** -/
theorem inv_of_history {I : List α → σ → Prop} {s t : σ} {as : List α} (h₀ : I [] s)
    (hstep : ∀ done u a u', T.run s done = some u → I done u → T.step u a = some u' →
      I (done ++ [a]) u')
    (hr : T.run s as = some t) : I as t :=
  T.inv_of_guarded_history h₀ (fun done u a u' hdone hI _ => hstep done u a u' hdone hI)
    (T.guarded_true s as) hr

/-! ## The past of a run -/

/-- Some state that the run has passed, the last one included, meets `P`. -/
def Once (P : σ → Prop) (s : σ) (as : List α) : Prop :=
  ∃ before after u, as = before ++ after ∧ T.run s before = some u ∧ P u

/-- Some step of the run met `Q` in the state it was taken from. -/
def Did (Q : σ → α → Prop) (s : σ) (as : List α) : Prop :=
  ∃ before a after u, as = before ++ a :: after ∧ T.run s before = some u ∧ Q u a

theorem once_now {P : σ → Prop} {s t : σ} {as : List α} (hr : T.run s as = some t) (h : P t) :
    T.Once P s as := ⟨as, [], t, (List.append_nil as).symm, hr, h⟩

theorem Once.append {P : σ → Prop} {s : σ} {as : List α} (h : T.Once P s as) (bs : List α) :
    T.Once P s (as ++ bs) := by
  obtain ⟨before, after, u, rfl, hu, hP⟩ := h
  exact ⟨before, after ++ bs, u, List.append_assoc .., hu, hP⟩

theorem did_last {Q : σ → α → Prop} {s t : σ} {as : List α} {a : α} (hr : T.run s as = some t)
    (h : Q t a) : T.Did Q s (as ++ [a]) := ⟨as, a, [], t, rfl, hr, h⟩

theorem Did.append {Q : σ → α → Prop} {s : σ} {as : List α} (h : T.Did Q s as) (bs : List α) :
    T.Did Q s (as ++ bs) := by
  obtain ⟨before, a, after, u, rfl, hu, hQ⟩ := h
  exact ⟨before, a, after ++ bs, u, by rw [List.append_assoc, List.cons_append], hu, hQ⟩

end Lts

/-- A label of a history that has just grown: it is the new one, or it was there before. -/
theorem concat_eq_append_cons {α : Type v} {as pre post : List α} {a b : α}
    (h : as ++ [a] = pre ++ b :: post) :
    (pre = as ∧ b = a ∧ post = []) ∨ ∃ rest, post = rest ++ [a] ∧ as = pre ++ b :: rest := by
  rcases List.eq_nil_or_concat post with rfl | ⟨rest, c, rfl⟩
  · obtain ⟨hpre, hlast⟩ := List.append_inj' h rfl
    exact .inl ⟨hpre.symm, (List.singleton_inj.mp hlast).symm, rfl⟩
  · rw [List.concat_eq_append, ← List.cons_append, ← List.append_assoc] at h
    obtain ⟨has, hlast⟩ := List.append_inj' h rfl
    obtain rfl := List.singleton_inj.mp hlast
    exact .inr ⟨rest, List.concat_eq_append, has⟩

/-- What the last step did, or one before it. -/
theorem Lts.Did.of_concat {σ : Type u} {α : Type v} {T : Lts σ α} {Q : σ → α → Prop} {s t : σ}
    {as : List α} {a : α} (h : T.Did Q s (as ++ [a])) (hr : T.run s as = some t) :
    T.Did Q s as ∨ Q t a := by
  obtain ⟨before, b, after, u, heq, hu, hQ⟩ := h
  rcases concat_eq_append_cons heq with ⟨rfl, rfl, -⟩ | ⟨rest, -, rfl⟩
  · cases hr.symm.trans hu
    exact .inr hQ
  · exact .inl ⟨before, b, rest, u, rfl, hu, hQ⟩

/-! ## Parties

The parties of a system are numbered by `Fin n`. Runs on fixed labels name the parties of a
system of one or two by numerals. -/

instance oneParty : NeZero 1 := ⟨Nat.one_ne_zero⟩

instance twoParties : NeZero 2 := ⟨Nat.succ_ne_zero 1⟩

/-- One party moves, the others stay as they are. -/
theorem forall_update {ι : Type u} {σ : Type v} [DecidableEq ι] {P : ι → σ → Prop} {f : ι → σ}
    {k : ι} {x : σ} (hself : P k x) (hothers : ∀ i, i ≠ k → P i (f i)) :
    ∀ i, P i (Function.update f k x i) := by
  intro i
  by_cases hi : i = k
  · subst hi
    rw [Function.update_self]
    exact hself
  · rw [Function.update_of_ne hi]
    exact hothers i hi

/-- The party that moves is checked against the others, which are as they were. -/
theorem pairwise_update {ι : Type u} {σ : Type v} [DecidableEq ι] {R : σ → σ → Prop} {f : ι → σ}
    {k : ι} {x : σ} (hsymm : ∀ a b, R a b → R b a) (hf : ∀ i j, i ≠ j → R (f i) (f j))
    (hx : ∀ i, i ≠ k → R x (f i)) :
    ∀ i j, i ≠ j → R (Function.update f k x i) (Function.update f k x j) := by
  intro i j hij
  by_cases hi : i = k
  · subst hi
    rw [Function.update_self, Function.update_of_ne hij.symm]
    exact hx j hij.symm
  · by_cases hj : j = k
    · subst hj
      rw [Function.update_self, Function.update_of_ne hi]
      exact hsymm _ _ (hx i hi)
    · rw [Function.update_of_ne hi, Function.update_of_ne hj]
      exact hf i j hij

end Stargate.Base
