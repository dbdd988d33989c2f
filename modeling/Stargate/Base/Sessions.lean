import Stargate.Base.Transition
import Mathlib.Data.List.FinRange

/-!
# Sessions on a shared store

A `Program` is what a caller runs against a store, one statement at a time.
`interleave n` runs `n` callers of it side by side, in any order, next to an
environment that may change the store as well.

A statement sees the store, its own session and the other sessions; the latter
only for what the store keeps on their behalf, such as row locks and rows that
are not committed yet.

`Local` is the rule of Owicki and Gries: an invariant of the store, an assertion
about each session and a relation between any two of them hold in every run if
each statement keeps its own assertion (`seq`) and leaves those of others alone
(`free`).
-/

namespace Stargate.Base

universe u

/-- What callers run against a store: `δ` is the store, `γ` where a session
stands, `ι` what a statement is given from outside, `ε` what else may happen to
the store. -/
structure Program (δ γ ι ε : Type u) where
  /-- The next statement of a session, beside the others; `none` where it waits. -/
  exec : List γ → ι → δ → γ → Option (δ × γ)
  /-- A step of the environment. -/
  env : ε → δ → Option δ

namespace Program

variable {δ γ ι ε : Type u} {n : Nat}

/-- The store and where every session stands. -/
structure Sys (δ γ : Type u) (n : Nat) where
  db : δ
  calls : Fin n → γ

/-- Who moves. -/
inductive Label (ι ε : Type u) (n : Nat) where
  | call (k : Fin n) (i : ι)
  | env (e : ε)

/-- The sessions beside `k`. -/
def Sys.others (s : Sys δ γ n) (k : Fin n) : List γ :=
  ((List.finRange n).filter fun j => j != k).map s.calls

/-- All sessions. -/
def Sys.all (s : Sys δ γ n) : List γ := (List.finRange n).map s.calls

theorem Sys.mem_others {s : Sys δ γ n} {k : Fin n} {c : γ} :
    c ∈ s.others k ↔ ∃ j, j ≠ k ∧ s.calls j = c := by
  simp [others]

/-- A session does not see itself move. -/
@[simp] theorem Sys.others_update {s : Sys δ γ n} {k : Fin n} {db : δ} {c : γ} :
    Sys.others { db, calls := Function.update s.calls k c } k = s.others k := by
  refine List.map_congr_left fun j hj => Function.update_of_ne ?_ _ _
  simpa using hj

theorem Sys.mem_all {s : Sys δ γ n} {c : γ} : c ∈ s.all ↔ ∃ j, s.calls j = c := by
  simp [all]

/-- A session and the others are all of them. -/
theorem Sys.perm_all (s : Sys δ γ n) (k : Fin n) : s.all.Perm (s.calls k :: s.others k) := by
  have hfilter : (List.finRange n).erase k = (List.finRange n).filter fun j => j != k :=
    (List.nodup_finRange n).erase_eq_filter k
  rw [all, others, ← hfilter]
  exact (List.perm_cons_erase (List.mem_finRange k)).map s.calls

variable (P : Program δ γ ι ε)

/-- The interleavings of `n` sessions and the environment. -/
def interleave (n : Nat) : Lts (Sys δ γ n) (Label ι ε n) where
  step s
    | .call k i =>
      (P.exec (s.others k) i s.db (s.calls k)).map fun (db, c) =>
        { db, calls := Function.update s.calls k c }
    | .env e => (P.env e s.db).map fun db => { s with db }

theorem step_call {s s' : Sys δ γ n} {k : Fin n} {i : ι} :
    (P.interleave n).step s (.call k i) = some s' ↔
      ∃ db c, P.exec (s.others k) i s.db (s.calls k) = some (db, c) ∧
        s' = { db, calls := Function.update s.calls k c } := by
  simp only [interleave, Option.map_eq_some_iff, Prod.exists, eq_comm (b := s')]

theorem step_env {s s' : Sys δ γ n} {e : ε} :
    (P.interleave n).step s (.env e) = some s' ↔
      ∃ db, P.env e s.db = some db ∧ s' = { s with db } := by
  simp only [interleave, Option.map_eq_some_iff, eq_comm (b := s')]

/-! ## Guards -/

/-- A condition on the statements and on the environment, in the terms that they
see. -/
structure Guard (δ γ ι ε : Type u) where
  call : List γ → ι → δ → γ → Prop
  env : List γ → ε → δ → Prop

/-- The guard of the interleaving. -/
def Guard.admits (g : Guard δ γ ι ε) (s : Sys δ γ n) : Label ι ε n → Prop
  | .call k i => g.call (s.others k) i s.db (s.calls k)
  | .env e => g.env s.all e s.db

/-- The guard that admits every step. -/
def Guard.free : Guard δ γ ι ε where
  call _ _ _ _ := True
  env _ _ _ := True

instance Guard.decidableAdmits (g : Guard δ γ ι ε) [∀ cs i db c, Decidable (g.call cs i db c)]
    [∀ cs e db, Decidable (g.env cs e db)] (s : Sys δ γ n) :
    ∀ a : Label ι ε n, Decidable (g.admits s a)
  | .call _ _ => inferInstanceAs (Decidable (g.call _ _ _ _))
  | .env _ => inferInstanceAs (Decidable (g.env _ _ _))

/-! ## Local invariants -/

section

variable {P} {D : δ → Prop} {Q : δ → γ → Prop} {R : γ → γ → Prop} {g : Guard δ γ ι ε}

/-- The store, every session, and any two of them. -/
structure Inv (D : δ → Prop) (Q : δ → γ → Prop) (R : γ → γ → Prop) (s : Sys δ γ n) : Prop where
  db : D s.db
  calls : ∀ k, Q s.db (s.calls k)
  apart : ∀ j k, j ≠ k → R (s.calls j) (s.calls k)

/-- Each statement keeps its own assertion and leaves those of others alone. -/
structure Local (P : Program δ γ ι ε) (g : Guard δ γ ι ε) (D : δ → Prop) (Q : δ → γ → Prop)
    (R : γ → γ → Prop) : Prop where
  symm : ∀ a b, R a b → R b a
  seq : ∀ {cs i db c db' c'}, P.exec cs i db c = some (db', c') → g.call cs i db c →
    D db → Q db c → (∀ o ∈ cs, Q db o ∧ R c o) → D db' ∧ Q db' c'
  free : ∀ {cs i db c db' c'}, P.exec cs i db c = some (db', c') → g.call cs i db c →
    D db → Q db c → ∀ o ∈ cs, Q db o → R c o → Q db' o ∧ R c' o
  env : ∀ {cs e db db'}, P.env e db = some db' → g.env cs e db → D db → (∀ o ∈ cs, Q db o) →
    D db' ∧ ∀ o ∈ cs, Q db' o

/-- **A step keeps what is locally invariant.** -/
theorem Local.inv_step (hl : Local P g D Q R) {s s' : Sys δ γ n} {a : Label ι ε n}
    (h : Inv D Q R s) (hg : g.admits s a) (hstep : (P.interleave n).step s a = some s') :
    Inv D Q R s' := by
  cases a with
  | call k i =>
    obtain ⟨db, c, hexec, rfl⟩ := P.step_call.mp hstep
    have hcs : ∀ o ∈ s.others k, Q s.db o ∧ R (s.calls k) o := fun o ho => by
      obtain ⟨j, hj, rfl⟩ := Sys.mem_others.mp ho
      exact ⟨h.calls j, h.apart k j hj.symm⟩
    obtain ⟨hdb, hc⟩ := hl.seq hexec hg h.db (h.calls k) hcs
    have hothers : ∀ j, j ≠ k → Q db (s.calls j) ∧ R c (s.calls j) := fun j hj =>
      hl.free hexec hg h.db (h.calls k) _ (Sys.mem_others.mpr ⟨j, hj, rfl⟩) (h.calls j)
        (h.apart k j hj.symm)
    exact ⟨hdb, forall_update (P := fun _ c => Q db c) hc fun j hj => (hothers j hj).1,
      pairwise_update hl.symm h.apart fun j hj => (hothers j hj).2⟩
  | env e =>
    obtain ⟨db, henv, rfl⟩ := P.step_env.mp hstep
    obtain ⟨hdb, hcs⟩ := hl.env henv hg h.db fun o ho => by
      obtain ⟨j, rfl⟩ := Sys.mem_all.mp ho
      exact h.calls j
    exact ⟨hdb, fun k => hcs _ (Sys.mem_all.mpr ⟨k, rfl⟩), h.apart⟩

/-- **The rule of Owicki and Gries**: what is locally invariant holds in every
state of every guarded run. -/
theorem Local.inv_of_guarded_run (hl : Local P g D Q R) {s t : Sys δ γ n}
    {as : List (Label ι ε n)} (h : Inv D Q R s) (hg : (P.interleave n).Guarded g.admits s as)
    (hrun : (P.interleave n).run s as = some t) : Inv D Q R t :=
  (P.interleave n).inv_of_guarded_run (fun _ _ _ => hl.inv_step) h hg hrun

theorem Local.inv_of_run (hl : Local P .free D Q R) {s t : Sys δ γ n}
    {as : List (Label ι ε n)} (h : Inv D Q R s) (hrun : (P.interleave n).run s as = some t) :
    Inv D Q R t := by
  refine (P.interleave n).inv_of_run (fun s a s' hs => hl.inv_step hs ?_) h hrun
  cases a with
  | call k i => trivial
  | env e => trivial

end

end Program

end Stargate.Base
