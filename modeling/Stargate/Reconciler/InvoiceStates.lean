import Stargate.Invoices.Bookkeeping
import Stargate.Reconciler.InvoiceRows

/-!
# The life cycle of an invoice

An active invoice (`pending`, `partial`) may become anything but pending; a paid,
expired or cancelled one stays what it is. `paid_at` is set together with
`status = 'paid'` and never changes after that. This holds of any interleaving of
the five writers, statement by statement.

- `Moves`: what may happen to an invoice between two states of a run;
- `lifecycle_of_run`: nothing else does.
-/

namespace Stargate.Reconciler

open Base Invoices

/-- The row is one that `InvoicesService.create` stores. -/
def Created (r : Invoice) : Prop :=
  ∃ env now id db merchantId input key, Creates env now id db merchantId input key r

/-- `paid_at` is set exactly where the invoice is paid. -/
def PaidAtSet (i : Invoice) : Prop := i.paidAt ≠ none ↔ i.status = .paid

/-- How an invoice may have changed: to any status but pending while it is active,
and not at all in status and time of payment after that. -/
structure Moves (i i' : Invoice) : Prop where
  id_eq : i'.id = i.id
  status : i'.status = i.status ∨ (i.status.active = true ∧ i'.status ≠ .pending)
  paidAt : i.paidAt ≠ none → i'.paidAt = i.paidAt

theorem Moves.refl (i : Invoice) : Moves i i := ⟨rfl, .inl rfl, fun _ => rfl⟩

theorem Moves.trans {i j k : Invoice} (h : Moves i j) (h' : Moves j k) : Moves i k where
  id_eq := h'.id_eq.trans h.id_eq
  status := by
    rcases h.status with heq | ⟨hactive, hne⟩
    · rw [← heq]
      exact h'.status
    · refine .inr ⟨hactive, ?_⟩
      rcases h'.status with heq' | ⟨-, hne'⟩
      · rwa [heq']
      · exact hne'
  paidAt := fun hset => by
    have heq := h.paidAt hset
    exact (h'.paidAt (heq ▸ hset)).trans heq

/-- A paid, expired or cancelled invoice stays as it is. -/
theorem Moves.final {i i' : Invoice} (h : Moves i i') (hfinal : i.status.active = false) :
    i'.status = i.status := by
  rcases h.status with heq | ⟨hactive, -⟩
  · exact heq
  · rw [hfinal] at hactive
    cases hactive

theorem paidAtSet_of_created {r : Invoice} (h : Created r) : PaidAtSet r := by
  obtain ⟨env, now, id, db, merchantId, input, key, hcreates⟩ := h
  have hunpaid := unpaid_of_creates hcreates
  rw [PaidAtSet, hunpaid.paidAt, hunpaid.pending]
  decide

section Runs

variable {A : String → Prop} {i i' : Invoice}

/-- An active invoice has no time of payment. -/
theorem PaidAtSet.of_active (h : PaidAtSet i) (hactive : i.status.active = true) :
    i.paidAt = none := by
  by_contra hne
  rw [h.mp hne] at hactive
  cases hactive

theorem RowStep.paidAtSet (h : RowStep A i i') (hi : PaidAtSet i) : PaidAtSet i' := by
  cases h with
  | same => exact hi
  | credited hpending c => simp [PaidAtSet, Credit.markPaid]
  | closed hactive hs =>
    rw [PaidAtSet, hi.of_active hactive]
    rcases hs with rfl | rfl <;> simp
  | applied hactive hA hremaining hrow =>
    obtain ⟨-, paid, -, rfl⟩ := partialRow_eq_some_iff.mp hrow
    simp [PaidAtSet]

/-- **What one transaction does to a row is a move.** -/
theorem RowStep.moves (h : RowStep A i i') (hi : PaidAtSet i) : Moves i i' := by
  have hid := h.id_eq
  have hnone : i.status.active = true → i.paidAt ≠ none → i'.paidAt = i.paidAt :=
    fun hactive hset => absurd (hi.of_active hactive) hset
  cases h with
  | same => exact .refl i
  | credited hpending c =>
    have hactive : i.status.active = true := by
      rw [hpending]
      decide
    exact ⟨hid, .inr ⟨hactive, by simp [Credit.markPaid]⟩, hnone hactive⟩
  | closed hactive hs =>
    refine ⟨hid, .inr ⟨hactive, ?_⟩, fun _ => rfl⟩
    rcases hs with rfl | rfl <;> simp
  | applied hactive hA hremaining hrow =>
    refine ⟨hid, .inr ⟨hactive, ?_⟩, hnone hactive⟩
    rw [(partialRow_some hrow).2]
    decide

/-- **The life cycle of an invoice.** In every run, from a state in which `paid_at`
is set exactly where an invoice is paid: this holds in every state, and between any
two states of the run every invoice has only moved forward. -/
theorem lifecycle_of_run {n m : Nat} {env : Env} {s u t : Sys n m} {before after : List (Label n m)}
    (hidle : s.Idle) (hstart : ∀ i ∈ s.world.db.invoices, i.paidAt ≠ none ↔ i.status = .paid)
    (hcreate : ∀ r, .create r ∈ before ++ after → Created r)
    (hbefore : (system env n m).run s before = some u)
    (hafter : (system env n m).run u after = some t) :
    (∀ i ∈ t.world.db.invoices, i.paidAt ≠ none ↔ i.status = .paid) ∧
      ∀ i ∈ u.world.db.invoices, ∃ i' ∈ t.world.db.invoices, Moves i i' := by
  have hguard : (system env n m).Guarded (Admits (fun _ => True) Created) s (before ++ after) :=
    (system env n m).guarded_of_forall fun _ a ha =>
      admits_of_forall fun r hr => hcreate r (hr ▸ ha)
  obtain ⟨hguard₁, hguard₂⟩ := ((system env n m).guarded_append hbefore).mp hguard
  have hu := forall_rows_of_run (P := PaidAtSet) (C := Created) (fun _ => paidAtSet_of_created)
    (fun _ _ hi hstep => hstep.paidAtSet hi) hidle hstart hguard₁ hbefore
  -- from `u` on, what was stored there only moves
  have hinit : RowInv (fun _ => True) PaidAtSet Moves u.world.db.invoices.rows u :=
    ⟨hu.sound, hu.rows, hu.all, fun i hi => ⟨i, hi, .refl i⟩⟩
  have ht := (system env n m).inv_of_guarded_run
    (fun _ _ _ => rowInv_step (C := Created) (R := Moves) (fun _ => paidAtSet_of_created)
      (fun _ _ hi hstep => hstep.paidAtSet hi)
      fun _ _ _ hmoves hi hstep => Moves.trans hmoves (hstep.moves hi))
    hinit hguard₂ hafter
  exact ⟨ht.all, ht.since⟩

end Runs

/-- A call on the invoice, and a cancellation that comes too late. -/
theorem lifecycle_of_run_late_cancel :
    ∃ u t, (system testEnv 1 1).run onePending
        (.deliver 0 (fullPayment "token_happy_001") :: execs 11) = some u ∧
      (system testEnv 1 1).run u (execs 2 ++ [.cancel 1 1]) = some t ∧
      (∀ i ∈ t.world.db.invoices, i.paidAt ≠ none ↔ i.status = .paid) ∧
      ∀ i ∈ u.world.db.invoices, ∃ i' ∈ t.world.db.invoices, Moves i i' := by
  obtain ⟨t, ht, -⟩ := (system testEnv 1 1).exists_of_leadsTo (fun _ => True) onePending
    ((.deliver 0 (fullPayment "token_happy_001") :: execs 11) ++ (execs 2 ++ [.cancel 1 1]))
    (by decide +kernel)
  obtain ⟨u, hu, hut⟩ := (system testEnv 1 1).run_append.mp ht
  refine ⟨u, t, hu, hut, lifecycle_of_run ⟨fun _ => rfl, fun _ => rfl⟩ ?_ ?_ hu hut⟩
  · intro i hi
    rw [List.mem_singleton.mp hi]
    decide
  · intro r hr
    simp [execs] at hr

end Stargate.Reconciler
