import Stargate.Reconciler.System

/-!
# What happens to the row of an invoice

Five writers change the invoices table. Between them they can do three things to
a stored row (`RowStep`): credit it while it is pending, close it while it is
active, or apply a partial payment to it while it is active. Two of them write by
id alone, under a lock that they took together with their guard; that the row
still meets the guard when they write is the invariant `RowsOk`.

- `rows_step`: every step of the system does one of these to each row, or adds a row;
- `forall_rows_of_run`: what holds of new rows and is kept by `RowStep` holds of
  every row in every state of a run.
-/

namespace Stargate.Reconciler

open Base Invoices

/-- How a transaction changes a stored invoice. `A` is what is known of the amounts
of the partial payments that are stored. -/
inductive RowStep (A : String → Prop) (i : Invoice) : Invoice → Prop
  | same : RowStep A i i
  | credited (hpending : i.status = .pending) (c : Credit) : RowStep A i (c.markPaid i)
  | closed (hactive : i.status.active = true) {s : InvoiceStatus}
      (hs : s = .expired ∨ s = .cancelled) : RowStep A i { i with status := s }
  | applied (hactive : i.status.active = true) {paidAmount : String} {remaining : Int}
      {now : Timestamp} {row : Invoice} (hA : A paidAmount)
      (hremaining : partialRemaining i paidAmount = .ok remaining)
      (hrow : partialRow i paidAmount remaining now = some row) : RowStep A i row

/-- What a transaction does to the invoices, where only rows that meet `may` change. -/
def RowsStep (A : String → Prop) (may : Invoice → Prop) (db db' : Db) : Prop :=
  ∃ f : Invoice → Invoice, db'.invoices.rows = db.invoices.rows.map f ∧
    ∀ i ∈ db.invoices, RowStep A i (f i) ∧ (f i = i ∨ may i)

/-- The row that a call has locked is pending. -/
def Phase.HoldsPending (db : Db) : Phase → Prop
  | .crediting c (some true) => ∃ i ∈ db.invoices, i.id = c.inv.id ∧ i.status = .pending
  | _ => True

/-- The row that a partial payment has locked is active and as it was read. -/
def HoldsRow (A : String → Prop) (db : Db) : ApiCall → Prop
  | .partialUpdate invoice paidAmount remaining _ => invoice ∈ db.invoices ∧
      invoice.status.active = true ∧ partialRemaining invoice paidAmount = .ok remaining
  | .partialCommit row => ∃ invoice ∈ db.invoices, ∃ paidAmount remaining now, A paidAmount ∧
      invoice.status.active = true ∧ partialRemaining invoice paidAmount = .ok remaining ∧
      partialRow invoice paidAmount remaining now = some row
  | _ => True

/-- The statement to come stores a partial payment only if its amount meets `A`. -/
def StoresOnly (A : String → Prop) : ApiCall → Prop
  | .partialUpdate invoice paidAmount remaining start =>
    (partialRow invoice paidAmount remaining start).isSome = true → A paidAmount
  | _ => True

instance (A : String → Prop) [DecidablePred A] :
    ∀ call : ApiCall, Decidable (StoresOnly A call)
  | .partialUpdate _ _ _ _ => inferInstanceAs (Decidable (_ → _))
  | .idle | .selectHooks _ | .insertDelivery _ _ _ | .partialSelect _ _ | .partialCommit _ =>
    isTrue trivial

section Statements

variable {A : String → Prop} {may may' : Invoice → Prop} {db db' : Db}

/-- The row of an `UPDATE` is the old one in all other columns. -/
theorem partialRow_eq {invoice row : Invoice} {paidAmount : String} {remaining : Int}
    {now : Timestamp} (h : partialRow invoice paidAmount remaining now = some row) :
    row = { invoice with
      amountPaidUsdc := row.amountPaidUsdc
      amountRemainingUsdc := row.amountRemainingUsdc
      status := row.status
      paidAt := row.paidAt } := by
  obtain ⟨-, paid, -, rfl⟩ := partialRow_eq_some_iff.mp h
  rfl

theorem RowStep.id_eq {i i' : Invoice} (h : RowStep A i i') : i'.id = i.id := by
  cases h with
  | same => rfl
  | credited => rfl
  | closed => rfl
  | applied _ _ _ hrow => exact (partialRow_some hrow).1

theorem RowsStep.of_eq (h : db'.invoices = db.invoices) : RowsStep A may db db' :=
  ⟨id, by rw [h, List.map_id], fun _ _ => ⟨.same, .inl rfl⟩⟩

theorem RowsStep.mono (h : RowsStep A may db db') (himp : ∀ i ∈ db.invoices, may i → may' i) :
    RowsStep A may' db db' := by
  obtain ⟨f, hrows, hf⟩ := h
  exact ⟨f, hrows, fun i hi => ⟨(hf i hi).1, (hf i hi).2.imp_right (himp i hi)⟩⟩

/-- An `UPDATE`, from what it does to the rows that it touches. -/
theorem rowsStep_modify {p : Invoice → Bool} {g : Invoice → Invoice}
    {hg : ∀ i, Keyed.key (g i) = Keyed.key i}
    (h : ∀ i ∈ db.invoices, p i = true → RowStep A i (g i) ∧ may i) :
    RowsStep A may db { db with invoices := db.invoices.modify p g hg } := by
  refine ⟨fun i => if p i then g i else i, rfl, fun i hi => ?_⟩
  by_cases hp : p i = true
  · simp only [hp, if_true]
    exact ⟨(h i hi hp).1, .inr (h i hi hp).2⟩
  · simp only [hp]
    exact ⟨.same, .inl rfl⟩

/-- Rows that do not change are still there. -/
theorem RowsStep.kept (h : RowsStep A may db db') {i : Invoice} (hi : i ∈ db.invoices)
    (hno : ¬ may i) : i ∈ db'.invoices := by
  obtain ⟨f, hrows, hf⟩ := h
  rw [← Table.mem_rows, hrows]
  exact List.mem_map.mpr ⟨i, hi, (hf i hi).2.resolve_right hno⟩

theorem Phase.HoldsPending.keep {ph : Phase} (h : ph.HoldsPending db)
    (hkeep : ∀ i ∈ db.invoices, ph.locks i.id = true → i ∈ db'.invoices) :
    ph.HoldsPending db' := by
  unfold Phase.HoldsPending at h ⊢
  split
  · obtain ⟨i, hi, hid, hp⟩ := h
    exact ⟨i, hkeep i hi (by simp [Phase.locks, hid]), hid, hp⟩
  · trivial

theorem HoldsRow.keep {call : ApiCall} (h : HoldsRow A db call)
    (hkeep : ∀ i ∈ db.invoices, call.locks i.id = true → i ∈ db'.invoices) :
    HoldsRow A db' call := by
  cases call with
  | partialUpdate invoice paidAmount remaining now =>
    obtain ⟨hi, hrest⟩ := h
    exact ⟨hkeep invoice hi (by simp [ApiCall.locks]), hrest⟩
  | partialCommit row =>
    obtain ⟨invoice, hi, paidAmount, remaining, now, hA, hactive, hremaining, hrow⟩ := h
    exact ⟨invoice, hkeep invoice hi (by simp [ApiCall.locks, (partialRow_some hrow).1]),
      paidAmount, remaining, now, hA, hactive, hremaining, hrow⟩
  | _ => exact h

/-- **A statement of a call** credits the row that it holds, or leaves the invoices
as they are. -/
theorem PhaseStep.rowsStep {env : Env} {now : Timestamp} {locked : Uuid → Bool}
    {payment : HorizonPayment} {w w' : World} {ph ph' : Phase}
    (h : PhaseStep env now locked payment w ph w' ph') (hholds : ph.HoldsPending w.db) :
    RowsStep A (fun i => ph.locks i.id = true) w.db w'.db ∧ ph'.HoldsPending w'.db := by
  cases h with
  | look hdb => exact ⟨.of_eq (congrArg Db.invoices hdb), trivial⟩
  | reject hdb => exact ⟨.of_eq (congrArg Db.invoices hdb), trivial⟩
  | skip => exact ⟨.of_eq rfl, trivial⟩
  | found => exact ⟨.of_eq rfl, trivial⟩
  | log hins => exact ⟨.of_eq (insertPaymentEvent_same hins).1, trivial⟩
  | record hins => exact ⟨.of_eq (insertPaymentEvent_same hins).1, trivial⟩
  | begin => exact ⟨.of_eq rfl, trivial⟩
  | write => exact ⟨.of_eq rfl, hholds⟩
  | lock hi hid hp => exact ⟨.of_eq rfl, _, hi, hid, hp⟩
  | miss => exact ⟨.of_eq rfl, trivial⟩
  | commit c updated hooks =>
    refine ⟨?_, trivial⟩
    cases updated with
    | false => exact .of_eq rfl
    | true =>
      obtain ⟨j, hj, hid, hp⟩ := hholds
      refine ⟨fun i => if i.id == c.inv.id then c.markPaid i else i, rfl, fun i hi => ?_⟩
      by_cases hic : i.id = c.inv.id
      · obtain rfl := Table.eq_of_conflict hi hj (.inl (hic.trans hid.symm))
        simp only [hic, beq_self_eq_true, if_true]
        exact ⟨.credited hp c, .inr (by simp [Phase.locks])⟩
      · simp only [beq_eq_false_iff_ne.mpr hic]
        exact ⟨.same, .inl rfl⟩
  | publish => exact ⟨.of_eq rfl, trivial⟩
  | finish => exact ⟨.of_eq rfl, trivial⟩
  | fail => exact ⟨.of_eq rfl, trivial⟩

/-- **A statement of an API call** applies a partial payment to the row that it
holds, or leaves the invoices as they are. -/
theorem exec_rowsStep {now : Timestamp} {locked : Uuid → Bool} {call call' : ApiCall}
    (hholds : HoldsRow A db call) (hA : StoresOnly A call)
    (h : call.exec now locked db = some (db', call')) :
    RowsStep A (fun i => call.locks i.id = true) db db' ∧ HoldsRow A db' call' := by
  cases call with
  | idle => cases h
  | selectHooks todo => cases todo <;> cases h <;> exact ⟨.of_eq rfl, trivial⟩
  | insertDelivery d hooks todo => cases hooks <;> cases h <;> exact ⟨.of_eq rfl, trivial⟩
  | partialSelect invoiceId paidAmount =>
    simp only [ApiCall.exec] at h
    split at h
    · cases h
      exact ⟨.of_eq rfl, trivial⟩
    · next invoice hfind =>
      split at h
      · cases h
      · split at h
        · next remaining hremaining =>
          cases h
          obtain ⟨hi, hp⟩ := Table.find?_some hfind
          exact ⟨.of_eq rfl, hi, (Bool.and_eq_true_iff.mp hp).2, hremaining⟩
        · cases h
          exact ⟨.of_eq rfl, trivial⟩
  | partialUpdate invoice paidAmount remaining start =>
    simp only [ApiCall.exec] at h
    split at h
    · next row hrow =>
      cases h
      obtain ⟨hi, hactive, hremaining⟩ := hholds
      have hstored : A paidAmount := hA (by rw [hrow]; rfl)
      exact ⟨.of_eq rfl, invoice, hi, paidAmount, remaining, start, hstored, hactive, hremaining,
        hrow⟩
    · cases h
      exact ⟨.of_eq rfl, trivial⟩
  | partialCommit row =>
    cases h
    refine ⟨rowsStep_modify fun i hi hid => ?_, trivial⟩
    obtain ⟨invoice, hinv, paidAmount, remaining, start, hA, hactive, hremaining, hrow⟩ := hholds
    have hid : i.id = row.id := beq_iff_eq.mp hid
    obtain rfl := Table.eq_of_conflict hi hinv (.inl (hid.trans (partialRow_some hrow).1))
    refine ⟨?_, by simp [ApiCall.locks, hid]⟩
    rw [← partialRow_eq hrow]
    exact .applied hactive hA hremaining hrow

theorem rowsStep_setStatus {p : Invoice → Bool} {s : InvoiceStatus}
    (hs : s = .expired ∨ s = .cancelled) (hmay : ∀ i ∈ affected db p, may i) :
    RowsStep A may db (setStatus db p s) :=
  rowsStep_modify fun i hi hp =>
    ⟨.closed (Bool.and_eq_true_iff.mp hp).1 hs, hmay i (List.mem_filter.mpr ⟨hi, hp⟩)⟩

end Statements

/-! ## Steps of the system -/

section System

variable {n m : Nat} {env : Env} {A : String → Prop}

/-- What the open transactions hold is as they found it. -/
structure Sys.RowsOk (A : String → Prop) (s : Sys n m) : Prop where
  calls : ∀ k, (s.calls k).phase.HoldsPending s.world.db
  apis : ∀ k, HoldsRow A s.world.db (s.apis k)

theorem Sys.Idle.rowsOk {s : Sys n m} (h : s.Idle) : s.RowsOk A where
  calls k := by
    rw [h.calls k]
    trivial
  apis k := by
    rw [h.apis k]
    trivial

/-- A step of one party that changes no row which another party holds. -/
theorem Sys.RowsOk.step {s s' : Sys n m} {self : Option (Fin n ⊕ Fin m)} (h : s.RowsOk A)
    (hkeep : ∀ i ∈ s.world.db.invoices, s.lockedFor self i.id = true → i ∈ s'.world.db.invoices)
    (hcalls : ∀ k, s'.calls k = s.calls k ∧ some (.inl k) ≠ self ∨
      (s'.calls k).phase.HoldsPending s'.world.db)
    (hapis : ∀ k, s'.apis k = s.apis k ∧ some (.inr k) ≠ self ∨
      HoldsRow A s'.world.db (s'.apis k)) : s'.RowsOk A := by
  have hlocked : ∀ o id, some o ≠ self → s.holds o id = true → s.lockedFor self id = true := by
    intro o id ho hid
    by_contra hfree
    rw [Bool.not_eq_true, Sys.lockedFor_eq_false] at hfree
    rw [hfree o ho] at hid
    cases hid
  refine ⟨fun k => ?_, fun k => ?_⟩
  · rcases hcalls k with ⟨heq, hk⟩ | hk
    · rw [heq]
      exact (h.calls k).keep fun i hi hid => hkeep i hi (hlocked (.inl k) _ hk hid)
    · exact hk
  · rcases hapis k with ⟨heq, hk⟩ | hk
    · rw [heq]
      exact (h.apis k).keep fun i hi hid => hkeep i hi (hlocked (.inr k) _ hk hid)
    · exact hk

/-- The amounts of stored partial payments meet `A`, and new rows meet `C`. -/
def Admits (A : String → Prop) (C : Invoice → Prop) (s : Sys n m) : Label n m → Prop
  | .api k _ => StoresOnly A (s.apis k)
  | .create invoice => C invoice
  | _ => True

instance (A : String → Prop) (C : Invoice → Prop) [DecidablePred A] [DecidablePred C]
    (s : Sys n m) : ∀ a : Label n m, Decidable (Admits A C s a)
  | .api k _ => inferInstanceAs (Decidable (StoresOnly A (s.apis k)))
  | .create invoice => inferInstanceAs (Decidable (C invoice))
  | .deliver _ _ | .exec _ _ | .abort _ | .redis _ _ | .cancel _ _ | .expire _ _
  | .autoCancel _ _ | .applyPartial _ _ _ | .apiAbort _ => isTrue trivial

/-- A guard that admits every amount is one on new rows alone. -/
theorem admits_of_forall {C : Invoice → Prop} {s : Sys n m} {a : Label n m}
    (h : ∀ r, a = .create r → C r) : Admits (fun _ => True) C s a := by
  cases a with
  | create r => exact h r rfl
  | api k now =>
    show StoresOnly (fun _ => True) (s.apis k)
    cases s.apis k <;> first | trivial | exact fun _ => trivial
  | _ => trivial

/-- What a step does to the rows. -/
def Stepped (A : String → Prop) (a : Label n m) (db db' : Db) : Prop :=
  RowsStep A (fun _ => True) db db' ∨
    ∃ r, a = .create r ∧ db'.invoices.rows = db.invoices.rows ++ [r]

/-- The `UPDATE`s that close invoices. -/
theorem Sys.update_rowsStep {s : Sys n m} {self : Option (Fin n ⊕ Fin m)} {p : Invoice → Bool}
    {status : InvoiceStatus} {w : World} (hs : status = .expired ∨ status = .cancelled)
    (h : s.update self p status = some w) :
    RowsStep A (fun i => s.lockedFor self i.id = false) s.world.db w.db := by
  unfold Sys.update at h
  split at h
  · next hfree =>
    cases h
    exact rowsStep_setStatus hs hfree
  · cases h

/-- Rows that are held by others stay. -/
theorem RowsStep.held {s : Sys n m} {self : Option (Fin n ⊕ Fin m)} {db' : Db}
    (h : RowsStep A (fun i => s.lockedFor self i.id = false) s.world.db db') :
    ∀ i ∈ s.world.db.invoices, s.lockedFor self i.id = true → i ∈ db'.invoices :=
  fun i hi hheld => h.kept hi (by simp [hheld])

/-- One party moves. -/
theorem update_cases {ι : Type} [DecidableEq ι] {σ : Type} (f : ι → σ) (k j : ι) (x : σ) :
    (Function.update f k x j = f j ∧ j ≠ k) ∨ (j = k ∧ Function.update f k x j = x) := by
  by_cases hj : j = k
  · subst hj
    exact .inr ⟨rfl, Function.update_self _ _ _⟩
  · exact .inl ⟨Function.update_of_ne hj _ _, hj⟩

/-- A step of a reconciler process. -/
theorem Sys.RowsOk.call {s s' : Sys n m} {k : Fin n} {c : Call} (h : s.RowsOk A)
    (hrows : RowsStep A (fun i => s.lockedFor (some (.inl k)) i.id = false) s.world.db s'.world.db)
    (hcalls : s'.calls = Function.update s.calls k c) (hapis : s'.apis = s.apis)
    (hc : c.phase.HoldsPending s'.world.db) : s'.RowsOk A := by
  refine Sys.RowsOk.step h hrows.held (fun j => ?_) fun j => .inl ⟨by rw [hapis], by simp⟩
  rcases update_cases s.calls k j c with ⟨heq, hj⟩ | ⟨rfl, heq⟩
  · exact .inl ⟨by rw [hcalls, heq], by simpa using hj⟩
  · exact .inr (by rwa [hcalls, heq])

/-- A step of an API call. -/
theorem Sys.RowsOk.api {s s' : Sys n m} {k : Fin m} {c : ApiCall} (h : s.RowsOk A)
    (hrows : RowsStep A (fun i => s.lockedFor (some (.inr k)) i.id = false) s.world.db s'.world.db)
    (hcalls : s'.calls = s.calls) (hapis : s'.apis = Function.update s.apis k c)
    (hc : HoldsRow A s'.world.db c) : s'.RowsOk A := by
  refine Sys.RowsOk.step h hrows.held (fun j => .inl ⟨by rw [hcalls], by simp⟩) fun j => ?_
  rcases update_cases s.apis k j c with ⟨heq, hj⟩ | ⟨rfl, heq⟩
  · exact .inl ⟨by rw [hapis, heq], by simpa using hj⟩
  · exact .inr (by rwa [hapis, heq])

/-- A step that leaves all calls alone. -/
theorem Sys.RowsOk.world {s s' : Sys n m} (h : s.RowsOk A)
    (hkeep : ∀ i ∈ s.world.db.invoices, s.lockedFor none i.id = true → i ∈ s'.world.db.invoices)
    (hcalls : s'.calls = s.calls) (hapis : s'.apis = s.apis) : s'.RowsOk A :=
  h.step hkeep (fun j => .inl ⟨by rw [hcalls], by simp⟩)
    fun j => .inl ⟨by rw [hapis], by simp⟩

/-- **What a step does to the rows.** -/
theorem rows_step {C : Invoice → Prop} {s s' : Sys n m} {a : Label n m} (hs : s.Sound)
    (h : s.RowsOk A) (hA : Admits A C s a) (hstep : (system env n m).step s a = some s') :
    s'.RowsOk A ∧ Stepped A a s.world.db s'.world.db := by
  have hown : ∀ o id, s.holds o id = true → s.lockedFor (some o) id = false := fun _ _ => hs.own
  cases step_spec hstep with
  | deliver => exact ⟨h.call (.of_eq rfl) rfl rfl trivial, .inl (.of_eq rfl)⟩
  | @exec k _ _ _ world _ hrun hexec =>
    have hholds := h.calls k
    rw [hrun] at hholds
    obtain ⟨hrows, hnext⟩ := (exec_phaseStep hexec).rowsStep (A := A) hholds
    have hfree : RowsStep A (fun i => s.lockedFor (some (.inl k)) i.id = false) s.world.db
        world.db := hrows.mono fun i _ hid =>
          hown (.inl k) i.id (by rw [Sys.holds, hrun]; exact hid)
    exact ⟨h.call hfree rfl rfl (by rwa [Next.phase_call]),
      .inl (hrows.mono fun _ _ _ => trivial)⟩
  | abort => exact ⟨h.call (.of_eq rfl) rfl rfl trivial, .inl (.of_eq rfl)⟩
  | redis => exact ⟨h.world (fun _ hi _ => hi) rfl rfl, .inl (.of_eq rfl)⟩
  | @create invoice _ _ hrow =>
    exact ⟨h.world (fun i hi _ => (Table.mem_of_insert? hrow i).mpr (.inl hi)) rfl rfl,
      .inr ⟨invoice, rfl, (Table.insert?_eq_some.mp hrow).2⟩⟩
  | cancel hupd =>
    have hrows := Sys.update_rowsStep (A := A) (.inr rfl) hupd
    exact ⟨h.world hrows.held rfl rfl, .inl (hrows.mono fun _ _ _ => trivial)⟩
  | expire _ hupd =>
    have hrows := Sys.update_rowsStep (A := A) (.inl rfl) hupd
    exact ⟨h.api hrows rfl rfl trivial, .inl (hrows.mono fun _ _ _ => trivial)⟩
  | autoCancel _ hupd =>
    have hrows := Sys.update_rowsStep (A := A) (.inr rfl) hupd
    exact ⟨h.api hrows rfl rfl trivial, .inl (hrows.mono fun _ _ _ => trivial)⟩
  | applyPartial => exact ⟨h.api (.of_eq rfl) rfl rfl trivial, .inl (.of_eq rfl)⟩
  | @api k _ db _ hexec =>
    obtain ⟨hrows, hnext⟩ := exec_rowsStep (h.apis k) hA hexec
    have hfree : RowsStep A (fun i => s.lockedFor (some (.inr k)) i.id = false) s.world.db db :=
      hrows.mono fun i _ hid => hown (.inr k) i.id hid
    exact ⟨h.api hfree rfl rfl hnext, .inl (hrows.mono fun _ _ _ => trivial)⟩
  | apiAbort => exact ⟨h.api (.of_eq rfl) rfl rfl trivial, .inl (.of_eq rfl)⟩

/-! ## Runs -/

/-- The invariant of a run: every row meets `P`, and the rows that were there at
first have since changed as `R` says. -/
structure RowInv (A : String → Prop) (P : Invoice → Prop) (R : Invoice → Invoice → Prop)
    (first : List Invoice) (s : Sys n m) : Prop where
  sound : s.Sound
  rows : s.RowsOk A
  all : ∀ i ∈ s.world.db.invoices, P i
  since : ∀ i ∈ first, ∃ i' ∈ s.world.db.invoices, R i i'

variable {P C : Invoice → Prop} {R : Invoice → Invoice → Prop} {first : List Invoice}

theorem rowInv_step {s s' : Sys n m} {a : Label n m} (hnew : ∀ r, C r → P r)
    (hP : ∀ i i', P i → RowStep A i i' → P i')
    (hR : ∀ i₀ i i', R i₀ i → P i → RowStep A i i' → R i₀ i')
    (h : RowInv A P R first s) (hok : Admits A C s a)
    (hstep : (system env n m).step s a = some s') : RowInv A P R first s' := by
  obtain ⟨hrows, hrest⟩ := rows_step h.sound h.rows hok hstep
  refine ⟨(step_effect h.sound hstep).2, hrows, ?_, ?_⟩ <;>
    rcases hrest with ⟨f, hmap, hf⟩ | ⟨r, rfl, happend⟩
  · intro i' hi'
    rw [← Table.mem_rows, hmap] at hi'
    obtain ⟨i, hi, rfl⟩ := List.mem_map.mp hi'
    exact hP i _ (h.all i hi) (hf i hi).1
  · intro i' hi'
    rw [← Table.mem_rows, happend, List.mem_append, List.mem_singleton] at hi'
    rcases hi' with hi' | rfl
    · exact h.all i' hi'
    · exact hnew _ hok
  · intro i₀ hi₀
    obtain ⟨i, hi, hr⟩ := h.since i₀ hi₀
    refine ⟨f i, ?_, hR i₀ i _ hr (h.all i hi) (hf i hi).1⟩
    rw [← Table.mem_rows, hmap]
    exact List.mem_map_of_mem hi
  · intro i₀ hi₀
    obtain ⟨i, hi, hr⟩ := h.since i₀ hi₀
    refine ⟨i, ?_, hr⟩
    rw [← Table.mem_rows, happend]
    exact List.mem_append_left _ hi

/-- **The invariant rule for rows**: what holds of new rows and is kept by every
`RowStep` holds of every row in every state of a run. -/
theorem forall_rows_of_run {s t : Sys n m} {run : List (Label n m)} (hnew : ∀ r, C r → P r)
    (hP : ∀ i i', P i → RowStep A i i' → P i') (hidle : s.Idle)
    (hstart : ∀ i ∈ s.world.db.invoices, P i)
    (hguard : (system env n m).Guarded (Admits A C) s run)
    (hrun : (system env n m).run s run = some t) :
    RowInv A P (fun _ _ => True) [] t :=
  (system env n m).inv_of_guarded_run
    (fun _ _ _ h hok hstep => rowInv_step hnew hP (fun _ _ _ _ _ _ => trivial) h hok hstep)
    ⟨hidle.sound, hidle.rowsOk, hstart, fun _ h => nomatch h⟩ hguard hrun

end System

end Stargate.Reconciler
