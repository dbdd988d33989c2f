import Stargate.Settlement.AtomicSettlements

/-!
# Deferred settlement (`settlement_scheduled_at`)

A merchant may defer settlement to a future time, and the comment on the first query of
`createDailySettlements` says that only merchants that are due are settled. The query does
not look at the schedule, which the transaction of a merchant then clears.

- `OnlyDue`: what the comment says of a run, for every merchant;
- `mem_merchantRows`: whom the query selects;
- `Standing`: where a run without failures stands;
- `onlyDue_iff`: it holds if and only if the merchants selected are all due.
-/

namespace Stargate.Settlements

open Base

/-- Settlement is deferred to a time after `now`. -/
def deferred (db : Db) (merchantId : Uuid) (now : Timestamp) : Bool :=
  db.merchants.rows.any fun m =>
    m.id == merchantId && m.settlementScheduledAt.any fun scheduledAt => now < scheduledAt

/-- The run has inserted a settlement for the merchant. -/
def Created (db db' : Db) (merchantId : Uuid) : Prop :=
  ∃ x ∈ db'.settlements, x.merchantId = merchantId ∧ ∀ y ∈ db.settlements, y.id ≠ x.id

/-- At least 1.00 is unsettled, and no settlement is pending. -/
def Payable (db : Db) (merchantId : Uuid) : Prop :=
  10 ^ 7 ≤ owed db merchantId ∧ hasPending db merchantId = false

/-- A run from `db` to `db'` at the time `now` settles those who are due, and leaves alone the
schedules and the ledger rows of those who are not. -/
structure OnlyDue (db db' : Db) (now : Timestamp) : Prop where
  created_iff : ∀ m, Created db db' m ↔ Payable db m ∧ deferred db m now = false
  untouched : ∀ m, deferred db m now = true →
    merchantsOf db' m = merchantsOf db m ∧ entriesOf db' m = entriesOf db m

/-- The sums of the first query fit their type. -/
def SumsFit (db : Db) : Prop := ∃ merchants, selectMerchants db = some merchants

/-- No merchant that the run would settle is deferred. A run whose first query fails settles
nobody. -/
def RightlySelected (db : Db) (now : Timestamp) : Prop :=
  (SumsFit db → ∀ m, Payable db m → deferred db m now = false) ∧
  (¬ SumsFit db → ∀ m, Payable db m → deferred db m now = true)

/-! ## Whom the query selects -/

section Select

variable {db db' : Db} {m : Uuid} {now : Timestamp}

/-- Without unclaimed rows nothing is owed. -/
theorem owed_of_not_mem_groups (h : m ∉ groups db) : owed db m = 0 := by
  have hnone : db.ledgerEntries.rows.filter (unclaimed m) = [] := by
    refine List.filter_eq_nil_iff.mpr fun l hl hun => h ?_
    obtain ⟨hmerchant, hnone⟩ := Bool.and_eq_true_iff.mp hun
    refine List.mem_dedup.mpr (List.mem_map.mpr ⟨l, List.mem_filter.mpr ⟨hl, hnone⟩, ?_⟩)
    exact beq_iff_eq.mp hmerchant
  rw [owed, Table.sumOf, hnone]
  rfl

/-- **The merchants that the query selects** are those with at least 1.00 unsettled. -/
theorem mem_merchantRows (hfit : SumsFit db) :
    m ∈ (merchantRows db).map MerchantRow.merchantId ↔ 10 ^ 7 ≤ owed db m := by
  obtain ⟨merchants, hselect⟩ := hfit
  have hrows : merchantRows db = merchants := by rw [merchantRows, hselect, Option.getD_some]
  rw [hrows]
  constructor
  · intro hm
    obtain ⟨row, hrow, rfl⟩ := List.mem_map.mp hm
    rw [owed_of_selectMerchants hselect hrow]
    unfold selectMerchants at hselect
    split at hselect
    · cases hselect
      obtain ⟨_, -, hm⟩ := List.mem_filterMap.mp hrow
      exact of_decide_eq_true (Option.filter_eq_some_iff.mp hm).2
    · cases hselect
  · intro howed
    have hgroup : m ∈ groups db := by
      by_contra h
      rw [owed_of_not_mem_groups h] at howed
      exact absurd howed (by decide)
    unfold selectMerchants at hselect
    split at hselect
    · next hall =>
      cases hselect
      obtain ⟨amount, hamount⟩ := Option.isSome_iff_exists.mp (List.all_eq_true.mp hall m hgroup)
      refine List.mem_map.mpr ⟨⟨m, amount⟩, List.mem_filterMap.mpr ⟨m, hgroup, ?_⟩, rfl⟩
      rw [hamount, Option.map_some, Option.filter_eq_some_iff]
      refine ⟨rfl, decide_eq_true ?_⟩
      show 10 ^ 7 ≤ amount.units
      rwa [Numeric.ofUnits?_eq_some.mp hamount]
    · cases hselect

theorem SettledBy.created {x : Settlement} (h : SettledBy db db' m x) : Created db db' m := by
  have hx : x ∈ settlementsOf db' m := by
    rw [h.settlements]
    exact List.mem_append_right _ List.mem_cons_self
  obtain ⟨hmem, hmerchant⟩ := List.mem_filter.mp hx
  exact ⟨x, hmem, beq_iff_eq.mp hmerchant, h.fresh⟩

theorem Unchanged.not_created (h : Unchanged db db' m) : ¬ Created db db' m := by
  rintro ⟨x, hx, hmerchant, hnew⟩
  have hx : x ∈ settlementsOf db' m := List.mem_filter.mpr ⟨hx, beq_iff_eq.mpr hmerchant⟩
  rw [h.settlements] at hx
  exact hnew x (List.mem_filter.mp hx).1 rfl

end Select

/-! ## Every run -/

section Run

variable {db w w' : Db} {s t : Sys 1} {as : List (Label 1)} {a : Label 1} {call : Call}
  {now : Timestamp}

/-- The one call runs a statement that does not fail, and a new settlement gets an id that none
has. -/
def Undisturbed (s : Sys 1) : Label 1 → Prop
  | .exec _ _ id => (s.db.settlements.rows.any fun x => x.id == id) = false
  | _ => False

instance decidableUndisturbed (s : Sys 1) : ∀ a, Decidable (Undisturbed s a)
  | .exec _ _ id =>
    inferInstanceAs (Decidable ((s.db.settlements.rows.any fun x => x.id == id) = false))
  | .start _ | .abort _ | .credit _ _ _ => .isFalse id

/-- A statement throws where the sums do not fit, or where the id is taken. -/
theorem not_sumsFit_of_threw {locks : Locks} {rows : List MerchantRow} {id : Uuid}
    {rowCount : Nat} {pc : Pc} (hprogress : Progress db w pc)
    (hfresh : (w.settlements.rows.any fun x => x.id == id) = false)
    (h : exec locks rows id w rowCount pc = some (w', .threw)) : ¬ SumsFit db := by
  have hnext : ∀ k rest, nextMerchant k rest ≠ .threw := by
    intro k rest
    cases rest with
    | nil =>
      intro h
      cases h
    | cons row rest =>
      intro h
      cases h
  rcases hprogress with ⟨rfl, rfl⟩ | ⟨done, row, later, -, hturn⟩
  · simp only [exec] at h
    split at h
    · split at h
      · obtain ⟨-, h⟩ := Prod.mk.inj (Option.some.inj h)
        exact absurd h (hnext _ _)
      · cases h
    · next hselect =>
      rintro ⟨merchants, hfit⟩
      rw [hselect] at hfit
      cases hfit
  · cases pc with
    | selectMerchants => exact hturn.elim
    | begin merchant rest => cases h
    | selectPending merchant rest =>
      simp only [exec] at h
      split at h
      · cases h
      · cases h
    | commitExisting rest =>
      obtain ⟨-, h⟩ := Prod.mk.inj (Option.some.inj h)
      exact absurd h (hnext _ _)
    | insertSettlement merchant rest =>
      simp only [exec, hfresh] at h
      split at h
      · cases h
      · cases h
    | clearSchedule x rest =>
      simp only [exec] at h
      split at h
      · split at h
        · cases h
        · cases h
      · cases h
    | claimEntries x cleared rest =>
      simp only [exec] at h
      split at h
      · cases h
      · cases h
    | commit tx rest =>
      obtain ⟨db', -, heq⟩ := Option.map_eq_some_iff.mp h
      obtain ⟨-, h⟩ := Prod.mk.inj heq
      exact absurd h (hnext _ _)

/-- Where the call stands. Past the first query the sums fit. -/
def Standing (db w : Db) : Call → Prop
  | .idle => False
  | .running _ pc => Progress db w pc ∧ (pc = .selectMerchants ∨ SumsFit db)
  | .returned _ => SumsFit db ∧ ∃ done, Order db w done []
  | .threw => ¬ SumsFit db ∧ w = db

theorem standing_exec {locks : Locks} {rows : List MerchantRow} {id : Uuid} {rowCount : Nat}
    {pc : Pc} (h : Standing db w (.running rowCount pc))
    (hfresh : (w.settlements.rows.any fun x => x.id == id) = false)
    (hexec : exec locks rows id w rowCount pc = some (w', call)) : Standing db w' call := by
  obtain ⟨hprogress, hpc⟩ := h
  have hfit : call ≠ .threw → SumsFit db := by
    intro hnot
    rcases hpc with rfl | hfit
    · rcases hprogress with ⟨-, rfl⟩ | ⟨_, _, _, -, hturn⟩
      · simp only [exec] at hexec
        split at hexec
        · next merchants hselect => exact ⟨merchants, hselect⟩
        · cases hexec
          exact absurd rfl hnot
      · exact hturn.elim
    · exact hfit
  cases reaches_exec hprogress hexec with
  | running h => exact ⟨h, .inr (hfit Call.noConfusion)⟩
  | returned h => exact ⟨hfit Call.noConfusion, _, h⟩
  | threw h =>
    have hno := not_sumsFit_of_threw hprogress hfresh hexec
    refine ⟨hno, ?_⟩
    rcases hpc with rfl | hfit
    · rcases hprogress with ⟨-, rfl⟩ | ⟨_, _, _, -, hturn⟩
      · exact h
      · exact hturn.elim
    · exact absurd hfit hno

theorem standing_step (h : Standing db s.db (s.calls 0)) (ha : Undisturbed s a)
    (hstep : (system 1).step s a = some t) : Standing db t.db (t.calls 0) := by
  cases a with
  | exec k rows id =>
    cases Subsingleton.elim k 0
    simp only [system] at hstep
    split at hstep
    · next rowCount pc hpc =>
      obtain ⟨⟨db', call⟩, hexec, rfl⟩ := Option.map_eq_some_iff.mp hstep
      rw [hpc] at h
      rw [call_update]
      exact standing_exec h ha hexec
    · cases hstep
  | _ => exact ha.elim

/-- Where the query fails, nobody is settled. -/
theorem onlyDue_iff_unfit (hno : ¬ SumsFit db) : OnlyDue db db now ↔ RightlySelected db now := by
  constructor
  · intro h
    refine ⟨fun hfit => absurd hfit hno, ?_⟩
    intro _ m hm
    by_contra hdue
    exact (Unchanged.refl db m).not_created
      ((h.created_iff m).mpr ⟨hm, Bool.eq_false_iff.mpr hdue⟩)
  · intro h
    refine ⟨fun m => iff_of_false (Unchanged.refl db m).not_created ?_, fun m _ => ⟨rfl, rfl⟩⟩
    rintro ⟨hm, hdue⟩
    rw [h.2 hno m hm] at hdue
    cases hdue

/-- After the last merchant, whoever can be paid is settled, and nobody else is touched. -/
theorem created_or_unchanged {done : List MerchantRow} (h : Order db w done [])
    (hfit : SumsFit db) :
    (∀ m, Payable db m → Created db w m) ∧ ∀ m, ¬ Payable db m → Unchanged db w m := by
  have hdone : ∀ m, m ∈ done.map MerchantRow.merchantId ↔ 10 ^ 7 ≤ owed db m := by
    intro m
    have hperm := h.perm.map MerchantRow.merchantId
    rw [List.append_nil] at hperm
    rw [hperm.mem_iff, mem_merchantRows hfit]
  constructor
  · rintro m ⟨howed, hnone⟩
    have hsettled := h.processed.settled m ((hdone m).mpr howed)
    rw [hnone] at hsettled
    obtain ⟨x, hx⟩ := hsettled
    exact hx.created
  · intro m hm
    by_cases howed : 10 ^ 7 ≤ owed db m
    · have hsettled := h.processed.settled m ((hdone m).mpr howed)
      cases hpending : hasPending db m with
      | false => exact absurd ⟨howed, hpending⟩ hm
      | true => rwa [hpending] at hsettled
    · exact h.processed.others m (mt (hdone m).mp howed)

theorem onlyDue_iff_fit (hfit : SumsFit db) (hcreated : ∀ m, Payable db m → Created db w m)
    (hothers : ∀ m, ¬ Payable db m → Unchanged db w m) :
    OnlyDue db w now ↔ RightlySelected db now := by
  constructor
  · intro h
    exact ⟨fun _ m hm => ((h.created_iff m).mp (hcreated m hm)).2, fun hno => absurd hfit hno⟩
  · intro h
    constructor
    · intro m
      constructor
      · intro hnew
        by_cases hm : Payable db m
        · exact ⟨hm, h.1 hfit m hm⟩
        · exact absurd hnew (hothers m hm).not_created
      · intro hdue
        exact hcreated m hdue.1
    · intro m hdeferred
      have hm : ¬ Payable db m := by
        intro hm
        rw [h.1 hfit m hm] at hdeferred
        cases hdeferred
      exact ⟨(hothers m hm).merchants, (hothers m hm).entries⟩

/-- **A run that nothing disturbs settles only the merchants that are due if and only if its query
selects no others.** -/
theorem onlyDue_iff (hstart : (system 1).step { db } (.start 0) = some s)
    (hrun : (system 1).run s as = some t) (has : (system 1).Guarded Undisturbed s as)
    (hover : ∀ rowCount pc, t.calls 0 ≠ .running rowCount pc) :
    OnlyDue db t.db now ↔ RightlySelected db now := by
  have hstanding : Standing db t.db (t.calls 0) := by
    refine (system 1).inv_of_guarded_run (I := fun u => Standing db u.db (u.calls 0))
      (fun u b v hu hb hstep => standing_step hu hb hstep) ?_ has hrun
    cases hstart
    rw [call_update]
    exact ⟨.inl ⟨rfl, rfl⟩, .inl rfl⟩
  cases hcall : t.calls 0 with
  | idle =>
    rw [hcall] at hstanding
    exact hstanding.elim
  | running rowCount pc => exact absurd hcall (hover rowCount pc)
  | threw =>
    rw [hcall] at hstanding
    rw [hstanding.2]
    exact onlyDue_iff_unfit hstanding.1
  | returned rowCount =>
    rw [hcall] at hstanding
    obtain ⟨hfit, done, horder⟩ := hstanding
    obtain ⟨hcreated, hothers⟩ := created_or_unchanged horder hfit
    exact onlyDue_iff_fit hfit hcreated hothers

/-! ### Every run ends -/

/-- What other transactions hold, where there are none. -/
def noLocks : Locks := ⟨fun _ => false, fun _ => false, fun _ => false⟩

theorem locksFor_alone (s : Sys 1) : s.locksFor 0 = noLocks := by
  have hnone : ∀ (P : Fin 1 → Prop), ¬ ∃ j, j ≠ 0 ∧ P j := by
    rintro P ⟨j, hj, -⟩
    exact hj (Subsingleton.elim j 0)
  simp only [Sys.locksFor, hnone, decide_false, noLocks]

/-- A run of the call from `s` on can come to its end. -/
def Ends (s : Sys 1) : Prop :=
  ∃ as t, (system 1).run s as = some t ∧ (system 1).Guarded Undisturbed s as ∧
    ∀ rowCount pc, t.calls 0 ≠ .running rowCount pc

/-- One statement, and what is left after it. -/
theorem ends_exec {rowCount : Nat} {pc : Pc} {id : Uuid} (rows : List MerchantRow)
    (hpc : s.calls 0 = .running rowCount pc)
    (hfresh : (s.db.settlements.rows.any fun x => x.id == id) = false)
    (hexec : exec noLocks rows id s.db rowCount pc = some (w, call))
    (h : ∀ t : Sys 1, t.db = w → t.calls 0 = call → Ends t) : Ends s := by
  have hstep : (system 1).step s (.exec 0 rows id)
      = some { db := w, calls := Function.update s.calls 0 call } := by
    simp only [system, hpc, locksFor_alone, hexec, Option.map_some]
  obtain ⟨as, t, hrun, hg, hover⟩ := h _ rfl (call_update s w call)
  exact ⟨_, t, (system 1).run_cons.mpr ⟨_, hstep, hrun⟩,
    ((system 1).guarded_cons hstep).mpr ⟨hfresh, hg⟩, hover⟩

theorem exists_fresh (xs : List Settlement) : ∃ id, (xs.any fun x => x.id == id) = false := by
  obtain ⟨bound, hbound⟩ : ∃ bound, ∀ x ∈ xs, x.id < bound := by
    induction xs with
    | nil => exact ⟨0, nofun⟩
    | cons x xs ih =>
      obtain ⟨bound, hbound⟩ := ih
      refine ⟨max bound (x.id + 1), fun y hy => ?_⟩
      rcases List.mem_cons.mp hy with rfl | hy
      · exact Nat.le_max_right _ _
      · exact Nat.lt_of_lt_of_le (hbound y hy) (Nat.le_max_left _ _)
  exact ⟨bound, List.any_eq_false.mpr fun x hx heq => (hbound x hx).ne (beq_iff_eq.mp heq)⟩

/-- The transaction of a merchant inserts a settlement with a new id. -/
theorem ends_transaction {row : MerchantRow} {rest : List MerchantRow} {rowCount : Nat}
    (ih : ∀ t : Sys 1, t.calls 0 = nextMerchant rowCount rest → Ends t)
    (h : s.calls 0 = .running rowCount (.insertSettlement row rest)) : Ends s := by
  obtain ⟨id, hid⟩ := exists_fresh s.db.settlements.rows
  have hinsert : exec noLocks [] id s.db rowCount (.insertSettlement row rest)
      = some (s.db, .running rowCount
        (.clearSchedule ⟨id, row.merchantId, row.amount, .pending⟩ rest)) := by
    simp only [exec, noLocks, hid, if_false, Bool.false_eq_true]
  refine ends_exec [] h hid hinsert fun s₁ hdb₁ hpc₁ => ?_
  have hclear : exec noLocks [] id s₁.db rowCount
      (.clearSchedule ⟨id, row.merchantId, row.amount, .pending⟩ rest)
      = some (s₁.db, .running rowCount (.claimEntries
        ⟨id, row.merchantId, row.amount, .pending⟩ (scheduled s₁.db row.merchantId) rest)) := by
    simp only [exec, noLocks, Bool.false_eq_true, if_false]
    cases scheduled s₁.db row.merchantId with
    | true => rfl
    | false => rfl
  refine ends_exec [] hpc₁ (hdb₁ ▸ hid) hclear fun s₂ hdb₂ hpc₂ => ?_
  have hclaim : exec noLocks [] id s₂.db rowCount (.claimEntries
      ⟨id, row.merchantId, row.amount, .pending⟩ (scheduled s₁.db row.merchantId) rest)
      = some (s₂.db, .running rowCount (.commit ⟨⟨id, row.merchantId, row.amount, .pending⟩,
        scheduled s₁.db row.merchantId, (s₂.db.ledgerEntries.rows.filter
          (unclaimed row.merchantId)).map LedgerEntry.id⟩ rest)) := by
    refine if_neg fun hlocked => ?_
    obtain ⟨_, -, hlocked⟩ := List.any_eq_true.mp hlocked
    cases hlocked
  have hdb : s₂.db = s.db := hdb₂.trans hdb₁
  refine ends_exec [] hpc₂ (hdb ▸ hid) hclaim fun s₃ hdb₃ hpc₃ => ?_
  have hfree : ∀ x ∈ s₃.db.settlements,
      ¬ Keyed.Conflict x ⟨id, row.merchantId, row.amount, .pending⟩ := by
    rw [hdb₃, hdb]
    exact fun x hx heq => List.any_eq_false.mp hid x hx (beq_iff_eq.mpr heq)
  obtain ⟨settlements, hstored⟩ : ∃ settlements, s₃.db.settlements.insert?
      ⟨id, row.merchantId, row.amount, .pending⟩ = some settlements := ⟨_, dif_pos hfree⟩
  obtain ⟨db', hcommit⟩ : ∃ db', exec noLocks [] id s₃.db rowCount (.commit
      ⟨⟨id, row.merchantId, row.amount, .pending⟩, scheduled s₁.db row.merchantId,
        (s₂.db.ledgerEntries.rows.filter (unclaimed row.merchantId)).map LedgerEntry.id⟩ rest)
      = some (db', nextMerchant rowCount rest) := by
    simp only [exec, commitSettlement, hstored, Option.map_some]
    exact ⟨_, rfl⟩
  exact ends_exec [] hpc₃ ((hdb₃.trans hdb) ▸ hid) hcommit fun t _ => ih t

/-- The transactions of the merchants that are left. -/
theorem ends_loop (rows : List MerchantRow) {rowCount : Nat}
    (h : s.calls 0 = nextMerchant rowCount rows) : Ends s := by
  induction rows generalizing s with
  | nil =>
    refine ⟨[], s, rfl, trivial, fun k pc => ?_⟩
    rw [h]
    exact nofun
  | cons row rest ih =>
    obtain ⟨id, hid⟩ := exists_fresh s.db.settlements.rows
    refine ends_exec [] h hid rfl fun s₁ hdb₁ hpc₁ => ?_
    cases hpending : hasPending s₁.db row.merchantId with
    | true =>
      have hselect : exec noLocks [] id s₁.db rowCount (.selectPending row rest)
          = some (s₁.db, .running rowCount (.commitExisting rest)) := by
        simp only [exec, hpending, if_true]
      refine ends_exec [] hpc₁ (hdb₁ ▸ hid) hselect fun s₂ hdb₂ hpc₂ => ?_
      exact ends_exec [] hpc₂ ((hdb₂.trans hdb₁) ▸ hid) rfl fun s₃ _ hpc₃ => ih hpc₃
    | false =>
      have hselect : exec noLocks [] id s₁.db rowCount (.selectPending row rest)
          = some (s₁.db, .running rowCount (.insertSettlement row rest)) := by
        simp only [exec, hpending, if_false, Bool.false_eq_true]
      refine ends_exec [] hpc₁ (hdb₁ ▸ hid) hselect fun s₂ _ hpc₂ => ?_
      exact ends_transaction (fun _ => ih) hpc₂

/-- **Every call can come to its end undisturbed.** -/
theorem ends_of_start (hstart : (system 1).step { db } (.start 0) = some s) : Ends s := by
  cases hstart
  obtain ⟨id, hid⟩ := exists_fresh db.settlements.rows
  cases hselect : selectMerchants db with
  | none =>
    have hexec : exec noLocks [] id db 0 .selectMerchants = some (db, .threw) := by
      simp only [exec, hselect]
    refine ends_exec [] (call_update _ _ _) hid hexec fun t _ hthrew => ?_
    refine ⟨[], t, rfl, trivial, fun k pc => ?_⟩
    rw [hthrew]
    exact Call.noConfusion
  | some merchants =>
    have hexec : exec noLocks merchants id db 0 .selectMerchants
        = some (db, nextMerchant merchants.length merchants) := by
      simp only [exec, hselect, List.Perm.refl, if_true]
    exact ends_exec merchants (call_update _ _ _) hid hexec fun t _ hpc => ends_loop merchants hpc

end Run

/-! ## One schedule at two times -/

theorem inRange_fee : (2500000 : Int).natAbs < 10 ^ 18 := by decide

/-- Merchant 1, with settlement deferred to the time 100. -/
def deferredMerchant : Merchant where
  id := 1
  name := "Shop"
  tier := .standard
  feeBps := 50
  feeFixedUsdc := ⟨2500000, inRange_fee⟩
  muxedBaseId := none
  invoiceSeq := 0
  minInvoiceUsdc := none
  maxInvoiceUsdc := none
  dailySpendLimitUsdc := none
  monthlySpendLimitUsdc := none
  acceptedAssets := none
  settlementScheduledAt := some 100
  unpaidInvoiceTtlMinutes := 60
  testMode := false
  createdAt := 0

/-- 9.5 USDC of the merchant are unsettled. -/
def deferredRow : Db := { oneRow with
  merchants := ⟨[deferredMerchant], List.pairwise_singleton _ _⟩ }

/-- A call on it has started. -/
def started : Sys 1 :=
  ⟨deferredRow, Function.update (fun _ => .idle) 0 (.running 0 .selectMerchants)⟩

/-- Its statements. -/
def deferredRun : List (Label 1) := execs 0 7 7

/-- At the time 200 the merchant is due. -/
theorem onlyDue_iff_due : ∃ s t, (system 1).step { db := deferredRow } (.start 0) = some s ∧
    (system 1).run s deferredRun = some t ∧ (system 1).Guarded Undisturbed s deferredRun ∧
    (∀ rowCount pc, t.calls 0 ≠ .running rowCount pc) ∧
    (OnlyDue deferredRow t.db 200 ↔ RightlySelected deferredRow 200) ∧
    RightlySelected deferredRow 200 := by
  obtain ⟨t, hrun, hreturned⟩ := (system 1).exists_of_leadsTo (fun t => t.calls 0 = .returned 1)
    started deferredRun (by decide +kernel)
  have hg : (system 1).Guarded Undisturbed started deferredRun := by decide +kernel
  have hover : ∀ rowCount pc, t.calls 0 ≠ .running rowCount pc := by
    rw [hreturned]
    exact nofun
  have hdue : ∀ m, deferred deferredRow m 200 = false := by
    intro m
    refine List.any_eq_false.mpr fun row hrow hdeferred => ?_
    cases List.mem_singleton.mp hrow
    exact absurd (Bool.and_eq_true_iff.mp hdeferred).2 (by decide)
  refine ⟨_, t, rfl, hrun, hg, hover, onlyDue_iff rfl hrun hg hover,
    fun _ m _ => hdue m, fun hno => absurd ?_ hno⟩
  exact Option.isSome_iff_exists.mp (by decide +kernel)

/-- **At the time 50 the merchant is deferred**, and the same run settles it. -/
theorem settles_deferred : ∃ s t, (system 1).step { db := deferredRow } (.start 0) = some s ∧
    (system 1).run s deferredRun = some t ∧ (system 1).Guarded Undisturbed s deferredRun ∧
    t.calls 0 = .returned 1 ∧ deferred deferredRow 1 50 = true ∧
    (∀ m ∈ t.db.merchants, m.settlementScheduledAt = none) ∧
    Created deferredRow t.db 1 ∧ ¬ OnlyDue deferredRow t.db 50 := by
  obtain ⟨t, hrun, hreturned, hcleared, hnew⟩ := (system 1).exists_of_leadsTo
    (fun t => t.calls 0 = .returned 1 ∧
      (∀ m ∈ t.db.merchants.rows, m.settlementScheduledAt = none) ∧
      ∃ x ∈ t.db.settlements.rows, x.merchantId = 1)
    started deferredRun (by decide +kernel)
  have hg : (system 1).Guarded Undisturbed started deferredRun := by decide +kernel
  have hdeferred : deferred deferredRow 1 50 = true := by decide
  obtain ⟨x, hx, hmerchant⟩ := hnew
  have hcreated : Created deferredRow t.db 1 := ⟨x, hx, hmerchant, nofun⟩
  refine ⟨_, t, rfl, hrun, hg, hreturned, hdeferred, hcleared, hcreated, fun h => ?_⟩
  have hdue := ((h.created_iff 1).mp hcreated).2
  rw [hdeferred] at hdue
  cases hdue

end Stargate.Settlements
