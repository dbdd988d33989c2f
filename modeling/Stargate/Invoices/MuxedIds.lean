import Stargate.Idempotency.InvoiceKeys

/-!
# Muxed ids of concurrent calls

The base of a merchant is computed when its first invoice is: the number of the merchants that
were created up to it, times 2^24. Its invoices get the numbers above the base.

- `Collides`: a statement is about to violate `UNIQUE (muxed_base_id)` or `UNIQUE (muxed_id)`;
- `inOrder`: merchants register after those that have a base, no other merchant with a base was
  created at the same time, and a merchant has at most 2^24 invoices;
- `no_collision`: then all numbers differ, and no statement violates either constraint;
- `same_time_collision`: of two merchants that were created at the same time, one has no
  invoices.
-/

namespace Stargate.CreateCalls

open Base Invoices

/-! ## Collisions -/

/-- The muxed ids that a call has in rows that it has not committed, and the one that it is
about to insert. -/
def Call.held : Call → List Int
  | .inserting args tx q check muxedId =>
    (Call.inserting args tx q check muxedId).pending.map Invoice.muxedId ++ [muxedId]
  | c => c.pending.map Invoice.muxedId

/-- The next statement violates a constraint on muxed ids: another merchant has the base; or
the number is in a row, of the table or of a transaction. -/
def Collides (w : World) (others : List Call) : Call → Prop
  | .running _ _ (.updateBase q _ base) =>
    ∃ m ∈ w.db.merchants, m.id ≠ q.merchant.id ∧ m.muxedBaseId = some base
  | .inserting args tx q check muxedId =>
    (∃ r ∈ w.db.invoices, r.muxedId = muxedId) ∨
      (∃ r ∈ (Call.inserting args tx q check muxedId).pending, r.muxedId = muxedId) ∨
      ∃ o ∈ others, ∃ r ∈ o.pending, r.muxedId = muxedId
  | .committing _ tx => ∃ r ∈ tx.rows.map Prod.snd, ∃ r' ∈ w.db.invoices, r'.muxedId = r.muxedId
  | _ => False

/-- All muxed ids that were computed differ, and no statement violates a constraint on
them. -/
def NoCollision {n : Nat} (s : Program.Sys World Call n) : Prop :=
  s.db.numbers.Nodup ∧ ∀ k, ¬ Collides s.db (s.others k) (s.calls k)

/-- No merchant has a base, and there are no invoices. -/
structure Unallocated (db : Db) : Prop where
  merchants : ∀ m ∈ db.merchants, m.muxedBaseId = none ∧ m.invoiceSeq = 0
  invoices : db.invoices.rows = []

/-! ## The order of the merchants -/

/-- The base that a call is about to give a merchant. -/
def Call.giving : Call → Option (Uuid × Int)
  | .running _ _ (.updateBase q _ base) => some (q.merchant.id, base)
  | _ => none

/-- The merchant has a base, or is about to get one. -/
def hasBase (calls : List Call) (m : Merchant) : Bool :=
  m.muxedBaseId.isSome || calls.any fun c => c.giving.any fun g => g.1 == m.id

/-- Does another merchant with a base have the time of creation of this one? -/
def sameTime (w : World) (others : List Call) (id : Uuid) : Bool :=
  (findOne w.db id).any fun own => w.db.merchants.rows.any fun m =>
    hasBase others m && m.createdAt == own.createdAt && m.id != id

/-- Has the merchant used up its numbers? -/
def exhausted (w : World) (id : Uuid) : Bool :=
  (findOne w.db id).any fun own => 16777216 ≤ own.invoiceSeq

/-- What the statement of a call must not meet. -/
def outOfOrder (w : World) (others : List Call) : Call → Bool
  | .running _ _ (.countMerchants q _) => sameTime w others q.merchant.id
  | .running _ _ (.nextSequence q _ _) => exhausted w q.merchant.id
  | _ => false

/-- Is a merchant registered with a time that is not after that of one with a base? -/
def backdated (w : World) (calls : List Call) : Request → Bool
  | .register _ _ createdAt =>
    w.db.merchants.rows.any fun m => hasBase calls m && createdAt ≤ m.createdAt
  | _ => false

/-- Merchants come in the order of their creation, and stay within their numbers. -/
def inOrder : Program.Guard World Call Input Request where
  call others _ w c := outOfOrder w others c = false
  env calls r w := backdated w calls r = false

instance decidableInOrder : ∀ cs i w c, Decidable (inOrder.call cs i w c) :=
  fun cs _ w c => inferInstanceAs (Decidable (outOfOrder w cs c = false))

instance decidableInOrderEnv : ∀ cs r w, Decidable (inOrder.env cs r w) :=
  fun cs r w => inferInstanceAs (Decidable (backdated w cs r = false))

/-! ## Ranges -/

section

variable {env : CreateEnv} {others : List Call} {i : Input} {w w' : World} {c c' : Call}
  {db db' : Db} {m m' : Merchant} {n : Nat}

/-- What has one more element that counts. -/
theorem countP_lt_countP {α : Type} {p q : α → Bool} {l : List α} {x : α}
    (himp : ∀ a, p a = true → q a = true) (hx : x ∈ l) (hp : p x = false) (hq : q x = true) :
    l.countP p < l.countP q := by
  induction l with
  | nil => cases hx
  | cons a l ih =>
    rw [List.countP_cons, List.countP_cons]
    rcases List.mem_cons.mp hx with rfl | hx
    · have hle : l.countP p ≤ l.countP q := List.countP_mono_left fun b _ => himp b
      rw [hp, hq]
      exact Nat.lt_succ_of_le hle
    · have hlt := ih hx
      by_cases ha : p a = true
      · rw [ha, himp a ha]
        exact Nat.succ_lt_succ hlt
      · rw [if_neg ha]
        omega

/-- A merchant that was created later has a range above. -/
theorem newBase_lt (hm' : m' ∈ db.merchants) (h : m.createdAt < m'.createdAt) :
    newBase db m + 16777216 ≤ newBase db m' := by
  have hlt := countP_lt_countP (p := fun a : Merchant => decide (a.createdAt ≤ m.createdAt))
    (q := fun a => decide (a.createdAt ≤ m'.createdAt)) (l := db.merchants.rows) (x := m')
    (fun a ha => decide_eq_true ((of_decide_eq_true ha).trans h.le)) hm'
    (decide_eq_false (not_le.mpr h)) (decide_eq_true le_rfl)
  unfold newBase
  omega

/-- Merchants that were created at different times have ranges of their own. -/
theorem newBase_apart (hm : m ∈ db.merchants) (hm' : m' ∈ db.merchants)
    (hne : m.createdAt ≠ m'.createdAt) : newBase db m ≠ newBase db m' := by
  rcases lt_or_gt_of_ne hne with h | h
  · have := newBase_lt hm' h
    omega
  · have := newBase_lt hm h
    omega

/-! ## What holds of the merchants and of a call -/

/-- The bases are those of the counts, and the numbers are above the bases. -/
structure Ranges (w : World) : Prop where
  base : ∀ m ∈ w.db.merchants, ∀ b, m.muxedBaseId = some b → b = newBase w.db m
  seq : ∀ m ∈ w.db.merchants, 0 ≤ m.invoiceSeq
  numbers : ∀ x ∈ w.numbers, ∃ m ∈ w.db.merchants, ∃ b, m.muxedBaseId = some b ∧
    b < x ∧ x ≤ b + m.invoiceSeq ∧ x ≤ b + 16777216
  nodup : w.numbers.Nodup
  invoices : ∀ r ∈ w.db.invoices, r.muxedId ∈ w.numbers

/-- The base with which a call is about to take a number. -/
def Call.counting : Call → Option (Uuid × Int)
  | .running _ _ (.nextSequence q _ base) => some (q.merchant.id, base)
  | _ => none

/-- A call gives the base of the count to its merchant alone, and takes numbers above that;
what it holds is held by no row. -/
structure Holds (w : World) (c : Call) : Prop where
  giving : ∀ g ∈ c.giving, (∃ m ∈ w.db.merchants, m.id = g.1 ∧ g.2 = newBase w.db m) ∧
    ∀ m ∈ w.db.merchants, m.muxedBaseId = some g.2 → m.id = g.1
  counting : ∀ g ∈ c.counting, ∃ m ∈ w.db.merchants, m.id = g.1 ∧ m.muxedBaseId = some g.2
  nodup : c.held.Nodup
  held : ∀ x ∈ c.held, x ∈ w.numbers ∧ ∀ r ∈ w.db.invoices, r.muxedId ≠ x

/-- Two calls hold different numbers, and give different bases to different merchants. -/
structure Apart (c c' : Call) : Prop where
  held : List.Disjoint c.held c'.held
  giving : ∀ g ∈ c.giving, ∀ g' ∈ c'.giving, g.2 = g'.2 → g.1 = g'.1

theorem Apart.symm (h : Apart c c') : Apart c' c where
  held _ hx hx' := h.held hx' hx
  giving g hg g' hg' heq := (h.giving g' hg' g hg heq.symm).symm

/-- What a step does: bases and numbers stay, a base is given, and rows are inserted. -/
structure Changes (w w' : World) (given : Option (Uuid × Int)) (taken : List Int) : Prop where
  forth : ∀ m ∈ w.db.merchants, ∃ m' ∈ w'.db.merchants, m'.id = m.id ∧
    m'.createdAt = m.createdAt ∧ m.invoiceSeq ≤ m'.invoiceSeq ∧
    ∀ b, m.muxedBaseId = some b → m'.muxedBaseId = some b
  back : ∀ m' ∈ w'.db.merchants, ∀ b, m'.muxedBaseId = some b → ∃ m ∈ w.db.merchants,
    m.id = m'.id ∧ m.createdAt = m'.createdAt ∧
    (m.muxedBaseId = some b ∨ (m.id, b) ∈ given)
  numbers : ∀ x ∈ w.numbers, x ∈ w'.numbers
  invoices : ∀ r ∈ w'.db.invoices,
    (∃ r₀ ∈ w.db.invoices, r₀.muxedId = r.muxedId) ∨ r.muxedId ∈ taken

/-- The count up to a merchant depends on its time alone. -/
theorem newBase_congr (h : m.createdAt = m'.createdAt) : newBase db m = newBase db m' := by
  unfold newBase
  rw [h]

/-- The merchant that a call gives a base to has one for the order. -/
theorem hasBase_of_giving {g : Uuid × Int} (hg : g ∈ c.giving) (hid : m.id = g.1) :
    hasBase [c] m = true := by
  rw [hasBase, Bool.or_eq_true]
  refine .inr (List.any_eq_true.mpr ⟨c, List.mem_singleton_self c, ?_⟩)
  rw [Option.mem_def.mp hg, Option.any_some, hid]
  exact beq_self_eq_true _

/-- **The other calls** hold what they held. -/
theorem Holds.changes {o : Call} {given : Option (Uuid × Int)} {taken : List Int}
    (h : Holds w o) (hchanges : Changes w w' given taken)
    (hcount : ∀ m ∈ w.db.merchants, hasBase [o] m = true → newBase w'.db m = newBase w.db m)
    (hgiven : ∀ g ∈ given, ∀ g' ∈ o.giving, g.2 = g'.2 → g.1 = g'.1)
    (htaken : List.Disjoint taken o.held) : Holds w' o := by
  constructor
  · intro g hg
    obtain ⟨⟨m, hm, hid, hbase⟩, honly⟩ := h.giving g hg
    constructor
    · obtain ⟨m', hm', hid', hcreated, -⟩ := hchanges.forth m hm
      refine ⟨m', hm', hid'.trans hid, ?_⟩
      rw [hbase, ← hcount m hm (hasBase_of_giving hg hid)]
      exact newBase_congr hcreated.symm
    · intro m' hm' hb
      obtain ⟨m, hm, hid, -, hstays | hgives⟩ := hchanges.back m' hm' _ hb
      · exact hid ▸ honly m hm hstays
      · exact hid ▸ hgiven _ hgives g hg rfl
  · intro g hg
    obtain ⟨m, hm, hid, hbase⟩ := h.counting g hg
    obtain ⟨m', hm', hid', -, -, hstays⟩ := hchanges.forth m hm
    exact ⟨m', hm', hid'.trans hid, hstays _ hbase⟩
  · exact h.nodup
  · intro x hx
    obtain ⟨hnumber, hfree⟩ := h.held x hx
    refine ⟨hchanges.numbers x hnumber, fun r hr heq => ?_⟩
    rcases hchanges.invoices r hr with ⟨r₀, hr₀, hid⟩ | hr
    · exact hfree r₀ hr₀ (hid.trans heq)
    · exact htaken (heq ▸ hr) hx

/-- **The merchants** keep the bases of their counts. -/
theorem Ranges.changes (h : Ranges w) (hc : Holds w c) (hchanges : Changes w w' c.giving c.held)
    (hcount : ∀ m ∈ w.db.merchants, hasBase [c] m = true → newBase w'.db m = newBase w.db m)
    (hseq : ∀ m ∈ w'.db.merchants, 0 ≤ m.invoiceSeq) (hnodup : w'.numbers.Nodup)
    (hnew : ∀ x ∈ w'.numbers, x ∈ w.numbers ∨ ∃ m ∈ w'.db.merchants, ∃ b,
      m.muxedBaseId = some b ∧ b < x ∧ x ≤ b + m.invoiceSeq ∧ x ≤ b + 16777216) :
    Ranges w' := by
  constructor
  · intro m' hm' b hb
    obtain ⟨m, hm, hid, hcreated, hstays | hgives⟩ := hchanges.back m' hm' b hb
    · have hhas : hasBase [c] m = true := by
        rw [hasBase, hstays]
        rfl
      rw [h.base m hm b hstays, ← hcount m hm hhas]
      exact newBase_congr hcreated
    · obtain ⟨⟨m₀, hm₀, hid₀, hbase⟩, -⟩ := hc.giving _ hgives
      cases eq_of_id hm₀ hm hid₀
      calc b = newBase w.db m := hbase
        _ = newBase w'.db m := (hcount m hm (hasBase_of_giving hgives rfl)).symm
        _ = newBase w'.db m' := newBase_congr hcreated
  · exact hseq
  · intro x hx
    rcases hnew x hx with hx | hx
    · obtain ⟨m, hm, b, hb, hlt, hle, hmax⟩ := h.numbers x hx
      obtain ⟨m', hm', -, -, hseq, hstays⟩ := hchanges.forth m hm
      exact ⟨m', hm', b, hstays b hb, hlt, by omega, hmax⟩
    · exact hx
  · exact hnodup
  · intro r hr
    rcases hchanges.invoices r hr with ⟨r₀, hr₀, hid⟩ | hr
    · exact hchanges.numbers _ (hid ▸ h.invoices r₀ hr₀)
    · exact hchanges.numbers _ (hc.held _ hr).1

/-! ## What a step of a call does -/

/-- An update of merchants that keeps ids, times and bases, but for the one given. -/
structure Updates (db : Db) (f : Merchant → Merchant) (given : Option (Uuid × Int)) : Prop where
  id : ∀ m ∈ db.merchants, (f m).id = m.id
  createdAt : ∀ m ∈ db.merchants, (f m).createdAt = m.createdAt
  seq : ∀ m ∈ db.merchants, m.invoiceSeq ≤ (f m).invoiceSeq
  forth : ∀ m ∈ db.merchants, ∀ b, m.muxedBaseId = some b → (f m).muxedBaseId = some b
  back : ∀ m ∈ db.merchants, ∀ b, (f m).muxedBaseId = some b →
    m.muxedBaseId = some b ∨ (m.id, b) ∈ given

theorem updates_id (db : Db) (given : Option (Uuid × Int)) : Updates db id given where
  id _ _ := rfl
  createdAt _ _ := rfl
  seq _ _ := le_rfl
  forth _ _ _ hb := hb
  back _ _ _ hb := .inl hb

theorem Updates.changes {f : Merchant → Merchant} {given : Option (Uuid × Int)}
    {taken : List Int} (h : Updates w.db f given)
    (hrows : w'.db.merchants.rows = w.db.merchants.rows.map f)
    (hnumbers : ∀ x ∈ w.numbers, x ∈ w'.numbers)
    (hinvoices : ∀ r ∈ w'.db.invoices, r ∈ w.db.invoices ∨ r.muxedId ∈ taken) :
    Changes w w' given taken where
  forth m hm := by
    refine ⟨f m, ?_, h.id m hm, h.createdAt m hm, h.seq m hm, h.forth m hm⟩
    rw [← Table.mem_rows, hrows]
    exact List.mem_map_of_mem hm
  back m' hm' b hb := by
    rw [← Table.mem_rows, hrows] at hm'
    obtain ⟨m, hm, rfl⟩ := List.mem_map.mp hm'
    exact ⟨m, hm, (h.id m hm).symm, (h.createdAt m hm).symm, h.back m hm b hb⟩
  numbers := hnumbers
  invoices r hr := (hinvoices r hr).imp_left fun hr => ⟨r, hr, rfl⟩

/-- The counts stay where the times do. -/
theorem Updates.newBase {f : Merchant → Merchant} {given : Option (Uuid × Int)}
    (h : Updates db f given) (hrows : db'.merchants.rows = db.merchants.rows.map f)
    (m : Merchant) : newBase db' m = newBase db m := by
  unfold CreateCalls.newBase
  rw [hrows, List.countP_map]
  congr 2
  refine List.countP_congr fun a ha => ?_
  rw [Function.comp_apply, h.createdAt a ha]

/-- A statement gives a base, counts an invoice, or leaves the merchants alone. -/
theorem updates_leads {now : Timestamp} {args : Args} {tx : Option Tx} {pc : Pc} {next : Next}
    {db : Db} (h : Leads env now args w.db pc next db) (hw : Ranges w)
    (hc : Holds w (.running args tx pc)) : ∃ f,
      Updates w.db f (Call.running args tx pc).giving ∧
      db.merchants.rows = w.db.merchants.rows.map f := by
  cases h with
  | @updated q check base db hupdate =>
    obtain ⟨⟨m₀, hm₀, hid₀, hbase⟩, -⟩ := hc.giving (q.merchant.id, base) rfl
    refine ⟨_, ?_, rows_of_updateBase hupdate⟩
    constructor
    · intro m _
      split <;> rfl
    · intro m _
      split <;> rfl
    · intro m _
      split <;> exact le_rfl
    · intro m hm b hb
      split
      · next hid =>
        -- it had the base of its count before
        cases eq_of_id hm₀ hm (hid₀.trans (beq_iff_eq.mp hid).symm)
        rw [hw.base m₀ hm₀ b hb]
        exact congrArg some hbase
      · exact hb
    · intro m hm b hb
      by_cases hid : m.id = q.merchant.id
      · rw [if_pos (beq_iff_eq.mpr hid)] at hb
        cases hb
        refine .inr ?_
        rw [hid]
        rfl
      · rw [if_neg fun h => hid (beq_iff_eq.mp h)] at hb
        exact .inl hb
  | @numbered q check base next m₀ db hfind hnext =>
    refine ⟨fun m => if m.id == m₀.id then countInvoice m else m, ?_,
      (nextInvoiceSequence_spec hnext).2⟩
    constructor
    · intro m _
      split <;> rfl
    · intro m _
      split <;> rfl
    · intro m _
      split
      · exact Int.le_add_one le_rfl
      · exact le_rfl
    · intro m _ b hb
      split <;> exact hb
    · intro m _ b hb
      split at hb <;> exact .inl hb
  | @saved k r =>
    refine ⟨id, updates_id _ _, ?_⟩
    obtain ⟨_, heq⟩ := Idempotency.save_eq w.db args.merchantId k (env.hashBody args.input)
      (.invoice r)
    rw [List.map_id, heq]
  | _ => exact ⟨id, updates_id _ _, (List.map_id _).symm⟩

theorem Changes.refl (w : World) (given : Option (Uuid × Int)) (taken : List Int) :
    Changes w w given taken :=
  (updates_id w.db given).changes (List.map_id _).symm (fun _ hx => hx) fun _ hr => .inl hr

/-- **What a step of a call does** to the merchants and the invoices. -/
theorem changes_moves (h : Moves env others i w c w' c') (hw : Ranges w) (hc : Holds w c) :
    Changes w w' c.giving c.held ∧ (∀ m, newBase w'.db m = newBase w.db m) ∧
      ∀ m ∈ w'.db.merchants, 0 ≤ m.invoiceSeq := by
  cases h with
  | ran hleads =>
    obtain ⟨f, hf, hrows⟩ := updates_leads hleads hw hc
    refine ⟨hf.changes hrows (fun _ => List.mem_append_left _) fun r hr => ?_,
      hf.newBase hrows, fun m' hm' => ?_⟩
    · exact .inl ((leads_cases hleads).1 ▸ hr)
    · rw [← Table.mem_rows, hrows] at hm'
      obtain ⟨m, hm, rfl⟩ := List.mem_map.mp hm'
      exact (hw.seq m hm).trans (hf.seq m hm)
  | @inserted now id w args q check muxedId r invoices hrow hfree hins =>
    refine ⟨(updates_id w.db _).changes (List.map_id _).symm (fun _ hx => hx) fun r' hr' => ?_,
      fun _ => rfl, hw.seq⟩
    rcases (Table.mem_of_insert? hins r').mp hr' with hr' | rfl
    · exact .inl hr'
    · refine .inr (List.mem_append_right _ ?_)
      rw [(key_of_rowOf hrow).2.2.2]
      exact List.mem_singleton_self _
  | @committed now id merchantId w tx invoices hcommit =>
    refine ⟨(updates_id w.db _).changes (List.map_id _).symm (fun _ hx => hx) fun r' hr' => ?_,
      fun _ => rfl, hw.seq⟩
    rw [← Table.mem_rows, rows_of_commit hcommit] at hr'
    rcases List.mem_append.mp hr' with hr' | hr'
    · exact .inl hr'
    · exact .inr (List.mem_map_of_mem hr')
  | pended hrow hfree hown =>
    exact ⟨(updates_id w.db _).changes (List.map_id _).symm (fun _ hx => hx) fun _ hr => .inl hr,
      fun _ => rfl, hw.seq⟩
  | _ => exact ⟨.refl _ _ _, fun _ => rfl, hw.seq⟩

/-! ## What a call holds after a step -/

/-- The muxed ids of the rows of a transaction. -/
def heldBy : Option Tx → List Int
  | some tx => (tx.rows.map Prod.snd).map Invoice.muxedId
  | none => []

theorem held_running (args : Args) (tx : Option Tx) (pc : Pc) :
    (Call.running args tx pc).held = heldBy tx := by
  cases tx <;> rfl

theorem held_inserting (args : Args) (tx : Option Tx) (q : Quote) (check : Checked)
    (muxedId : Int) : (Call.inserting args tx q check muxedId).held = heldBy tx ++ [muxedId] := by
  cases tx <;> rfl

/-- A call that neither gives a base nor takes a number, and holds what it held at most. -/
structure Settles (held : List Int) (c : Call) : Prop where
  giving : c.giving = none
  counting : c.counting = none
  held : List.Sublist c.held held

theorem settles_entered {args : Args} {tx : Option Tx} (h : Entered args tx c) :
    Settles (heldBy tx) c := by
  cases h with
  | keyed _ => exact ⟨rfl, rfl, (held_running args tx _).symm ▸ .refl _⟩
  | plain _ _ => exact ⟨rfl, rfl, (held_running args tx _).symm ▸ .refl _⟩
  | threw => exact ⟨rfl, rfl, List.nil_sublist _⟩

theorem settles_nextInput (merchantId : Uuid) (tx : Tx) :
    Settles (heldBy (some tx)) (nextInput merchantId tx) :=
  nextInput_of merchantId tx ⟨rfl, rfl, .refl _⟩ fun _ _ _ => settles_entered

theorem settles_finish (args : Args) (tx : Option Tx) (response : Response) :
    Settles (heldBy tx) (finish args tx response) := by
  cases tx with
  | none => exact ⟨rfl, rfl, .refl _⟩
  | some tx => exact settles_nextInput args.merchantId tx

theorem Settles.holds (h : Settles c.held c') (hc : Holds w c)
    (hnumbers : ∀ x ∈ w.numbers, x ∈ w'.numbers)
    (hinvoices : ∀ r ∈ w'.db.invoices, r ∈ w.db.invoices ∨ c'.held = []) : Holds w' c' where
  giving g hg := by
    rw [h.giving] at hg
    cases hg
  counting g hg := by
    rw [h.counting] at hg
    cases hg
  nodup := hc.nodup.sublist h.held
  held x hx := by
    obtain ⟨hnumber, hfree⟩ := hc.held x (h.held.subset hx)
    refine ⟨hnumbers x hnumber, fun r hr => ?_⟩
    rcases hinvoices r hr with hr | hnil
    · exact hfree r hr
    · rw [hnil] at hx
      cases hx

theorem Settles.apart {o : Call} (h : Settles c.held c') (happart : Apart c o) : Apart c' o where
  held _ hx hx' := happart.held (h.held.subset hx) hx'
  giving g hg := by
    rw [h.giving] at hg
    cases hg

/-! ## Steps that give a base or take a number -/

/-- The ranges of two merchants do not meet. -/
theorem number_ne {b b' seq x : Int} {k k' : Nat} (hb : b = k * 16777216)
    (hb' : b' = k' * 16777216) (hne : b ≠ b') (hlt : b' < x) (hle : x ≤ b' + 16777216)
    (hseq : 0 ≤ seq) (hmax : seq < 16777216) : x ≠ b + (seq + 1) := by
  subst hb hb'
  rcases lt_or_gt_of_ne (show (k : Int) ≠ k' by rintro heq; exact hne (by rw [heq])) with h | h
  · omega
  · omega

/-- Of two merchants, one has the base. -/
theorem eq_of_base {b : Int} (hm : m ∈ db.merchants) (hm' : m' ∈ db.merchants)
    (hb : m.muxedBaseId = some b) (hb' : m'.muxedBaseId = some b) : m = m' := by
  refine Table.eq_of_conflict hm hm' (.inr ⟨hb.trans hb'.symm, fun hnone => ?_⟩)
  have hnone : m.muxedBaseId = none := hnone
  rw [hb] at hnone
  cases hnone

/-- A new number was not computed before. -/
theorem not_mem_numbers {b : Int} (hw : Ranges w) (hm : m ∈ w.db.merchants)
    (hb : m.muxedBaseId = some b) (hmax : m.invoiceSeq < 16777216) :
    b + (m.invoiceSeq + 1) ∉ w.numbers := by
  intro hx
  obtain ⟨m', hm', b', hb', hlt, hle, hmax'⟩ := hw.numbers _ hx
  by_cases heq : b = b'
  · subst heq
    cases eq_of_base hm hm' hb hb'
    omega
  · exact number_ne (hw.base m hm b hb) (hw.base m' hm' b' hb') heq hlt hmax' (hw.seq m hm) hmax
      rfl

/-- What a call does when it takes a number. -/
theorem numbered_holds {now : Timestamp} {args : Args} {tx : Option Tx} {q : Quote}
    {check : Checked} {base next : Int} {db : Db}
    (hfind : findOne w.db q.merchant.id = some m)
    (hnext : nextInvoiceSequence w.db m = .ok (next, db))
    (hleads : Leads env now args w.db (.nextSequence q check base)
      (.insert q check (base + next)) db)
    (hok : outOfOrder w others (.running args tx (.nextSequence q check base)) = false)
    (hw : Ranges w) (hc : Holds w (.running args tx (.nextSequence q check base))) :
    Ranges { w with db, numbers := w.numbers ++ [base + next] } ∧
      Holds { w with db, numbers := w.numbers ++ [base + next] }
        (.inserting args tx q check (base + next)) ∧ base + next ∉ w.numbers := by
  have hmoves : Moves env others (.exec now 0) w (.running args tx (.nextSequence q check base))
      { w with db, numbers := w.numbers ++ [base + next] }
      (.inserting args tx q check (base + next)) := .ran hleads
  obtain ⟨hchanges, hcount, hseq⟩ := changes_moves hmoves hw hc
  obtain ⟨m₀, hm₀, hid₀, hbase⟩ := hc.counting _ rfl
  obtain ⟨hm, hid⟩ := Table.find?_some hfind
  have heq : m₀ = m := eq_of_id hm₀ hm (hid₀.trans (beq_iff_eq.mp hid).symm)
  subst heq
  obtain ⟨rfl, hrows⟩ := nextInvoiceSequence_spec hnext
  -- the counter is not used up
  have hmax : m₀.invoiceSeq < 16777216 := by
    by_contra hge
    have hused : exhausted w q.merchant.id = true := by
      rw [exhausted, hfind, Option.any_some]
      exact decide_eq_true (not_lt.mp hge)
    have hleft : exhausted w q.merchant.id = false := hok
    exact absurd (hleft.symm.trans hused) nofun
  have hnew := not_mem_numbers hw hm hbase hmax
  have hsame : ∀ r ∈ db.invoices, r ∈ w.db.invoices := fun r hr => (leads_cases hleads).1 ▸ hr
  refine ⟨hw.changes hc hchanges (fun m _ _ => hcount m) hseq ?_ ?_, ?_, hnew⟩
  · exact List.nodup_append.mpr ⟨hw.nodup, List.nodup_singleton _, fun x hx y hy heq => by
      rw [List.mem_singleton.mp hy] at heq
      exact hnew (heq ▸ hx)⟩
  · intro x hx
    rcases List.mem_append.mp hx with hx | hx
    · exact .inl hx
    · rw [List.mem_singleton.mp hx]
      refine .inr ⟨countInvoice m₀, ?_, base, hbase, ?_, ?_, ?_⟩
      · rw [← Table.mem_rows, hrows]
        exact List.mem_map.mpr ⟨m₀, hm, if_pos (beq_self_eq_true _)⟩
      · have := hw.seq m₀ hm
        omega
      · exact le_rfl
      · omega
  · have hheld := held_running args tx (.nextSequence q check base)
    constructor
    · intro g hg
      cases hg
    · intro g hg
      cases hg
    · rw [held_inserting]
      refine List.nodup_append.mpr
        ⟨hheld ▸ hc.nodup, List.nodup_singleton _, fun x hx y hy heq => ?_⟩
      rw [List.mem_singleton.mp hy] at heq
      exact hnew (heq ▸ (hc.held x (hheld ▸ hx)).1)
    · intro x hx
      rw [held_inserting] at hx
      rcases List.mem_append.mp hx with hx | hx
      · obtain ⟨hnumber, hfree⟩ := hc.held x (hheld ▸ hx)
        exact ⟨List.mem_append_left _ hnumber, fun r hr => hfree r (hsame r hr)⟩
      · refine ⟨List.mem_append_right _ hx, fun r hr heq => hnew ?_⟩
        rw [← List.mem_singleton.mp hx, ← heq]
        exact hw.invoices r (hsame r hr)

/-- Where no other merchant with a base has the time of this one, its count is its own. -/
theorem id_eq_of_newBase {id : Uuid} (hown : sameTime w others id = false)
    (hfind : findOne w.db id = some m) (hm' : m' ∈ w.db.merchants)
    (hhas : hasBase others m' = true) (hbase : newBase w.db m' = newBase w.db m) :
    m'.id = id := by
  obtain ⟨hm, -⟩ := Table.find?_some hfind
  have htime : m'.createdAt = m.createdAt := by
    by_contra hne
    exact newBase_apart hm' hm hne hbase
  by_contra hid
  have hsame : sameTime w others id = true := by
    rw [sameTime, hfind, Option.any_some]
    refine List.any_eq_true.mpr ⟨m', hm', ?_⟩
    rw [hhas, htime, beq_self_eq_true, Bool.true_and, Bool.true_and]
    exact bne_iff_ne.mpr hid
  exact absurd (hown.symm.trans hsame) nofun

theorem hasBase_mono {calls calls' : List Call} (h : ∀ c ∈ calls, c ∈ calls')
    (hhas : hasBase calls m = true) : hasBase calls' m = true := by
  rw [hasBase, Bool.or_eq_true] at hhas ⊢
  refine hhas.imp id fun hany => ?_
  obtain ⟨c, hc, hgives⟩ := List.any_eq_true.mp hany
  exact List.any_eq_true.mpr ⟨c, h c hc, hgives⟩

/-- What a call does when it has counted. -/
theorem counted_holds {args : Args} {tx : Option Tx} {q : Quote} {check : Checked}
    (hfind : findOne w.db q.merchant.id = some m)
    (hown : sameTime w others q.merchant.id = false) (hw : Ranges w)
    (hc : Holds w (.running args tx (.countMerchants q check))) :
    Holds w (.running args tx (.updateBase q check (newBase w.db m))) ∧
      ∀ o ∈ others, Holds w o → Apart (.running args tx (.countMerchants q check)) o →
        Apart (.running args tx (.updateBase q check (newBase w.db m))) o := by
  obtain ⟨hm, hid⟩ := Table.find?_some hfind
  have hsame : (Call.running args tx (.updateBase q check (newBase w.db m))).held
      = (Call.running args tx (.countMerchants q check)).held := by
    rw [held_running, held_running]
  constructor
  · constructor
    · intro g hg
      cases hg
      refine ⟨⟨m, hm, beq_iff_eq.mp hid, rfl⟩, fun m' hm' hb => ?_⟩
      have hhas : hasBase others m' = true := by
        rw [hasBase, hb]
        rfl
      exact id_eq_of_newBase hown hfind hm' hhas (hw.base m' hm' _ hb).symm
    · intro g hg
      cases hg
    · exact hsame ▸ hc.nodup
    · exact hsame ▸ hc.held
  · intro o ho hholds happart
    constructor
    · exact hsame ▸ happart.held
    · intro g hg g' hg' heq
      cases hg
      obtain ⟨⟨m', hm', hid', hbase⟩, -⟩ := hholds.giving g' hg'
      have hhas : hasBase others m' = true :=
        hasBase_mono (fun c hc => List.mem_singleton.mp hc ▸ ho) (hasBase_of_giving hg' hid')
      have := id_eq_of_newBase hown hfind hm' hhas (hbase.symm.trans heq.symm)
      exact this.symm.trans hid'

/-- What a call does when it has its base. -/
theorem counting_holds {args : Args} {tx : Option Tx} {pc : Pc} {q : Quote} {check : Checked}
    {base : Int} (hc : Holds w (.running args tx pc))
    (hnumbers : ∀ x ∈ w.numbers, x ∈ w'.numbers) (hinvoices : w'.db.invoices = w.db.invoices)
    (hm : m ∈ w'.db.merchants) (hid : m.id = q.merchant.id) (hb : m.muxedBaseId = some base) :
    Holds w' (.running args tx (.nextSequence q check base)) := by
  have hsame : (Call.running args tx (.nextSequence q check base)).held
      = (Call.running args tx pc).held := by
    rw [held_running, held_running]
  constructor
  · intro g hg
    cases hg
  · intro g hg
    cases hg
    exact ⟨m, hm, hid, hb⟩
  · exact hsame ▸ hc.nodup
  · intro x hx
    obtain ⟨hnumber, hfree⟩ := hc.held x (hsame ▸ hx)
    exact ⟨hnumbers x hnumber, fun r hr => hfree r (hinvoices ▸ hr)⟩

theorem counting_apart {args : Args} {tx : Option Tx} {pc : Pc} {q : Quote} {check : Checked}
    {base : Int} {o : Call} (happart : Apart (.running args tx pc) o) :
    Apart (.running args tx (.nextSequence q check base)) o := by
  constructor
  · rw [held_running]
    exact held_running args tx pc ▸ happart.held
  · intro g hg
    cases hg

/-- The row whose base was written. -/
theorem mem_updateBase {id : Uuid} {base : Int} (h : updateBase db id base = some db')
    (hm : m ∈ db.merchants) (hid : m.id = id) :
    { m with muxedBaseId := some base } ∈ db'.merchants := by
  rw [← Table.mem_rows, rows_of_updateBase h]
  exact List.mem_map.mpr ⟨m, hm, if_pos (beq_iff_eq.mpr hid)⟩

/-! ## Every step -/

/-- A step that takes no number keeps the ranges. -/
theorem ranges_moves (h : Moves env others i w c w' c') (hw : Ranges w) (hc : Holds w c)
    (hnumbers : w'.numbers = w.numbers) : Ranges w' := by
  obtain ⟨hchanges, hcount, hseq⟩ := changes_moves h hw hc
  refine hw.changes hc hchanges (fun m _ _ => hcount m) hseq (hnumbers ▸ hw.nodup) fun x hx => ?_
  exact .inl (hnumbers ▸ hx)

/-- A statement but those that give a base, find one, or take a number. -/
theorem settles_leads {now : Timestamp} {args : Args} {tx : Option Tx} {pc : Pc} {next : Next}
    {db : Db} (h : Leads env now args w.db pc next db)
    (hgiving : (next.call args tx).giving = none)
    (hcounting : (next.call args tx).counting = none) (hnumbers : next.numbers = []) :
    Settles (Call.running args tx pc).held (next.call args tx) := by
  rw [held_running]
  cases next with
  | goto pc' => exact ⟨hgiving, hcounting, (held_running args tx pc').symm ▸ .refl _⟩
  | insert q check muxedId => cases hnumbers
  | done response => exact settles_finish args tx response

/-- **A statement** keeps what holds of the merchants, of its call and of any other. -/
theorem holds_leads {now : Timestamp} {args : Args} {tx : Option Tx} {pc : Pc} {next : Next}
    {db : Db} (h : Leads env now args w.db pc next db)
    (hok : outOfOrder w others (.running args tx pc) = false) (hw : Ranges w)
    (hc : Holds w (.running args tx pc)) :
    Ranges { w with db, numbers := w.numbers ++ next.numbers } ∧
      Holds { w with db, numbers := w.numbers ++ next.numbers } (next.call args tx) ∧
      ∀ o ∈ others, Holds w o → Apart (.running args tx pc) o → Apart (next.call args tx) o := by
  have hmoves : Moves env others (.exec now 0) w (.running args tx pc)
      { w with db, numbers := w.numbers ++ next.numbers } (next.call args tx) := .ran h
  have hinvoices := (leads_cases h).1
  have hranges : next.numbers = [] →
      Ranges { w with db, numbers := w.numbers ++ next.numbers } := fun hnone => by
    refine ranges_moves hmoves hw hc ?_
    rw [hnone, List.append_nil]
  have hsettles : (next.call args tx).giving = none → (next.call args tx).counting = none →
      next.numbers = [] →
      Ranges { w with db, numbers := w.numbers ++ next.numbers } ∧
        Holds { w with db, numbers := w.numbers ++ next.numbers } (next.call args tx) ∧
        ∀ o ∈ others, Holds w o → Apart (.running args tx pc) o →
          Apart (next.call args tx) o := fun hgiving hcounting hnone => by
    have hs := settles_leads h hgiving hcounting hnone
    refine ⟨hranges hnone, hs.holds hc (fun _ => List.mem_append_left _) fun r hr => ?_,
      fun o _ _ happart => hs.apart happart⟩
    exact .inl (hinvoices ▸ hr)
  have hleads := h
  cases h with
  | @replayed key cached hcheck =>
    have hs := settles_finish args tx cached
    exact hsettles hs.giving hs.counting rfl
  | @found key invoice hfind | @saved key invoice =>
    have hs := settles_finish args tx (.invoice invoice)
    exact hsettles hs.giving hs.counting rfl
  | @based q check base hbase =>
    obtain ⟨m, hfind, hb⟩ := Option.bind_eq_some_iff.mp hbase
    obtain ⟨hm, hid⟩ := Table.find?_some hfind
    exact ⟨hranges rfl, counting_holds hc (fun _ => List.mem_append_left _) rfl hm
      (beq_iff_eq.mp hid) hb, fun o _ _ happart => counting_apart happart⟩
  | @counted q check m hfind =>
    obtain ⟨hholds, happart⟩ := counted_holds hfind hok hw hc
    have hworld : { w with numbers := w.numbers ++ [] } = w := by rw [List.append_nil]
    refine ⟨hranges rfl, ?_, happart⟩
    show Holds { w with numbers := w.numbers ++ [] } _
    rw [hworld]
    exact hholds
  | @updated q check base db hupdate =>
    obtain ⟨⟨m, hm, hid, -⟩, -⟩ := hc.giving _ rfl
    exact ⟨hranges rfl, counting_holds hc (fun _ => List.mem_append_left _) hinvoices
      (mem_updateBase hupdate hm hid) hid rfl, fun o _ _ happart => counting_apart happart⟩
  | @numbered q check base next m db hfind hnext =>
    obtain ⟨hranges, hholds, hnew⟩ := numbered_holds hfind hnext hleads hok hw hc
    refine ⟨hranges, hholds, fun o _ ho happart => ⟨?_, ?_⟩⟩
    · intro x hx hx'
      rw [Next.call, held_inserting] at hx
      rcases List.mem_append.mp hx with hx | hx
      · exact happart.held (held_running args tx _ ▸ hx) hx'
      · exact hnew (List.mem_singleton.mp hx ▸ (ho.held x hx').1)
    · intro g hg
      cases hg
  | _ => exact hsettles rfl rfl rfl

theorem Settles.of_nil (h : Settles [] c) (held : List Int) : Settles held c :=
  ⟨h.giving, h.counting, h.held.trans (List.nil_sublist held)⟩

/-- **A step of a call** keeps what holds of the merchants, of the call and of any other. -/
theorem holds_moves (h : Moves env others i w c w' c') (hok : outOfOrder w others c = false)
    (hw : Ranges w) (hc : Holds w c) :
    Ranges w' ∧ Holds w' c' ∧ ∀ o ∈ others, Holds w o → Apart c o → Apart c' o := by
  have hmoves := h
  have hsettles : Settles c.held c' → w'.numbers = w.numbers →
      (∀ r ∈ w'.db.invoices, r ∈ w.db.invoices ∨ c'.held = []) →
      Ranges w' ∧ Holds w' c' ∧ ∀ o ∈ others, Holds w o → Apart c o → Apart c' o :=
    fun hs hnumbers hinvoices =>
      ⟨ranges_moves hmoves hw hc hnumbers, hs.holds hc (fun x hx => hnumbers ▸ hx) hinvoices,
        fun o _ _ happart => hs.apart happart⟩
  cases h with
  | started _ =>
    exact hsettles (.of_nil (settles_entered (entered_enter _ none)) _) rfl fun _ hr => .inl hr
  | @startedBulk merchantId inputs start w c _ =>
    have hs := settles_nextInput merchantId ⟨start, [], inputs⟩
    exact hsettles (hs.of_nil _) rfl fun _ hr => .inl hr
  | stopped hstop =>
    refine hsettles ?_ rfl fun _ hr => .inl hr
    rcases hstop with rfl | ⟨e, rfl⟩
    · exact ⟨rfl, rfl, List.nil_sublist _⟩
    · exact ⟨rfl, rfl, List.nil_sublist _⟩
  | ran hleads => exact holds_leads hleads hok hw hc
  | @inserted now id w args q check muxedId r invoices hrow hfree hins =>
    refine (fun hnil : Settles [] _ =>
      hsettles (hnil.of_nil _) rfl fun _ _ => .inr (List.sublist_nil.mp hnil.held)) ?_
    split
    · exact ⟨rfl, rfl, .refl _⟩
    · exact ⟨rfl, rfl, .refl _⟩
  | @pended now id w args tx q check muxedId r hrow hfree hown =>
    have hs := settles_nextInput args.merchantId { tx with rows := tx.rows ++ [(check, r)] }
    have hheld : heldBy (some { tx with rows := tx.rows ++ [(check, r)] })
        = (Call.inserting args (some tx) q check muxedId).held := by
      rw [held_inserting, heldBy, List.map_append, List.map_append, heldBy,
        ← (key_of_rowOf hrow).2.2.2]
      rfl
    exact hsettles (hheld ▸ hs) rfl fun _ hr => .inl hr
  | committed hcommit => exact hsettles ⟨rfl, rfl, List.nil_sublist _⟩ rfl fun _ _ => .inr rfl

/-! ## The other requests -/

/-- A merchant that registers last is counted for no other one. -/
theorem newBase_register {id : Uuid} {name : String} {createdAt : Timestamp}
    {merchants : Table Merchant}
    (hins : db.merchants.insert? (newMerchant id name createdAt) = some merchants)
    (hlast : m.createdAt < createdAt) : newBase { db with merchants } m = newBase db m := by
  unfold newBase
  rw [(Table.insert?_eq_some.mp hins).2, List.countP_append, List.countP_singleton,
    if_neg (by rw [decide_eq_true_eq]; exact not_le.mpr hlast), Nat.add_zero]

theorem changes_register {id : Uuid} {name : String} {createdAt : Timestamp}
    {merchants : Table Merchant}
    (hins : w.db.merchants.insert? (newMerchant id name createdAt) = some merchants) :
    Changes w { w with db := { w.db with merchants } } none [] where
  forth m hm :=
    ⟨m, (Table.mem_of_insert? hins m).mpr (.inl hm), rfl, rfl, le_rfl, fun _ hb => hb⟩
  back m' hm' b hb := by
    rcases (Table.mem_of_insert? hins m').mp hm' with hm' | rfl
    · exact ⟨m', hm', rfl, rfl, .inl hb⟩
    · cases hb
  numbers _ hx := hx
  invoices r hr := .inl ⟨r, hr, rfl⟩

theorem changes_setStatus (w : World) (p : Invoice → Bool) (s : InvoiceStatus) :
    Changes w { w with db := setStatus w.db p s } none [] where
  forth m hm := ⟨m, hm, rfl, rfl, le_rfl, fun _ hb => hb⟩
  back m' hm' b hb := ⟨m', hm', rfl, rfl, .inl hb⟩
  numbers _ hx := hx
  invoices r hr := by
    obtain ⟨r₀, hr₀, rfl⟩ := List.mem_map.mp hr
    refine .inl ⟨r₀, hr₀, ?_⟩
    split <;> rfl

/-- **A request** changes no number, and no count that was used. -/
theorem changes_request {r : Request} {calls : List Call} (hr : r.exec w.db = some db)
    (hok : backdated w calls r = false) (hw : Ranges w) :
    Changes w { w with db } none [] ∧
      (∀ m ∈ w.db.merchants, hasBase calls m = true → newBase db m = newBase w.db m) ∧
      ∀ m ∈ db.merchants, 0 ≤ m.invoiceSeq := by
  cases r with
  | register id name createdAt =>
    obtain ⟨merchants, hins, rfl⟩ := Option.map_eq_some_iff.mp hr
    refine ⟨changes_register hins, fun m hm hhas => newBase_register hins ?_, fun m hm => ?_⟩
    · by_contra hle
      have hback : backdated w calls (.register id name createdAt) = true := by
        refine List.any_eq_true.mpr ⟨m, hm, ?_⟩
        rw [hhas, Bool.true_and]
        exact decide_eq_true (not_lt.mp hle)
      exact absurd (hok.symm.trans hback) nofun
    · rcases (Table.mem_of_insert? hins m).mp hm with hm | rfl
      · exact hw.seq m hm
      · exact le_rfl
  | _ =>
    cases hr
    exact ⟨changes_setStatus _ _ _, fun _ _ _ => rfl, hw.seq⟩

theorem holds_resting (hgiving : c.giving = none) (hcounting : c.counting = none)
    (hheld : c.held = []) : Holds w c where
  giving g hg := by
    rw [hgiving] at hg
    cases hg
  counting g hg := by
    rw [hcounting] at hg
    cases hg
  nodup := hheld ▸ List.nodup_nil
  held x hx := by
    rw [hheld] at hx
    cases hx

/-! ## No collision -/

/-- **The ranges stay apart**, in every guarded run. -/
theorem ranges_local (env : CreateEnv) :
    (program env).Local inOrder Ranges Holds Apart where
  symm _ _ h := h.symm
  seq hexec hok hw hc _ :=
    have h := holds_moves (moves_of_exec hexec) hok hw hc
    ⟨h.1, h.2.1⟩
  free := by
    intro cs i w c w' c' hexec hok hw hc o ho hholds happart
    have hmoves := moves_of_exec hexec
    obtain ⟨hchanges, hcount, -⟩ := changes_moves hmoves hw hc
    exact ⟨hholds.changes hchanges (fun m _ _ => hcount m) happart.giving happart.held,
      (holds_moves hmoves hok hw hc).2.2 o ho hholds happart⟩
  env := by
    intro cs r w w' henv hok hw hcs
    obtain ⟨db, hdb, rfl⟩ := Option.map_eq_some_iff.mp henv
    obtain ⟨hchanges, hcount, hseq⟩ := changes_request hdb hok hw
    have hidle : Holds w .idle := holds_resting rfl rfl rfl
    refine ⟨hw.changes hidle hchanges (fun m hm hhas => hcount m hm ?_) hseq hw.nodup
      fun x hx => .inl hx, fun o ho => (hcs o ho).changes hchanges
        (fun m hm hhas => hcount m hm (hasBase_mono ?_ hhas)) nofun nofun⟩
    · rw [hasBase, List.any_cons, List.any_nil, Bool.or_false] at hhas
      rw [hasBase, show m.muxedBaseId.isSome = true by simpa [Call.giving] using hhas]
      rfl
    · intro c hc
      exact List.mem_singleton.mp hc ▸ ho

/-- What holds of the calls excludes collisions. -/
theorem not_collides (hc : Holds w c) (hcs : ∀ o ∈ others, Apart c o) :
    ¬ Collides w others c := by
  intro h
  cases c with
  | running args tx pc =>
    cases pc with
    | updateBase q check base =>
      obtain ⟨m, hm, hne, hb⟩ := h
      exact hne ((hc.giving (q.merchant.id, base) rfl).2 m hm hb)
    | _ => exact h
  | inserting args tx q check muxedId =>
    have hheld := held_inserting args tx q check muxedId
    have hself : muxedId ∈ (Call.inserting args tx q check muxedId).held :=
      hheld ▸ List.mem_append_right _ (List.mem_singleton_self _)
    rcases h with ⟨r, hr, heq⟩ | ⟨r, hr, heq⟩ | ⟨o, ho, r, hr, heq⟩
    · exact (hc.held muxedId hself).2 r hr heq
    · -- its own rows have other numbers
      have hnodup : (((Call.inserting args tx q check muxedId).pending.map Invoice.muxedId)
        ++ [muxedId]).Nodup := hc.nodup
      exact (List.nodup_append.mp hnodup).2.2 _ (List.mem_map_of_mem hr) _
        (List.mem_singleton_self _) heq
    · refine (hcs o ho).held hself ?_
      have hmem : muxedId ∈ o.pending.map Invoice.muxedId := heq ▸ List.mem_map_of_mem hr
      cases o with
      | inserting args tx q check muxedId' => exact List.mem_append_left _ hmem
      | _ => exact hmem
  | committing merchantId tx =>
    obtain ⟨r, hr, r', hr', heq⟩ := h
    have hmem : r.muxedId ∈ (Call.committing merchantId tx).held := List.mem_map_of_mem hr
    exact (hc.held r.muxedId hmem).2 r' hr' heq
  | _ => exact h

/-- **Where merchants come in the order of their creation and stay within their numbers, muxed
ids do not collide.** -/
theorem no_collision {db : Db} {n : Nat} {t : Program.Sys World Call n}
    {as : List (Program.Label Input Request n)} (hdb : Unallocated db)
    (hg : ((program env).interleave n).Guarded inOrder.admits (idle db n) as)
    (hrun : ((program env).interleave n).run (idle db n) as = some t) : NoCollision t := by
  have hidle : Holds ⟨db, [], []⟩ .idle := holds_resting rfl rfl rfl
  have hinv : Program.Inv Ranges Holds Apart t := by
    refine (ranges_local env).inv_of_guarded_run ⟨?_, fun _ => hidle, fun _ _ _ => ⟨?_, ?_⟩⟩ hg hrun
    · constructor
      · intro m hm b hb
        rw [(hdb.merchants m hm).1] at hb
        cases hb
      · intro m hm
        exact (hdb.merchants m hm).2.ge
      · intro x hx
        cases hx
      · exact List.nodup_nil
      · intro r hr
        have hr : r ∈ db.invoices.rows := hr
        rw [hdb.invoices] at hr
        cases hr
    · intro x hx
      cases hx
    · intro g hg
      cases hg
  refine ⟨hinv.db.nodup, fun k => not_collides (hinv.calls k) fun o ho => ?_⟩
  obtain ⟨j, hj, rfl⟩ := Program.Sys.mem_others.mp ho
  exact hinv.apart k j hj.symm

end

/-! ## Two merchants -/

/-- Nobody has registered yet. -/
def emptyDb : Db := { testDb with
  merchants := .empty
  invoices := .empty }

theorem unallocated_emptyDb : Unallocated emptyDb where
  merchants m hm := by cases hm
  invoices := rfl

/-- Two merchants register; the first one creates an invoice of 10 USDC, the second one runs
some statements of its call. -/
def twoMerchants (createdAt : Timestamp) (m : Nat) : List (Program.Label Input Request 2) :=
  .env (.register 1 "A" 0) :: .env (.register 2 "B" createdAt) ::
    .call 0 (.create ⟨1, tenUsdc, none⟩) :: statements 0 7 10 ++
    .call 1 (.create ⟨2, tenUsdc, none⟩) :: statements 1 8 m

theorem no_collision_inOrder : ∃ t,
    ((program testEnv).interleave 2).run (idle emptyDb 2) (twoMerchants 1 10) = some t ∧
    t.db.numbers = [16777217, 33554433] ∧ NoCollision t := by
  obtain ⟨t, hrun, hnumbers⟩ := Lts.exists_of_leadsTo _
    (fun s : Program.Sys World Call 2 => s.db.numbers = [16777217, 33554433])
    (idle emptyDb 2) (twoMerchants 1 10)
    (show ((program testEnv).interleave 2).leadsTo _ _ _ = true by decide +kernel)
  have hg : ((program testEnv).interleave 2).Guarded inOrder.admits (idle emptyDb 2)
      (twoMerchants 1 10) := by decide +kernel
  exact ⟨t, hrun, hnumbers, no_collision unallocated_emptyDb hg hrun⟩

/-- Is the second call about to give its merchant the base of another one? -/
def givesTaken (s : Program.Sys World Call 2) : Bool :=
  match s.calls 1 with
  | .running _ _ (.updateBase q _ base) => s.db.db.merchants.rows.any fun m =>
    m.id != q.merchant.id && m.muxedBaseId == some base
  | _ => false

/-- **Two merchants that were created at the same time** get the same base. -/
theorem same_time_collision : Unallocated emptyDb ∧ ∃ t,
    ((program testEnv).interleave 2).run (idle emptyDb 2) (twoMerchants 0 7) = some t ∧
    ¬ NoCollision t := by
  refine ⟨unallocated_emptyDb, ?_⟩
  obtain ⟨t, hrun, htaken⟩ := Lts.exists_of_leadsTo _ (fun s => givesTaken s = true)
    (idle emptyDb 2) (twoMerchants 0 7)
    (show ((program testEnv).interleave 2).leadsTo _ _ _ = true by decide +kernel)
  refine ⟨t, hrun, fun h => h.2 1 ?_⟩
  unfold givesTaken at htaken
  split at htaken
  · next args tx q check base hcall =>
    obtain ⟨m, hm, hp⟩ := List.any_eq_true.mp htaken
    rw [hcall]
    simp only [Bool.and_eq_true, bne_iff_ne, beq_iff_eq] at hp
    exact ⟨m, hm, hp.1, hp.2⟩
  · cases htaken

end Stargate.CreateCalls
