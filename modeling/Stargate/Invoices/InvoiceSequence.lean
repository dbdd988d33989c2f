import Stargate.Base.Transition
import Stargate.Invoices.CreateBulk

/-!
# `013_invoice_sequence.sql`

Before the migration the next muxed id of a merchant came from the number of its
invoices; after it, from the counter `invoice_seq`, which starts at 0 for everyone.

- `OldNumbering`: the numbers that the invoices had;
- `insertion`: the muxed id of the `INSERT` of a call;
- `Kept`, `Taken`: which numbers stay in use, and that no others are;
- `fresh_of_ahead`, `ahead_of_fresh`: an `INSERT` gets a new id if and only if the
  counter of the merchant has passed its old invoices;
- `inserts_fresh`: the same for every run of calls after the migration.
-/

namespace Stargate.Invoices

open Base

/-! ## The migration -/

/-- `ALTER TABLE merchants ADD COLUMN invoice_seq BIGINT NOT NULL DEFAULT 0`. The earlier
schema has no such column, so what it holds before means nothing. -/
def addInvoiceSeq (db : Db) : Db :=
  { db with
    merchants := db.merchants.modify (fun _ => true) (fun m => { m with invoiceSeq := 0 })
      fun _ => rfl }

/-- How many invoices a merchant has. -/
def invoiceCount (db : Db) (merchantId : Uuid) : Nat :=
  (db.invoices.rows.filter fun i => i.merchantId == merchantId).length

/-- The `n` invoices of a merchant have the muxed ids `base + 1`, ..., `base + n`. -/
structure OldNumbering (db : Db) : Prop where
  base : ∀ m ∈ db.merchants, ∀ b, m.muxedBaseId = some b → ∃ k : Nat, b = k * 16777216
  numbers : ∀ m ∈ db.merchants, ∀ b, m.muxedBaseId = some b →
    ((db.invoices.rows.filter fun i => i.merchantId == m.id).map Invoice.muxedId).Perm
      ((List.range (invoiceCount db m.id)).map fun s : Nat => b + (s + 1))
  owned : ∀ i ∈ db.invoices, ∃ m ∈ db.merchants, m.id = i.merchantId ∧ m.muxedBaseId ≠ none

/-! ## The calls -/

/-- A call of `create`. -/
structure CreateCall where
  now : Timestamp
  id : Uuid
  merchantId : Uuid
  input : CreateInput
  key : Option String

/-- Calls of `create`, one after the other. -/
def creates (env : CreateEnv) : Lts Db CreateCall where
  step db c := some (create env c.now c.id db c.merchantId c.input c.key).2

/-- The muxed id with which a call gets to its `INSERT`, and the database at that time. -/
def insertion (env : CreateEnv) (db : Db) (c : CreateCall) : Option (Int × Db) :=
  match (c.key.filter (· ≠ "")).elim (.ok none) (replay env db c.merchantId c.input) with
  | .ok none =>
    match quote env c.now db c.merchantId c.input with
    | .ok q =>
      match allocate env db q.merchant with
      | (.ok (muxedId, _), db) => some (muxedId, db)
      | (.error _, _) => none
    | .error _ => none
  | _ => none

/-- No invoice has the muxed id of the `INSERT`. -/
def Fresh (env : CreateEnv) (db : Db) (c : CreateCall) : Prop :=
  ∀ p ∈ insertion env db c, ∀ i ∈ p.2.invoices.rows, i.muxedId ≠ p.1

/-- The counter of the merchant has passed its old invoices, when a call gets to its
`INSERT`. -/
def Ahead (env : CreateEnv) (db₀ db : Db) (c : CreateCall) : Prop :=
  insertion env db c ≠ none → ∀ m ∈ db.merchants, m.id = c.merchantId →
    invoiceCount db₀ m.id ≤ m.invoiceSeq

/-- There is a number left in the range of the merchant. -/
def Within (env : CreateEnv) (db : Db) (c : CreateCall) : Prop :=
  insertion env db c ≠ none → ∀ m ∈ db.merchants, m.id = c.merchantId → m.invoiceSeq < 16777216

/-! ## What a call does to the merchants -/

section Advance

variable {env : CreateEnv} {db db' db'' : Db} {merchant : Merchant} {c : CreateCall}

/-- A merchant keeps its base, and its counter does not go back. -/
structure Advance (m m' : Merchant) : Prop where
  id : m'.id = m.id
  base : ∀ b, m.muxedBaseId = some b → m'.muxedBaseId = some b
  multiple : ∀ b, m'.muxedBaseId = some b → m.muxedBaseId = some b ∨ ∃ k : Nat, b = k * 16777216
  seq : m.invoiceSeq ≤ m'.invoiceSeq

theorem Advance.refl (m : Merchant) : Advance m m := ⟨rfl, fun _ h => h, fun _ h => .inl h, le_rfl⟩

theorem Advance.trans {m m' m'' : Merchant} (h : Advance m m') (h' : Advance m' m'') :
    Advance m m'' where
  id := h'.id.trans h.id
  base b hb := h'.base b (h.base b hb)
  multiple b hb := (h'.multiple b hb).elim (h.multiple b) .inr
  seq := h.seq.trans h'.seq

/-- The merchants have advanced. -/
structure Advances (db db' : Db) : Prop where
  forth : ∀ m ∈ db.merchants, ∃ m' ∈ db'.merchants, Advance m m'
  back : ∀ m' ∈ db'.merchants, ∃ m ∈ db.merchants, Advance m m'

theorem Advances.of_eq (h : db'.merchants = db.merchants) : Advances db db' where
  forth m hm := ⟨m, h ▸ hm, .refl m⟩
  back m hm := ⟨m, h ▸ hm, .refl m⟩

theorem Advances.trans (h : Advances db db') (h' : Advances db' db'') : Advances db db'' where
  forth m hm := by
    obtain ⟨m', hm', hadv⟩ := h.forth m hm
    obtain ⟨m'', hm'', hadv'⟩ := h'.forth m' hm'
    exact ⟨m'', hm'', hadv.trans hadv'⟩
  back m'' hm'' := by
    obtain ⟨m', hm', hadv'⟩ := h'.back m'' hm''
    obtain ⟨m, hm, hadv⟩ := h.back m' hm'
    exact ⟨m, hm, hadv.trans hadv'⟩

theorem Advances.of_rows {f : Merchant → Merchant}
    (hrows : db'.merchants.rows = db.merchants.rows.map f)
    (hf : ∀ m ∈ db.merchants, Advance m (f m)) : Advances db db' where
  forth m hm := by
    refine ⟨f m, ?_, hf m hm⟩
    rw [← Table.mem_rows, hrows]
    exact List.mem_map_of_mem hm
  back m' hm' := by
    rw [← Table.mem_rows, hrows] at hm'
    obtain ⟨m, hm, rfl⟩ := List.mem_map.mp hm'
    exact ⟨m, hm, hf m hm⟩

/-- A merchant is its row. -/
theorem eq_of_id {m m' : Merchant} (hm : m ∈ db.merchants) (hm' : m' ∈ db.merchants)
    (h : m.id = m'.id) : m = m' := Table.eq_of_conflict hm hm' (.inl h)

/-- The base of a merchant, or a new one: the count of merchants times the size of a
range. -/
theorem ensureMuxedBase_spec {base : Int} (h : ensureMuxedBase db merchant = .ok (base, db')) :
    merchant.muxedBaseId = some base ∧ db' = db ∨
      merchant.muxedBaseId = none ∧ (∃ k : Nat, base = k * 16777216) ∧
        db'.merchants.rows = db.merchants.rows.map
          fun m => if m.id == merchant.id then { m with muxedBaseId := some base } else m := by
  simp only [ensureMuxedBase] at h
  split at h
  · next hbase =>
    cases h
    exact .inl ⟨hbase, rfl⟩
  · next hbase =>
    split at h
    · next merchants hupd =>
      split at h
      · cases h
        exact .inr ⟨hbase, ⟨_, rfl⟩, Table.rows_of_update? hupd⟩
      · cases h
    · cases h

theorem nextInvoiceSequence_spec {next : Int}
    (h : nextInvoiceSequence db merchant = .ok (next, db')) :
    next = merchant.invoiceSeq + 1 ∧ db'.merchants.rows = db.merchants.rows.map
      fun m => if m.id == merchant.id then countInvoice m else m := by
  simp only [nextInvoiceSequence] at h
  split at h
  · cases h
    exact ⟨rfl, rfl⟩
  · cases h

theorem advances_ensureMuxedBase {base : Int} (hm : merchant ∈ db.merchants)
    (h : ensureMuxedBase db merchant = .ok (base, db')) : Advances db db' := by
  rcases ensureMuxedBase_spec h with ⟨-, rfl⟩ | ⟨hnone, hk, hrows⟩
  · exact .of_eq rfl
  · refine .of_rows hrows fun m hmem => ?_
    split
    · next hid =>
      cases eq_of_id hmem hm (beq_iff_eq.mp hid)
      refine ⟨rfl, fun b hb => ?_, fun b hb => ?_, le_rfl⟩
      · rw [hnone] at hb
        cases hb
      · cases hb
        exact .inr hk
    · exact .refl m

theorem advances_nextInvoiceSequence {next : Int}
    (h : nextInvoiceSequence db merchant = .ok (next, db')) : Advances db db' := by
  refine .of_rows (nextInvoiceSequence_spec h).2 fun m _ => ?_
  split
  · exact ⟨rfl, fun _ hb => hb, fun _ hb => .inl hb, Int.le_add_one le_rfl⟩
  · exact .refl m

/-- The merchant whose base is ensured, as it is stored then. -/
theorem mem_ensureMuxedBase {base : Int} (hm : merchant ∈ db.merchants)
    (h : ensureMuxedBase db merchant = .ok (base, db')) :
    { merchant with muxedBaseId := some base } ∈ db'.merchants := by
  rcases ensureMuxedBase_spec h with ⟨hbase, rfl⟩ | ⟨-, -, hrows⟩
  · rwa [← hbase]
  · rw [← Table.mem_rows, hrows]
    exact List.mem_map.mpr ⟨merchant, hm, if_pos (beq_self_eq_true _)⟩

/-- **To take a number**, whatever comes of it, advances the merchants. -/
theorem advances_allocate (env : CreateEnv) (hm : merchant ∈ db.merchants) :
    Advances db (allocate env db merchant).2 := by
  unfold allocate
  split
  · exact .of_eq rfl
  · next base db₁ hbase =>
    have h₁ := advances_ensureMuxedBase hm hbase
    split
    · exact h₁
    · next next db₂ hnext =>
      have h₂ := h₁.trans (advances_nextInvoiceSequence hnext)
      dsimp only
      split
      · exact h₂
      · exact h₂

/-- A new number is the base and one more than the counter. -/
theorem allocate_spec {muxedId : Int} {address : String} (hm : merchant ∈ db.merchants)
    (h : allocate env db merchant = (.ok (muxedId, address), db')) :
    ∃ base, muxedId = base + (merchant.invoiceSeq + 1) ∧
      (merchant.muxedBaseId = some base ∨ merchant.muxedBaseId = none) ∧
      countInvoice { merchant with muxedBaseId := some base } ∈ db'.merchants := by
  unfold allocate at h
  split at h
  · cases h
  · next base db₁ hbase =>
    have hmem := mem_ensureMuxedBase hm hbase
    split at h
    · cases h
    · next next db₂ hnext =>
      obtain ⟨rfl, hrows⟩ := nextInvoiceSequence_spec hnext
      dsimp only at h
      split at h
      · cases h
      · cases h
        refine ⟨base, rfl, ?_, ?_⟩
        · rcases ensureMuxedBase_spec hbase with ⟨hsome, -⟩ | ⟨hnone, -⟩
          · exact .inl hsome
          · exact .inr hnone
        · rw [← Table.mem_rows, hrows]
          exact List.mem_map.mpr ⟨_, hmem, if_pos (beq_self_eq_true _)⟩

theorem insertion_eq_some {muxedId : Int} : insertion env db c = some (muxedId, db') ↔
    (c.key.filter (· ≠ "")).elim (.ok none) (replay env db c.merchantId c.input) = .ok none ∧
      ∃ q address, quote env c.now db c.merchantId c.input = .ok q ∧
        allocate env db q.merchant = (.ok (muxedId, address), db') := by
  unfold insertion
  constructor
  · intro h
    split at h
    · next hreplay =>
      split at h
      · next q hq =>
        split at h
        · next n address db₁ hallocate =>
          cases h
          exact ⟨hreplay, q, address, hq, hallocate⟩
        · cases h
      · cases h
    · cases h
  · rintro ⟨hreplay, q, address, hq, hallocate⟩
    simp only [hreplay, hq, hallocate]

theorem merchant_of_quote {now : Timestamp} {merchantId : Uuid} {input : CreateInput} {q : Quote}
    (h : quote env now db merchantId input = .ok q) :
    q.merchant ∈ db.merchants ∧ q.merchant.id = merchantId := by
  obtain ⟨usdc, hprice, -⟩ := quote_ok_iff.mp h
  obtain ⟨hm, hid⟩ := Table.find?_some (merchant_of_price hprice)
  exact ⟨hm, beq_iff_eq.mp hid⟩

/-- The number of an `INSERT` is the one after the counter of the merchant. -/
theorem insertion_spec {muxedId : Int} (h : insertion env db c = some (muxedId, db')) :
    Advances db db' ∧ db'.invoices = db.invoices ∧ ∃ m ∈ db.merchants, m.id = c.merchantId ∧
      ∃ base, muxedId = base + (m.invoiceSeq + 1) ∧
        (m.muxedBaseId = some base ∨ m.muxedBaseId = none) ∧
        countInvoice { m with muxedBaseId := some base } ∈ db'.merchants := by
  obtain ⟨-, q, address, hq, hallocate⟩ := insertion_eq_some.mp h
  obtain ⟨hm, hid⟩ := merchant_of_quote hq
  obtain ⟨base, hmuxed, hbase, hmem⟩ := allocate_spec hm hallocate
  have hadv := advances_allocate env hm
  rw [hallocate] at hadv
  exact ⟨hadv, by rw [(numbered_allocate hallocate).rest], q.merchant, hm, hid, base, hmuxed, hbase,
    hmem⟩

theorem invoices_allocate (env : CreateEnv) (db : Db) (merchant : Merchant) :
    (allocate env db merchant).2.invoices = db.invoices := by
  have h := allocate_invoices env db merchant db.invoices
  exact congrArg (fun p => p.2.invoices) h

/-- A call that fails at its `INSERT` has taken a number. -/
theorem db_of_insertQuote_error {now : Timestamp} {id : Uuid} {key : Option String} {q : Quote}
    {e : ApiError} (h : insertQuote env now id db key q = (.error e, db')) :
    db' = (allocate env db q.merchant).2 := by
  rw [insertQuote_eq] at h
  split at h
  · next hallocate =>
    cases h
    rw [hallocate]
  · next hallocate =>
    rw [hallocate]
    split at h
    · cases h
      rfl
    · split at h
      · cases h
        rfl
      · cases h

theorem muxedId_of_invoiceRow {now : Timestamp} {id : Uuid} {key : Option String}
    {muxedId : Int} {address : String} {q : Quote} {r : Invoice}
    (h : invoiceRow now id key muxedId address q = some r) : r.muxedId = muxedId := by
  simp only [invoiceRow, Option.bind_eq_bind, Option.bind_eq_some_iff] at h
  obtain ⟨_, -, _, -, _, -, _, -, _, -, _, -, h⟩ := h
  split at h
  · cases h
  · cases h
    rfl

/-- **What a call does**: the merchants advance, and a row is stored under the number of
the call, if any. -/
theorem create_cases (h : (creates env).step db c = some db') : Advances db db' ∧
    (db'.invoices = db.invoices ∨ ∃ r db₁, insertion env db c = some (r.muxedId, db₁) ∧
      db'.merchants = db₁.merchants ∧ db'.invoices.rows = db.invoices.rows ++ [r]) := by
  simp only [creates, Option.some.injEq, create] at h
  split at h
  · subst h
    exact ⟨.of_eq rfl, .inl rfl⟩
  · subst h
    exact ⟨.of_eq rfl, .inl rfl⟩
  · next hreplay =>
    split at h
    · subst h
      exact ⟨.of_eq rfl, .inl rfl⟩
    · next q hq =>
      have hm := (merchant_of_quote hq).1
      have hadv := advances_allocate env hm
      split at h
      · next e db₁ hinsert =>
        subst h
        rw [db_of_insertQuote_error hinsert]
        exact ⟨hadv, .inl (invoices_allocate env db q.merchant)⟩
      · next r db₁ hinsert =>
        obtain ⟨muxedId, address, db₂, invoices, hallocate, hrow, hins, rfl⟩ :=
          insertQuote_ok_iff.mp hinsert
        rw [hallocate] at hadv
        -- the stored response is in a table of its own
        have hsave : db'.merchants = db₂.merchants ∧ db'.invoices = invoices := by
          rw [← h]
          cases c.key.filter (· ≠ "") with
          | none => exact ⟨rfl, rfl⟩
          | some key =>
            obtain ⟨_, heq⟩ := Idempotency.save_eq { db₂ with invoices } c.merchantId key
              (env.hashBody c.input) (.invoice r)
            rw [Option.elim_some, heq]
            exact ⟨rfl, rfl⟩
        refine ⟨hadv.trans (.of_eq hsave.1), .inr ⟨r, db₂, ?_, hsave.1, ?_⟩⟩
        · rw [muxedId_of_invoiceRow hrow]
          exact insertion_eq_some.mpr ⟨hreplay, q, address, hq, hallocate⟩
        · rw [hsave.2, (Table.insert?_eq_some.mp hins).2, (numbered_allocate hallocate).rest]

end Advance

/-! ## The numbers in use -/

section Numbers

variable {env : CreateEnv} {db₀ db db' : Db} {c : CreateCall} {cs : List CreateCall}

/-- The old numbers stay in use. -/
structure Kept (db₀ db : Db) : Prop where
  seq : ∀ m ∈ db.merchants, 0 ≤ m.invoiceSeq
  old : ∀ m ∈ db.merchants, ∀ s : Int, 1 ≤ s → s ≤ invoiceCount db₀ m.id →
    ∃ b, m.muxedBaseId = some b ∧ ∃ i ∈ db.invoices, i.muxedId = b + s

/-- Every number in use is in the range of a merchant, and is old or was counted. -/
structure Taken (db₀ db : Db) : Prop where
  base : ∀ m ∈ db.merchants, ∀ b, m.muxedBaseId = some b → ∃ k : Nat, b = k * 16777216
  number : ∀ i ∈ db.invoices, ∃ m ∈ db.merchants, ∃ b s, m.muxedBaseId = some b ∧
    i.muxedId = b + s ∧ 1 ≤ s ∧ s ≤ 16777216 ∧ (s ≤ invoiceCount db₀ m.id ∨ s ≤ m.invoiceSeq)

/-- A number has one range, and one place in it. -/
theorem range_inj (k k' : Nat) (s s' : Int) (h : (k * 16777216 : Int) + s = k' * 16777216 + s')
    (hs : 1 ≤ s ∧ s ≤ 16777216) (hs' : 1 ≤ s' ∧ s' ≤ 16777216) : k = k' ∧ s = s' := by
  omega

theorem mem_addInvoiceSeq {m : Merchant} : m ∈ (addInvoiceSeq db).merchants ↔
    ∃ m₀ ∈ db.merchants, { m₀ with invoiceSeq := 0 } = m :=
  Table.mem_modify (t := db.merchants) (p := fun _ => true)
    (f := fun m => { m with invoiceSeq := 0 }) fun _ => rfl

theorem kept_addInvoiceSeq (h : OldNumbering db) : Kept db (addInvoiceSeq db) where
  seq m hm := by
    obtain ⟨m₀, -, rfl⟩ := mem_addInvoiceSeq.mp hm
    exact le_rfl
  old m hm s hs hle := by
    obtain ⟨m₀, hm₀, rfl⟩ := mem_addInvoiceSeq.mp hm
    -- the merchant has an invoice, so it has a base
    have hpos : 0 < (db.invoices.rows.filter fun i => i.merchantId == m₀.id).length := by
      have : s ≤ ((db.invoices.rows.filter fun i => i.merchantId == m₀.id).length : Int) := hle
      omega
    obtain ⟨i, hi⟩ := List.exists_mem_of_length_pos hpos
    obtain ⟨hi, hmerchant⟩ := List.mem_filter.mp hi
    obtain ⟨m₁, hm₁, hid, hbase⟩ := h.owned i hi
    cases eq_of_id hm₁ hm₀ (hid.trans (beq_iff_eq.mp hmerchant))
    obtain ⟨b, hb⟩ := Option.ne_none_iff_exists'.mp hbase
    have hmem : b + s ∈ (List.range (invoiceCount db m₀.id)).map fun s : Nat => b + (s + 1) := by
      have hle' : s ≤ (invoiceCount db m₀.id : Int) := hle
      exact List.mem_map.mpr ⟨(s - 1).toNat, List.mem_range.mpr (by omega), by omega⟩
    obtain ⟨j, hj, heq⟩ := List.mem_map.mp ((h.numbers m₀ hm₀ b hb).mem_iff.mpr hmem)
    exact ⟨b, hb, j, (List.mem_filter.mp hj).1, heq⟩

theorem taken_addInvoiceSeq (h : OldNumbering db)
    (hfits : ∀ m ∈ db.merchants, invoiceCount db m.id ≤ 16777216) :
    Taken db (addInvoiceSeq db) where
  base m hm b hb := by
    obtain ⟨m₀, hm₀, rfl⟩ := mem_addInvoiceSeq.mp hm
    exact h.base m₀ hm₀ b hb
  number i hi := by
    obtain ⟨m, hm, hid, hbase⟩ := h.owned i hi
    obtain ⟨b, hb⟩ := Option.ne_none_iff_exists'.mp hbase
    have hmem : i.muxedId ∈
        (db.invoices.rows.filter fun i => i.merchantId == m.id).map Invoice.muxedId :=
      List.mem_map_of_mem (List.mem_filter.mpr ⟨hi, beq_iff_eq.mpr hid.symm⟩)
    obtain ⟨s, hs, heq⟩ := List.mem_map.mp ((h.numbers m hm b hb).mem_iff.mp hmem)
    have hlt := List.mem_range.mp hs
    have hle := hfits m hm
    exact ⟨_, mem_addInvoiceSeq.mpr ⟨m, hm, rfl⟩, b, s + 1, hb, heq.symm, by omega, by omega,
      .inl (by show (s : Int) + 1 ≤ invoiceCount db m.id; omega)⟩

/-- **The old numbers stay in use.** -/
theorem kept_step (h : Kept db₀ db) (hstep : (creates env).step db c = some db') :
    Kept db₀ db' := by
  obtain ⟨hadv, hrows⟩ := create_cases hstep
  have hkeep : ∀ i ∈ db.invoices, i ∈ db'.invoices := by
    intro i hi
    rcases hrows with hsame | ⟨r, _, -, -, hrows⟩
    · rwa [hsame]
    · rw [← Table.mem_rows, hrows]
      exact List.mem_append_left _ hi
  refine ⟨fun m' hm' => ?_, fun m' hm' s hs hle => ?_⟩
  · obtain ⟨m, hm, hmm⟩ := hadv.back m' hm'
    exact (h.seq m hm).trans hmm.seq
  · obtain ⟨m, hm, hmm⟩ := hadv.back m' hm'
    rw [hmm.id] at hle
    obtain ⟨b, hb, i, hi, heq⟩ := h.old m hm s hs hle
    exact ⟨b, hmm.base b hb, i, hkeep i hi, heq⟩

/-- The numbers stay what they are where the merchants advance. -/
theorem Taken.advance (h : Taken db₀ db) (hadv : Advances db db')
    (hinvoices : db'.invoices = db.invoices) : Taken db₀ db' where
  base m' hm' b hb := by
    obtain ⟨m, hm, hmm⟩ := hadv.back m' hm'
    exact (hmm.multiple b hb).elim (h.base m hm b) id
  number i hi := by
    rw [hinvoices] at hi
    obtain ⟨m, hm, b, s, hb, heq, hpos, hle, hwhy⟩ := h.number i hi
    obtain ⟨m', hm', hmm⟩ := hadv.forth m hm
    refine ⟨m', hm', b, s, hmm.base b hb, heq, hpos, hle, ?_⟩
    rw [hmm.id]
    exact hwhy.imp id fun hs => hs.trans hmm.seq

theorem taken_step (hk : Kept db₀ db) (h : Taken db₀ db) (hwithin : Within env db c)
    (hstep : (creates env).step db c = some db') : Taken db₀ db' := by
  obtain ⟨hadv, hsame | ⟨r, db₁, hins, hmerchants, hrows⟩⟩ := create_cases hstep
  · exact h.advance hadv hsame
  · obtain ⟨-, -, m, hm, hid, base, hmuxed, -, hmem⟩ := insertion_spec hins
    refine ⟨fun m' hm' b hb => ?_, fun i hi => ?_⟩
    · obtain ⟨m, hm, hmm⟩ := hadv.back m' hm'
      exact (hmm.multiple b hb).elim (h.base m hm b) id
    rw [← Table.mem_rows, hrows] at hi
    rcases List.mem_append.mp hi with hi | hi
    · obtain ⟨m, hm, b, s, hb, heq, hpos, hle, hwhy⟩ := h.number i hi
      obtain ⟨m', hm', hmm⟩ := hadv.forth m hm
      refine ⟨m', hm', b, s, hmm.base b hb, heq, hpos, hle, ?_⟩
      rw [hmm.id]
      exact hwhy.imp id fun hs => hs.trans hmm.seq
    · -- the new row
      cases List.mem_singleton.mp hi
      have hpos := hk.seq m hm
      have hlt := hwithin (by rw [hins]; rintro ⟨⟩) m hm hid
      rw [← hmerchants] at hmem
      exact ⟨_, hmem, base, m.invoiceSeq + 1, rfl, hmuxed, by omega, by omega, .inr le_rfl⟩

/-- **An `INSERT` gets a new id** where the counter has passed the old invoices. -/
theorem fresh_of_ahead (hk : Kept db₀ db) (h : Taken db₀ db) (hwithin : Within env db c)
    (hahead : Ahead env db₀ db c) : Fresh env db c := by
  rintro ⟨muxedId, db₁⟩ hins i hi heq
  have hreach : insertion env db c ≠ none := by
    rw [hins]
    rintro ⟨⟩
  obtain ⟨hadv, hsame, m, hm, hid, base, hmuxed, -, hmem⟩ := insertion_spec hins
  obtain ⟨k, hk'⟩ := (h.advance hadv hsame).base _ hmem base rfl
  -- the number of the row, and whose it is
  rw [hsame] at hi
  obtain ⟨m₂, hm₂, b, s, hb, hnumber, hpos, hle, hwhy⟩ := h.number i hi
  obtain ⟨k₂, hk₂⟩ := h.base m₂ hm₂ b hb
  have hseq := hk.seq m hm
  have hlt := hwithin hreach m hm hid
  dsimp only at heq
  obtain ⟨rfl, hs⟩ := range_inj k k₂ (m.invoiceSeq + 1) s
    (by rw [← hk', ← hk₂, ← hmuxed, ← hnumber, heq]) (by omega) (by omega)
  -- the two ranges are one, so the two merchants are
  obtain ⟨m₂', hm₂', hmm⟩ := hadv.forth m₂ hm₂
  have hbase : m₂'.muxedBaseId = some base := by rw [hmm.base b hb, hk', hk₂]
  have hclash : Keyed.Conflict m₂' (countInvoice { m with muxedBaseId := some base }) := by
    refine .inr ⟨hbase, ?_⟩
    show m₂'.muxedBaseId ≠ none
    rw [hbase]
    rintro ⟨⟩
  have heq₂ := Table.eq_of_conflict hm₂' hmem hclash
  have hid₂ : m₂.id = m.id := by
    rw [← hmm.id, heq₂]
    rfl
  cases eq_of_id hm₂ hm hid₂
  have hpassed := hahead hreach m hm hid
  rcases hwhy with hwhy | hwhy
  · omega
  · omega

/-- An old invoice has the id of the `INSERT` where the counter has not. -/
theorem ahead_of_fresh (h : Kept db₀ db) (hfresh : Fresh env db c) : Ahead env db₀ db c := by
  intro hreach m hm hid
  by_contra hlt
  obtain ⟨⟨muxedId, db₁⟩, hins⟩ := Option.ne_none_iff_exists'.mp hreach
  obtain ⟨-, hsame, m₁, hm₁, hid₁, base, hmuxed, hbase, -⟩ := insertion_spec hins
  cases eq_of_id hm₁ hm (hid₁.trans hid.symm)
  have hseq := h.seq m hm
  obtain ⟨b, hb, i, hi, heq⟩ := h.old m hm (m.invoiceSeq + 1) (by omega) (by omega)
  rcases hbase with hbase | hbase
  · cases hb.symm.trans hbase
    refine hfresh _ hins i ?_ (heq.trans hmuxed.symm)
    rwa [hsame]
  · rw [hb] at hbase
    cases hbase

/-- **Which calls get a new id.** In every run of calls after the migration, all `INSERT`s
do if each finds the counter past the old invoices, and a number left in the range; and
only if each finds the counter past them. -/
theorem inserts_fresh (h : OldNumbering db₀) :
    ((∀ m ∈ db₀.merchants, invoiceCount db₀ m.id ≤ 16777216) →
      (creates env).Guarded (fun db c => Ahead env db₀ db c ∧ Within env db c)
        (addInvoiceSeq db₀) cs →
      (creates env).Guarded (Fresh env) (addInvoiceSeq db₀) cs) ∧
    ((creates env).Guarded (Fresh env) (addInvoiceSeq db₀) cs →
      (creates env).Guarded (Ahead env db₀) (addInvoiceSeq db₀) cs) := by
  constructor
  · intro hfits hg
    refine Lts.Guarded.of_inv _ (I := fun db => Kept db₀ db ∧ Taken db₀ db) ?_ ?_
      ⟨kept_addInvoiceSeq h, taken_addInvoiceSeq h hfits⟩ hg
    · exact fun db c db' hinv hok hstep =>
        ⟨kept_step hinv.1 hstep, taken_step hinv.1 hinv.2 hok.2 hstep⟩
    · exact fun db c hinv hok => fresh_of_ahead hinv.1 hinv.2 hok.2 hok.1
  · intro hg
    refine Lts.Guarded.of_inv _ (I := Kept db₀) ?_ ?_ (kept_addInvoiceSeq h) hg
    · exact fun db c db' hinv _ hstep => kept_step hinv hstep
    · exact fun db c hinv hfresh => ahead_of_fresh hinv hfresh

end Numbers

/-! ## An old invoice -/

/-- Merchant 1 with the base 2²⁴, and its first invoice. -/
def oldDb : Db where
  merchants := ⟨[{ testMerchant with muxedBaseId := some 16777216 }], List.pairwise_singleton _ _⟩
  invoices := (Reconciler.seedDb (Reconciler.seedInvoice 9 16777217)).invoices

/-- Merchant 1 creates an invoice of 10 USDC. -/
def firstCall : CreateCall := ⟨0, 2, 1, tenUsdc, none⟩

theorem oldNumbering_oldDb : OldNumbering oldDb where
  base m hm b hb := by
    cases List.mem_singleton.mp hm
    cases hb
    exact ⟨1, rfl⟩
  numbers m hm b hb := by
    cases List.mem_singleton.mp hm
    cases hb
    decide
  owned i hi := by
    cases List.mem_singleton.mp hi
    exact ⟨_, List.mem_singleton.mpr rfl, rfl, nofun⟩

/-- The counter starts again at the first number, and the call fails. -/
theorem sequence_restarts : OldNumbering oldDb ∧
    (create testEnv 0 2 (addInvoiceSeq oldDb) 1 tenUsdc none).1 = .error .database ∧
    ¬ (creates testEnv).Guarded (Fresh testEnv) (addInvoiceSeq oldDb) [firstCall] := by
  refine ⟨oldNumbering_oldDb, by decide +kernel, fun hg => ?_⟩
  have hins : (insertion testEnv (addInvoiceSeq oldDb) firstCall).map Prod.fst = some 16777217 := by
    decide +kernel
  obtain ⟨⟨muxedId, db⟩, heq, rfl⟩ := Option.map_eq_some_iff.mp hins
  obtain ⟨-, hsame, -⟩ := insertion_spec heq
  refine hg.1 _ heq (Reconciler.seedInvoice 9 16777217) ?_ rfl
  rw [hsame]
  exact List.mem_singleton.mpr rfl

theorem inserts_fresh_oldDb : OldNumbering oldDb ∧
    ((creates testEnv).Guarded (Fresh testEnv) (addInvoiceSeq oldDb) [firstCall] →
      (creates testEnv).Guarded (Ahead testEnv oldDb) (addInvoiceSeq oldDb) [firstCall]) :=
  ⟨oldNumbering_oldDb, (inserts_fresh oldNumbering_oldDb).2⟩

end Stargate.Invoices
