import Stargate.Invoices.CreateCalls

/-!
# Invoices under an idempotency key

The key of a call is looked up in two tables, and the invoice and the response under it
are written by two commits. The unique index on `(merchant_id, idempotency_key)` decides
between calls that overlap.

- `Carries`: a response has the id of the invoice under a key;
- `carries_local`: every response that a call has under the key, or that is saved, does;
- `one_invoice`: a key has one invoice, one saved response, and one id in all responses.
-/

namespace Stargate.CreateCalls

open Base Invoices

section

variable {env : CreateEnv} {others : List Call} {i : Input} {w w' : World} {c c' : Call}
  {merchantId : Uuid} {key : String} {n : Nat}

/-! ## What stays -/

/-- The rows of invoices stay, but for their status. -/
def Kept (db db' : Db) : Prop :=
  ∀ r ∈ db.invoices, ∃ r' ∈ db'.invoices, Keyed.key r' = Keyed.key r

/-- The response of a key stays. -/
def Saved (db db' : Db) : Prop :=
  ∀ merchantId key row, Idempotency.find db merchantId key = some row →
    Idempotency.find db' merchantId key = some row

theorem Kept.trans {db db' db'' : Db} (h : Kept db db') (h' : Kept db' db'') : Kept db db'' := by
  intro r hr
  obtain ⟨r', hr', heq⟩ := h r hr
  obtain ⟨r'', hr'', heq'⟩ := h' r' hr'
  exact ⟨r'', hr'', heq'.trans heq⟩

theorem Kept.of_subset {db db' : Db} (h : ∀ r ∈ db.invoices, r ∈ db'.invoices) : Kept db db' :=
  fun r hr => ⟨r, h r hr, rfl⟩

theorem Saved.of_eq {db db' : Db} (h : db'.idempotencyKeys = db.idempotencyKeys) :
    Saved db db' := by
  intro merchantId key row hfind
  rwa [Idempotency.find, h]

/-- A response is saved where there is none. -/
theorem find_of_save {db : Db} {m : Uuid} {k hash : String} {response : Response}
    {row : IdempotencyKey}
    (h : Idempotency.find (Idempotency.save db m k hash response) merchantId key = some row) :
    Idempotency.find db merchantId key = some row ∨
      m = merchantId ∧ k = key ∧ row = ⟨m, k, hash, response⟩ := by
  unfold Idempotency.save at h
  split at h
  · next keys hins =>
    rw [Idempotency.find, Table.find?, (Table.insert?_eq_some.mp hins).2, List.find?_append,
      Option.or_eq_some_iff] at h
    rcases h with h | ⟨-, h⟩
    · exact .inl h
    · rw [List.find?_singleton] at h
      split at h
      · next hp =>
        simp only [Bool.and_eq_true, beq_iff_eq] at hp
        exact .inr ⟨hp.1, hp.2, (Option.some.inj h).symm⟩
      · cases h
  · exact .inl h

theorem saved_save (db : Db) (m : Uuid) (k hash : String) (response : Response) :
    Saved db (Idempotency.save db m k hash response) := by
  intro merchantId key row hfind
  unfold Idempotency.save
  split
  · next keys hins =>
    rw [Idempotency.find, Table.find?, (Table.insert?_eq_some.mp hins).2, List.find?_append]
    rw [show db.idempotencyKeys.rows.find? _ = some row from hfind]
    rfl
  · exact hfind

/-- A statement but the `INSERT` leaves the invoices alone, and saves a response at most. -/
theorem leads_cases {now : Timestamp} {args : Args} {db db' : Db} {pc : Pc} {next : Next}
    (h : Leads env now args db pc next db') :
    db'.invoices = db.invoices ∧ (db'.idempotencyKeys = db.idempotencyKeys ∨
      ∃ k r, pc = .saveKey k r ∧ db' = Idempotency.save db args.merchantId k
        (env.hashBody args.input) (.invoice r)) := by
  rcases writes_leads h with hnumbered | ⟨k, r, rfl, rfl⟩
  · rw [hnumbered.rest]
    exact ⟨rfl, .inl rfl⟩
  · refine ⟨?_, .inr ⟨k, r, rfl, rfl⟩⟩
    obtain ⟨_, heq⟩ := Idempotency.save_eq db args.merchantId k (env.hashBody args.input)
      (.invoice r)
    rw [heq]

theorem leads_keeps {now : Timestamp} {args : Args} {db db' : Db} {pc : Pc} {next : Next}
    (h : Leads env now args db pc next db') :
    db'.invoices = db.invoices ∧ Saved db db' := by
  obtain ⟨hinvoices, hkeys | ⟨k, r, -, rfl⟩⟩ := leads_cases h
  · exact ⟨hinvoices, .of_eq hkeys⟩
  · exact ⟨hinvoices, saved_save _ _ _ _ _⟩

theorem moves_keeps (h : Moves env others i w c w' c') :
    Kept w.db w'.db ∧ Saved w.db w'.db := by
  cases h with
  | ran hleads =>
    obtain ⟨hinvoices, hsaved⟩ := leads_keeps hleads
    exact ⟨.of_subset fun r hr => hinvoices ▸ hr, hsaved⟩
  | inserted _ _ hins =>
    refine ⟨.of_subset fun r hr => ?_, .of_eq rfl⟩
    exact (Table.mem_of_insert? hins r).mpr (.inl hr)
  | committed hcommit =>
    refine ⟨.of_subset fun r hr => ?_, .of_eq rfl⟩
    rw [← Table.mem_rows, rows_of_commit hcommit]
    exact List.mem_append_left _ hr
  | _ => exact ⟨.of_subset fun _ hr => hr, .of_eq rfl⟩

theorem kept_setStatus (db : Db) (p : Invoice → Bool) (s : InvoiceStatus) :
    Kept db (setStatus db p s) := by
  intro r hr
  refine ⟨_, Table.mem_rows.mp (List.mem_map_of_mem hr), ?_⟩
  split <;> rfl

theorem request_keeps {r : Request} {db db' : Db} (h : r.exec db = some db') :
    Kept db db' ∧ Saved db db' := by
  cases r with
  | register id name createdAt =>
    obtain ⟨merchants, -, rfl⟩ := Option.map_eq_some_iff.mp h
    exact ⟨.of_subset fun _ hr => hr, .of_eq rfl⟩
  | _ =>
    cases h
    exact ⟨kept_setStatus _ _ _, .of_eq rfl⟩

/-- **What stays in a run**: the invoices, and the responses. -/
theorem run_keeps {s t : Program.Sys World Call n}
    {as : List (Program.Label Input Request n)}
    (hrun : ((program env).interleave n).run s as = some t) :
    Kept s.db.db t.db.db ∧ Saved s.db.db t.db.db := by
  refine ((program env).interleave n).inv_of_run
    (I := fun u => Kept s.db.db u.db.db ∧ Saved s.db.db u.db.db) (fun u a u' hinv hstep => ?_)
    ⟨.of_subset fun _ hr => hr, .of_eq rfl⟩ hrun
  have hstays : Kept u.db.db u'.db.db ∧ Saved u.db.db u'.db.db := by
    cases a with
    | call k i =>
      obtain ⟨w, c, hexec, rfl⟩ := (program env).step_call.mp hstep
      exact moves_keeps (moves_of_exec hexec)
    | env r =>
      obtain ⟨w, henv, rfl⟩ := (program env).step_env.mp hstep
      obtain ⟨db, hdb, rfl⟩ := Option.map_eq_some_iff.mp henv
      exact request_keeps hdb
  exact ⟨hinv.1.trans hstays.1, fun m k row hfind => hstays.2 m k row (hinv.2 m k row hfind)⟩

/-! ## The invoice of a key -/

/-- A response has the id of the invoice under the key. -/
def Carries (db : Db) (merchantId : Uuid) (key : String) (response : Response) : Prop :=
  ∃ r ∈ db.invoices, r.merchantId = merchantId ∧ r.idempotencyKey = some key ∧
    ∃ r', response = .invoice r' ∧ r'.id = r.id

theorem Carries.kept {db db' : Db} {response : Response}
    (h : Carries db merchantId key response) (hkept : Kept db db') :
    Carries db' merchantId key response := by
  obtain ⟨r, hr, hm, hk, r', hresponse, hid⟩ := h
  obtain ⟨r₁, hr₁, hkey⟩ := hkept r hr
  obtain ⟨hid₁, hkey⟩ := Prod.mk.inj hkey
  obtain ⟨-, hkey⟩ := Prod.mk.inj hkey
  obtain ⟨hm₁, hk₁⟩ := Prod.mk.inj hkey
  exact ⟨r₁, hr₁, hm₁.trans hm, hk₁.trans hk, r', hresponse, hid.trans hid₁.symm⟩

/-- A saved response has the id of the invoice. -/
def SavedCarries (merchantId : Uuid) (key : String) (w : World) : Prop :=
  ∀ row, Idempotency.find w.db merchantId key = some row →
    Carries w.db merchantId key row.responseBody

/-- So has the response of a call, from its `INSERT` on. -/
def CallCarries (merchantId : Uuid) (key : String) (w : World) : Call → Prop
  | .running args _ (.checkKey k) => args.key? = some k
  | .running args _ (.findByKey k) => args.key? = some k
  | .running args _ (.saveKey k r) => args.key? = some k ∧
    (args.merchantId = merchantId → args.key = some key →
      Carries w.db merchantId key (.invoice r))
  | .returned args response => args.merchantId = merchantId → args.key = some key →
    Carries w.db merchantId key response
  | _ => True

theorem CallCarries.kept (h : CallCarries merchantId key w c) (hkept : Kept w.db w'.db) :
    CallCarries merchantId key w' c := by
  cases c with
  | running args tx pc =>
    cases pc with
    | saveKey k r => exact ⟨h.1, fun hm hk => (h.2 hm hk).kept hkept⟩
    | _ => exact h
  | returned args response => exact fun hm hk => (h hm hk).kept hkept
  | _ => trivial

theorem callCarries_of_entered {args : Args} {tx : Option Tx} (h : Entered args tx c) :
    CallCarries merchantId key w c := by
  cases h with
  | keyed hkey => exact hkey
  | plain _ _ => trivial
  | threw => trivial

theorem callCarries_nextInput {tx : Tx} {m : Uuid} :
    CallCarries merchantId key w (nextInput m tx) :=
  nextInput_of m tx trivial fun _ _ _ => callCarries_of_entered

theorem callCarries_finish {args : Args} {tx : Option Tx} {response : Response}
    (h : args.merchantId = merchantId → args.key = some key →
      Carries w.db merchantId key response) :
    CallCarries merchantId key w (finish args tx response) := by
  cases tx with
  | none => exact h
  | some tx => exact callCarries_nextInput

theorem key_of_key? {args : Args} {k : String} (h : args.key? = some k) : args.key = some k :=
  (Option.filter_eq_some_iff.mp h).1

/-- The response of a check that finds one. -/
theorem find_of_check {db : Db} {m : Uuid} {k hash : String} {cached : Response}
    (h : Idempotency.check db m k hash = .ok (some cached)) :
    ∃ row, Idempotency.find db m k = some row ∧ row.responseBody = cached ∧
      row.requestHash = hash := by
  unfold Idempotency.check at h
  split at h
  · cases h
  · next row hfind =>
    split at h
    · cases h
    · next hhash =>
      cases h
      exact ⟨row, hfind, rfl, not_not.mp hhash⟩

/-- **A statement of a call** answers with the invoice of its key. -/
theorem carries_leads {now : Timestamp} {args : Args} {tx : Option Tx} {pc : Pc} {next : Next}
    {db : Db} (h : Leads env now args w.db pc next db) (hw : SavedCarries merchantId key w)
    (hc : CallCarries merchantId key w (.running args tx pc)) :
    SavedCarries merchantId key { w with db, numbers := w.numbers ++ next.numbers } ∧
      CallCarries merchantId key { w with db, numbers := w.numbers ++ next.numbers }
        (next.call args tx) := by
  have hkept : Kept w.db db := .of_subset fun r hr => (leads_keeps h).1 ▸ hr
  constructor
  · intro row hfind
    rcases (leads_cases h).2 with hkeys | ⟨k, r, rfl, rfl⟩
    · have hfind' : Idempotency.find w.db merchantId key = some row := by
        rw [Idempotency.find, ← hkeys]
        exact hfind
      exact (hw row hfind').kept hkept
    · rcases find_of_save hfind with hfind | ⟨hm, hk, rfl⟩
      · exact (hw row hfind).kept hkept
      · subst hk
        exact (hc.2 hm (key_of_key? hc.1)).kept hkept
  · cases h with
    | replayed hcheck =>
      refine callCarries_finish fun hm hk => ?_
      obtain ⟨row, hfind, rfl, -⟩ := find_of_check hcheck
      cases hk.symm.trans (key_of_key? hc)
      subst hm
      exact hw row hfind
    | unused hcheck => exact hc
    | @found k r hfind =>
      refine callCarries_finish fun hm hk => ?_
      cases hk.symm.trans (key_of_key? hc)
      subst hm
      obtain ⟨hr, hp⟩ := Table.find?_some hfind
      simp only [Bool.and_eq_true, beq_iff_eq] at hp
      exact ⟨r, hr, hp.1, hp.2, r, rfl, rfl⟩
    | saved => exact callCarries_finish fun hm hk => (hc.2 hm hk).kept hkept
    | _ => trivial

/-- The row of an `INSERT` is of the merchant and the key of its call. -/
theorem key_of_rowOf {now : Timestamp} {id : Uuid} {args : Args} {tx : Option Tx} {q : Quote}
    {muxedId : Int} {r : Invoice} (h : rowOf env now id args tx q muxedId = some r) :
    r.id = id ∧ r.merchantId = q.merchant.id ∧ r.idempotencyKey = args.key ∧
      r.muxedId = muxedId := by
  obtain ⟨r₀, hrow, rfl⟩ := Option.map_eq_some_iff.mp h
  simp only [invoiceRow, Option.bind_eq_bind, Option.bind_eq_some_iff] at hrow
  obtain ⟨_, -, _, -, _, -, _, -, _, -, _, -, hrow⟩ := hrow
  split at hrow
  · cases hrow
  · cases hrow
    exact ⟨rfl, rfl, rfl, rfl⟩

/-- **A step of a call** answers with the invoice of its key. -/
theorem carries_moves (h : Moves env others i w c w' c')
    (hw : SavedCarries merchantId key w) (howned : Owned c)
    (hc : CallCarries merchantId key w c) :
    SavedCarries merchantId key w' ∧ CallCarries merchantId key w' c' := by
  have hkept := (moves_keeps h).1
  cases h with
  | started _ => exact ⟨hw, callCarries_of_entered (entered_enter _ _)⟩
  | startedBulk _ => exact ⟨hw, callCarries_nextInput⟩
  | stopped hstop =>
    rcases hstop with rfl | ⟨e, rfl⟩
    · exact ⟨hw, trivial⟩
    · exact ⟨hw, trivial⟩
  | ran hleads => exact carries_leads hleads hw hc
  | @inserted now id w args q check muxedId r invoices hrow hfree hins =>
    refine ⟨fun row hfind => (hw row hfind).kept hkept, ?_⟩
    obtain ⟨-, hmerchant, hkey, -⟩ := key_of_rowOf hrow
    have hcarries : args.merchantId = merchantId → args.key = some key →
        Carries { w.db with invoices } merchantId key (.invoice r) := fun hm hk =>
      ⟨r, (Table.mem_of_insert? hins r).mpr (.inr rfl), (hmerchant.trans howned).trans hm,
        hkey.trans hk, r, rfl, rfl⟩
    split
    · next k hk => exact ⟨hk, hcarries⟩
    · exact hcarries
  | pended _ _ _ => exact ⟨fun row hfind => (hw row hfind).kept hkept, callCarries_nextInput⟩
  | committed _ => exact ⟨fun row hfind => (hw row hfind).kept hkept, trivial⟩

/-- **The responses of a key carry its invoice**, in every run. -/
theorem carries_local (env : CreateEnv) (merchantId : Uuid) (key : String) :
    (program env).Local .free (SavedCarries merchantId key)
      (fun w c => Owned c ∧ CallCarries merchantId key w c) fun _ _ => True where
  symm _ _ _ := trivial
  seq := by
    intro cs i w c w' c' hexec _ hw hc _
    have hmoves := moves_of_exec hexec
    obtain ⟨hw', hc'⟩ := carries_moves hmoves hw hc.1 hc.2
    exact ⟨hw', owned_moves hmoves hc.1, hc'⟩
  free := by
    intro cs i w c w' c' hexec _ _ _ o _ ho _
    exact ⟨⟨ho.1, ho.2.kept (moves_keeps (moves_of_exec hexec)).1⟩, trivial⟩
  env := by
    intro cs r w w' henv _ hw hcs
    obtain ⟨db, hdb, rfl⟩ := Option.map_eq_some_iff.mp henv
    have hkept := (request_keeps hdb).1
    have hkeys : db.idempotencyKeys = w.db.idempotencyKeys := by
      cases r with
      | register id name createdAt =>
        obtain ⟨merchants, -, rfl⟩ := Option.map_eq_some_iff.mp hdb
        rfl
      | _ =>
        cases hdb
        rfl
    refine ⟨fun row hfind => ?_, fun o ho => ⟨(hcs o ho).1, (hcs o ho).2.kept hkept⟩⟩
    have hfind' : Idempotency.find w.db merchantId key = some row := by
      rw [Idempotency.find, ← hkeys]
      exact hfind
    exact (hw row hfind').kept hkept

/-! ## One invoice -/

/-- The rows of a key. -/
def invoicesOf (db : Db) (merchantId : Uuid) (key : String) : Nat :=
  db.invoices.rows.countP fun r => r.merchantId == merchantId && r.idempotencyKey == some key

/-- A call under a key has returned a response. -/
def Returned (s : Program.Sys World Call n) (merchantId : Uuid) (key : String)
    (response : Response) : Prop :=
  ∃ j args, s.calls j = .returned args response ∧ args.merchantId = merchantId ∧
    args.key = some key

theorem same_key_conflict {r r' : Invoice} (hm : r.merchantId = r'.merchantId)
    (hk : r.idempotencyKey = r'.idempotencyKey) (hne : r.idempotencyKey ≠ none) :
    Keyed.Conflict r r' :=
  .inr (.inr ⟨Prod.ext hm hk, hne⟩)

theorem invoicesOf_le (db : Db) (merchantId : Uuid) (key : String) :
    invoicesOf db merchantId key ≤ 1 := by
  rw [invoicesOf, List.countP_eq_length_filter]
  have hof : ∀ r ∈ db.invoices.rows.filter fun r =>
      r.merchantId == merchantId && r.idempotencyKey == some key,
      r.merchantId = merchantId ∧ r.idempotencyKey = some key := by
    intro r hr
    simpa using (List.mem_filter.mp hr).2
  have hpairs := db.invoices.unique.filter fun r =>
    r.merchantId == merchantId && r.idempotencyKey == some key
  -- two rows of the key would violate the unique index
  generalize db.invoices.rows.filter _ = rows at hof hpairs ⊢
  match rows, hof, hpairs with
  | [], _, _ => exact Nat.zero_le 1
  | [_], _, _ => exact Nat.le_refl 1
  | r :: r' :: _, hof, hpairs =>
    obtain ⟨hm, hk⟩ := hof r List.mem_cons_self
    obtain ⟨hm', hk'⟩ := hof r' (List.mem_cons_of_mem r List.mem_cons_self)
    have hclash : Keyed.Conflict r r' := same_key_conflict (hm.trans hm'.symm)
      (hk.trans hk'.symm) (hk ▸ Option.some_ne_none key)
    exact absurd hclash (List.rel_of_pairwise_cons hpairs List.mem_cons_self)

/-- **One invoice per key.** In every run from a state in which a key is unused, any number
of calls, which may crash anywhere, leave at most one invoice under the key, never change
its saved response, and all return that invoice: also a call that has returned before and
one that returns later. -/
theorem one_invoice {db : Db} {t t' : Program.Sys World Call n}
    {as as' : List (Program.Label Input Request n)}
    (hunused : Idempotency.find db merchantId key = none)
    (hrun : ((program env).interleave n).run (idle db n) as = some t)
    (hrun' : ((program env).interleave n).run t as' = some t') :
    invoicesOf t.db.db merchantId key ≤ 1 ∧
    (∀ row, Idempotency.find t.db.db merchantId key = some row →
      Idempotency.find t'.db.db merchantId key = some row) ∧
    ∀ response response', Returned t merchantId key response →
      Returned t' merchantId key response' →
      ∃ r r', response = .invoice r ∧ response' = .invoice r' ∧ r.id = r'.id := by
  have hcarries := (carries_local env merchantId key).inv_of_run ?_ hrun
  · have hcarries' := (carries_local env merchantId key).inv_of_run hcarries hrun'
    obtain ⟨hkept, hsaved⟩ := run_keeps hrun'
    refine ⟨invoicesOf_le _ _ _, fun row => hsaved merchantId key row, ?_⟩
    rintro response response' ⟨j, args, hj, hm, hk⟩ ⟨j', args', hj', hm', hk'⟩
    have hc := (hcarries.calls j).2
    have hc' := (hcarries'.calls j').2
    rw [hj] at hc
    rw [hj'] at hc'
    obtain ⟨r₁, hr₁, hm₁, hk₁, r, hresponse, hid⟩ := (hc hm hk).kept hkept
    obtain ⟨r₂, hr₂, hm₂, hk₂, r', hresponse', hid'⟩ := hc' hm' hk'
    have heq : r₁ = r₂ := Table.eq_of_conflict hr₁ hr₂ (same_key_conflict (hm₁.trans hm₂.symm)
      (hk₁.trans hk₂.symm) (hk₁ ▸ Option.some_ne_none key))
    exact ⟨r, r', hresponse, hresponse', hid.trans ((congrArg Invoice.id heq).trans hid'.symm)⟩
  · refine ⟨fun row hfind => ?_, fun k => ⟨trivial, trivial⟩, fun _ _ _ => trivial⟩
    exact absurd (hunused.symm.trans hfind) nofun

end

/-! ## A call that crashes before it saves its response -/

/-- Merchant 1 asks for an invoice of 10 USDC under the key `"k"`. -/
def keyedArgs : Args := ⟨1, tenUsdc, some "k"⟩

/-- The statements of the call `k`, the next of which uses the random id. -/
def statements (k : Fin 2) (id : Uuid) (m : Nat) : List (Program.Label Input Request 2) :=
  List.replicate m (.call k (.exec 0 id))

/-- The first call crashes after its `INSERT`; the second one finds the invoice. -/
def crashedCall : List (Program.Label Input Request 2) :=
  .call 0 (.create keyedArgs) :: statements 0 7 10 ++ [.call 0 .crash, .call 1 (.create keyedArgs)]

/-- Has the second call returned an invoice? -/
def returnedInvoice (s : Program.Sys World Call 2) : Bool :=
  match s.calls 1 with
  | .returned args (.invoice r) => r.id == 7 && args == keyedArgs
  | _ => false

theorem one_invoice_crashedCall : ∃ t t',
    ((program testEnv).interleave 2).run (idle testDb 2) crashedCall = some t ∧
    ((program testEnv).interleave 2).run t (statements 1 8 2) = some t' ∧
    returnedInvoice t' = true ∧ invoicesOf t.db.db 1 "k" ≤ 1 := by
  obtain ⟨t', hrun, hreturned⟩ := Lts.exists_of_leadsTo _ (fun s => returnedInvoice s = true)
    (idle testDb 2) (crashedCall ++ statements 1 8 2)
    (show ((program testEnv).interleave 2).leadsTo _ _ _ = true by decide +kernel)
  obtain ⟨t, hrun₁, hrun₂⟩ := (Lts.run_append _).mp hrun
  exact ⟨t, t', hrun₁, hrun₂, hreturned, (one_invoice rfl hrun₁ hrun₂).1⟩

end Stargate.CreateCalls
