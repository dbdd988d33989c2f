import Stargate.Disputes.Create
import Stargate.Invoices.Bookkeeping

/-!
# Two endpoints, one table of keys

`invoices.create` and `disputes.create` keep their responses in the same table, under
the merchant and the key alone. A call with a key that the other endpoint has used is
answered with what the other endpoint responded, or refused as a conflict.

- `Endpoint`: an endpoint, as far as its use of one key goes;
- `Unaffected`: calls of one endpoint with a key do not change what a call of another
  one with this key does, unless one of them saves its response;
- `keys_apart`: so it is for the two services, both ways;
- `keys_interfere`: where a response is saved, it is taken for the other one.
-/

namespace Stargate.Idempotency

open Base Invoices

/-- A key that is used: the services take an empty one for none. -/
structure Key where
  text : String
  nonempty : text ≠ ""

theorem Key.filter_ne (key : Key) : (some key.text).filter (· ≠ "") = some key.text := by
  simp [key.nonempty]

/-- An endpoint, under one merchant and one key. -/
structure Endpoint (merchantId : Uuid) (key : Key) where
  /-- The arguments of a call. -/
  Call : Type
  hash : Call → String
  exec : Call → Db → Except ApiError Response × Db
  /-- The call is accepted where the key is free, so that it saves its response. -/
  saves : Db → Call → Bool
  /-- What its calls respond. -/
  Own : Response → Prop
  found : ∀ {db row}, find db merchantId key.text = some row →
    ∀ c, exec c db = (replayed row (hash c), db)
  own : ∀ {db}, find db merchantId key.text = none →
    ∀ {c res}, (exec c db).1 = .ok res → Own res
  saved : ∀ {db c}, saves db c = true → find db merchantId key.text = none ∧
    ∃ row, find (exec c db).2 merchantId key.text = some row ∧ Own row.responseBody

/-! ## Runs with extra calls -/

section Runs

variable {merchantId : Uuid} {key : Key} {extra final : Endpoint merchantId key}
  {R : Db → Db → Prop}

/-- Any other operations, and extra calls of an endpoint. -/
def runs (extra : Endpoint merchantId key) : Lts Db ((Db → Db) ⊕ extra.Call) where
  step db
    | .inl f => some (f db)
    | .inr c => some (extra.exec c db).2

/-- No extra call saves a response, and the other operations do not tell apart what
`R` relates. -/
def quiet (extra : Endpoint merchantId key) (R : Db → Db → Prop) (db : Db) :
    (Db → Db) ⊕ extra.Call → Prop
  | .inl f => ∀ x y, R x y → R (f x) (f y)
  | .inr c => extra.saves db c = false

/-- **Extra calls change nothing if they save nothing**: so it is in every run, and
just before a call that would succeed, they change nothing only then. -/
def Unaffected (extra final : Endpoint merchantId key) (R : Db → Db → Prop) : Prop :=
  (∀ {db s s' : Db} {as : List ((Db → Db) ⊕ extra.Call)},
    (runs extra).Guarded (quiet extra R) db as →
    (runs extra).run db as = some s → (runs extra).run db (as.filter Sum.isLeft) = some s' →
    ∀ c, (final.exec c s).1 = (final.exec c s').1 ∧ R (final.exec c s).2 (final.exec c s').2) ∧
  ∀ {db s : Db} {es : List extra.Call}, (runs extra).run db (es.map .inr) = some s →
    ∀ {c : final.Call} {res : Response}, (final.exec c db).1 = .ok res →
    ((final.exec c s).1 = .ok res ↔ (runs extra).Guarded (quiet extra R) db (es.map .inr))

/-- Once the key has a row, extra calls find it. -/
theorem find_of_run {db s : Db} {row : IdempotencyKey} {es : List extra.Call}
    (h : find db merchantId key.text = some row)
    (hrun : (runs extra).run db (es.map .inr) = some s) : s = db := by
  induction es generalizing db with
  | nil => exact (Option.some.inj hrun).symm
  | cons c es ih =>
    obtain ⟨db', hstep, hrun⟩ := (Lts.run_cons _).mp hrun
    rw [← Option.some.inj hstep, extra.found h c] at hrun
    exact ih h hrun

/-- Extra calls that are not quiet leave the response of one of them under the key,
which was free. -/
theorem find_of_not_quiet
    (hR : ∀ x y, R x y → find x merchantId key.text = find y merchantId key.text)
    (hquiet : ∀ db c, extra.saves db c = false → R (extra.exec c db).2 db)
    {db s : Db} {es : List extra.Call} (hrun : (runs extra).run db (es.map .inr) = some s)
    (h : ¬ (runs extra).Guarded (quiet extra R) db (es.map .inr)) :
    find db merchantId key.text = none ∧
      ∃ row, find s merchantId key.text = some row ∧ extra.Own row.responseBody := by
  induction es generalizing db with
  | nil => exact absurd trivial h
  | cons c es ih =>
    obtain ⟨db', hstep, hrun⟩ := (Lts.run_cons _).mp hrun
    rw [List.map_cons, Lts.guarded_cons _ hstep] at h
    obtain rfl := Option.some.inj hstep
    cases hsaves : extra.saves db c with
    | true =>
      obtain ⟨hnone, row, hrow, hown⟩ := extra.saved hsaves
      rw [find_of_run hrow hrun]
      exact ⟨hnone, row, hrow, hown⟩
    | false =>
      have hrest : ¬ (runs extra).Guarded (quiet extra R) (extra.exec c db).2 (es.map .inr) :=
        fun hg => h ⟨hsaves, hg⟩
      obtain ⟨hnone, hrow⟩ := ih hrun hrest
      exact ⟨(hR _ _ (hquiet db c hsaves)).symm.trans hnone, hrow⟩

/-- **What the table of keys keeps apart.** -/
theorem unaffected (hrefl : ∀ x, R x x) (htrans : ∀ x y z, R x y → R y z → R x z)
    (hR : ∀ x y, R x y → find x merchantId key.text = find y merchantId key.text)
    (hquiet : ∀ db c, extra.saves db c = false → R (extra.exec c db).2 db)
    (hfinal : ∀ c x y, R x y →
      (final.exec c x).1 = (final.exec c y).1 ∧ R (final.exec c x).2 (final.exec c y).2)
    (hown : ∀ res, extra.Own res → ¬ final.Own res) : Unaffected extra final R := by
  have hrel : ∀ {db s s' : Db} {as : List ((Db → Db) ⊕ extra.Call)},
      (runs extra).Guarded (quiet extra R) db as → (runs extra).run db as = some s →
      (runs extra).run db (as.filter Sum.isLeft) = some s' → R s s' := by
    intro db s s' as hg hs hs'
    obtain ⟨t, ht, hst⟩ := (runs extra).run_purge (R := R)
      (fun x y f x' hxy hf hx => ⟨f y, rfl, by
        rw [← Option.some.inj hx]
        exact hf x y hxy⟩)
      (fun x y c x' hxy hc hx => by
        rw [← Option.some.inj hx]
        exact htrans _ _ _ (hquiet x c hc) hxy)
      (hrefl db) hg hs
    rwa [← Option.some.inj (ht.symm.trans hs')]
  refine ⟨fun hg hs hs' c => hfinal c _ _ (hrel hg hs hs'), ?_⟩
  intro db s es hrun c res hres
  have hnone : (es.map (Sum.inr (α := Db → Db))).filter Sum.isLeft = [] := by
    simp [List.filter_eq_nil_iff]
  by_cases hg : (runs extra).Guarded (quiet extra R) db (es.map .inr)
  · have hs : R s db := hrel hg hrun (by rw [hnone]; rfl)
    rw [(hfinal c _ _ hs).1]
    exact iff_of_true hres hg
  · obtain ⟨hfree, row, hrow, hextra⟩ := find_of_not_quiet hR hquiet hrun hg
    refine iff_of_false (fun hs => ?_) hg
    -- the response comes from the row
    rw [final.found hrow c] at hs
    unfold replayed at hs
    split at hs
    · cases hs
    · cases hs
      exact hown _ hextra (final.own hfree hres)

end Runs

/-! ## The two services -/

section Services

variable {env : CreateEnv} {now : Timestamp} {id : Uuid} {db db' : Db} {merchantId : Uuid}
  {input : CreateInput} {key : Key} {row : IdempotencyKey} {res : Response}

/-- The arguments of `disputes.create`, with the random id of the row. -/
structure DisputeCall where
  id : Uuid
  input : CreateInput

/-- Is the dispute stored, with its response? -/
def DisputeCall.saves (merchantId : Uuid) (key : Key) (db : Db) (c : DisputeCall) : Bool :=
  (find db merchantId key.text).isNone &&
    match Disputes.disputeRow c.id db merchantId c.input with
    | .ok dispute => (db.disputes.insert? dispute).isSome
    | .error _ => false

theorem createDispute_found (h : find db merchantId key.text = some row) :
    Disputes.create env.hashBody id db merchantId input (some key.text)
      = (replayed row (env.hashBody input), db) := by
  simp only [Disputes.create, key.filter_ne, Option.elim_some, check_of_find h]
  cases replayed row (env.hashBody input) <;> rfl

/-- What a call with a free key does: nothing, or it stores the dispute with its
response. -/
theorem createDispute_free (env : CreateEnv) (c : DisputeCall)
    (h : find db merchantId key.text = none) :
    (c.saves merchantId key db = false ∧ ∃ e,
      Disputes.create env.hashBody c.id db merchantId c.input (some key.text) = (.error e, db)) ∨
    (c.saves merchantId key db = true ∧ ∃ dispute disputes,
      Disputes.create env.hashBody c.id db merchantId c.input (some key.text)
        = (.ok (.dispute dispute), save { db with disputes } merchantId key.text
            (env.hashBody c.input) (.dispute dispute))) := by
  simp only [Disputes.create, key.filter_ne, Option.elim_some, check_of_not_found h,
    DisputeCall.saves, h]
  cases hrow : Disputes.disputeRow c.id db merchantId c.input with
  | error e => exact .inl ⟨rfl, e, rfl⟩
  | ok dispute =>
    cases hins : db.disputes.insert? dispute with
    | none => exact .inl ⟨by simp [hins], .database, by simp [hins]⟩
    | some disputes => exact .inr ⟨by simp [hins], dispute, disputes, by simp [hins]⟩

/-- `disputes.create`. -/
def disputes (env : CreateEnv) (merchantId : Uuid) (key : Key) : Endpoint merchantId key where
  Call := DisputeCall
  hash c := env.hashBody c.input
  exec c db := Disputes.create env.hashBody c.id db merchantId c.input (some key.text)
  saves := DisputeCall.saves merchantId key
  Own res := ∃ dispute, res = .dispute dispute
  found {_ _} h _ := createDispute_found h
  own {_} h {_ _} hres := by
    rcases createDispute_free env _ h with ⟨-, e, he⟩ | ⟨-, dispute, disputes, he⟩
    · rw [he] at hres
      cases hres
    · rw [he] at hres
      cases hres
      exact ⟨dispute, rfl⟩
  saved {db c} h := by
    have hfree := Option.isNone_iff_eq_none.mp ((Bool.and_eq_true _ _).mp h).1
    refine ⟨hfree, ?_⟩
    rcases createDispute_free env c hfree with ⟨hno, -⟩ | ⟨-, dispute, disputes, he⟩
    · cases h.symm.trans hno
    · rw [he]
      exact ⟨_, find_save hfree, dispute, rfl⟩

/-- The arguments of `invoices.create`, with its time and the random id of the row. -/
structure InvoiceCall where
  now : Timestamp
  id : Uuid
  input : CreateInput

/-- Is an invoice stored, with its response? -/
def InvoiceCall.saves (env : CreateEnv) (merchantId : Uuid) (key : Key) (db : Db)
    (c : InvoiceCall) : Bool :=
  (find db merchantId key.text).isNone && (findByKey db merchantId key.text).isNone &&
    match quote env c.now db merchantId c.input with
    | .ok q => (insertQuote env c.now c.id db (some key.text) q).1.toOption.isSome
    | .error _ => false

theorem createInvoice_found (h : find db merchantId key.text = some row) :
    Invoices.create env now id db merchantId input (some key.text)
      = (replayed row (env.hashBody input), db) := by
  simp only [Invoices.create, key.filter_ne, Option.elim_some, replay, check_of_find h]
  cases replayed row (env.hashBody input) <;> rfl

/-- Only merchants differ. -/
def SameButMerchants (x y : Db) : Prop := x = { y with merchants := x.merchants }

theorem replay_free (h : find db merchantId key.text = none) :
    replay env db merchantId input key.text
      = .ok ((findByKey db merchantId key.text).map .invoice) := by
  rw [replay, check_of_not_found h]

/-- What a call with a free key does: it takes a number at most, or it stores the
invoice with its response. -/
theorem createInvoice_free {result : Except ApiError Response}
    (h : find db merchantId key.text = none)
    (hcall : Invoices.create env now id db merchantId input (some key.text) = (result, db')) :
    (InvoiceCall.saves env merchantId key db ⟨now, id, input⟩ = false ∧
      (∀ res, result = .ok res → ∃ invoice, res = .invoice invoice) ∧
      SameButMerchants db' db) ∨
    InvoiceCall.saves env merchantId key db ⟨now, id, input⟩ = true ∧
      ∃ db₁ invoice, find db₁ merchantId key.text = none ∧ result = .ok (.invoice invoice) ∧
      db' = save db₁ merchantId key.text (env.hashBody input) (.invoice invoice) := by
  simp only [Invoices.create, key.filter_ne, Option.elim_some, replay_free h] at hcall
  cases hfound : findByKey db merchantId key.text with
  | some invoice =>
    rw [hfound] at hcall
    cases hcall
    refine .inl ⟨?_, fun res hres => ⟨invoice, (Except.ok.inj hres).symm⟩, rfl⟩
    simp only [InvoiceCall.saves, hfound, Option.isNone_some, Bool.and_false, Bool.false_and]
  | none =>
    rw [hfound] at hcall
    dsimp only [Option.map_none] at hcall
    split at hcall
    · next e hquote =>
      cases hcall
      refine .inl ⟨by simp only [InvoiceCall.saves, hquote, Bool.and_false], ?_, rfl⟩
      rintro _ ⟨⟩
    · next q hquote =>
      split at hcall
      · next e db₁ hinsert =>
        cases hcall
        refine .inl ⟨?_, ?_, ?_⟩
        · simp only [InvoiceCall.saves, hquote, hinsert, Except.toOption, Option.isSome_none,
            Bool.and_false]
        · rintro _ ⟨⟩
        · rcases insertQuote_cases hinsert with ⟨-, hsame⟩ | ⟨r, _, _, hr, -⟩
          · exact hsame.rest
          · cases hr
      · next invoice db₁ hinsert =>
        cases hcall
        refine .inr ⟨?_, db₁, invoice, ?_, rfl, rfl⟩
        · simp only [InvoiceCall.saves, h, hfound, hquote, hinsert, Except.toOption,
            Option.isNone_none, Option.isSome_some, Bool.and_true]
        rcases insertQuote_cases hinsert with ⟨⟨e, he⟩, -⟩ | ⟨r, db₂, invoices, -, hsame, -, rfl⟩
        · cases he
        · rw [← h, hsame.rest]
          rfl

/-- `invoices.create`. -/
def invoices (env : CreateEnv) (merchantId : Uuid) (key : Key) : Endpoint merchantId key where
  Call := InvoiceCall
  hash c := env.hashBody c.input
  exec c db := Invoices.create env c.now c.id db merchantId c.input (some key.text)
  saves := InvoiceCall.saves env merchantId key
  Own res := ∃ invoice, res = .invoice invoice
  found {_ _} h _ := createInvoice_found h
  own {db} h {c res} hres := by
    rcases hcall : Invoices.create env c.now c.id db merchantId c.input (some key.text) with
      ⟨result, db'⟩
    rw [hcall] at hres
    rcases createInvoice_free h hcall with ⟨-, hown, -⟩ | ⟨-, db₁, invoice, -, hresult, -⟩
    · exact hown res hres
    · exact ⟨invoice, Except.ok.inj (hres.symm.trans hresult)⟩
  saved {db c} h := by
    have hfree := Option.isNone_iff_eq_none.mp
      ((Bool.and_eq_true _ _).mp ((Bool.and_eq_true _ _).mp h).1).1
    refine ⟨hfree, ?_⟩
    rcases hcall : Invoices.create env c.now c.id db merchantId c.input (some key.text) with
      ⟨result, db'⟩
    rcases createInvoice_free hfree hcall with ⟨hno, -⟩ | ⟨-, db₁, invoice, hfree₁, -, rfl⟩
    · cases h.symm.trans hno
    · exact ⟨_, find_save hfree₁, invoice, rfl⟩

/-- Disputes do not depend on merchants. -/
theorem createDispute_merchants (hashBody : CreateInput → String) (id : Uuid) (db : Db)
    (merchantId : Uuid) (input : CreateInput) (key : Option String) (merchants : Table Merchant) :
    Disputes.create hashBody id { db with merchants } merchantId input key
      = ((Disputes.create hashBody id db merchantId input key).1,
        { (Disputes.create hashBody id db merchantId input key).2 with merchants }) := by
  have hcheck : ∀ key, check { db with merchants } merchantId key (hashBody input)
      = check db merchantId key (hashBody input) := fun _ => rfl
  have hrow : Disputes.disputeRow id { db with merchants } merchantId input
      = Disputes.disputeRow id db merchantId input := rfl
  have hsave : ∀ (disputes : Table Dispute) key response,
      save { db with merchants, disputes } merchantId key (hashBody input) response
        = { save { db with disputes } merchantId key (hashBody input) response with
          merchants } := by
    intro disputes key response
    unfold save
    dsimp only
    split <;> rfl
  unfold Disputes.create
  simp only [hcheck, hrow]
  split
  · rfl
  · rfl
  · split
    · rfl
    · split
      · rfl
      · next disputes hins =>
        cases key.filter (· ≠ "") with
        | none => rfl
        | some key => simp only [Option.elim_some, hsave]

/-- **Where keys of different endpoints do not interfere**: extra calls of
`disputes.create` with a key change nothing for `invoices.create` with this key if
none of them saves its response, that is, if each finds the key taken or is refused.
Just before a call that would store an invoice, they change nothing only then. The
same holds the other way round. -/
theorem keys_apart (env : CreateEnv) (merchantId : Uuid) (key : Key) :
    Unaffected (disputes env merchantId key) (invoices env merchantId key) Eq ∧
      Unaffected (invoices env merchantId key) (disputes env merchantId key) SameButMerchants := by
  constructor
  · refine unaffected (fun _ => rfl) (fun _ _ _ => Eq.trans) (fun x y h => h ▸ rfl) ?_ ?_ ?_
    · intro db c hsaves
      cases hfound : find db merchantId key.text with
      | some row => exact congrArg Prod.snd ((disputes env merchantId key).found hfound c)
      | none =>
        rcases createDispute_free env c hfound with ⟨-, e, he⟩ | ⟨hyes, -⟩
        · exact congrArg Prod.snd he
        · cases hsaves.symm.trans hyes
    · rintro c x _ rfl
      exact ⟨rfl, rfl⟩
    · rintro _ ⟨dispute, rfl⟩ ⟨invoice, hno⟩
      cases hno
  · refine unaffected (fun _ => rfl) (fun x y z hxy hyz => ?_) (fun x y h => ?_) ?_ ?_ ?_
    · unfold SameButMerchants at hxy hyz ⊢
      rw [hxy, hyz]
    · rw [show x = { y with merchants := x.merchants } from h]
      rfl
    · intro db c hsaves
      cases hfound : find db merchantId key.text with
      | some row =>
        rw [(invoices env merchantId key).found hfound c]
        exact rfl
      | none =>
        rcases hcall : Invoices.create env c.now c.id db merchantId c.input (some key.text) with
          ⟨result, db'⟩
        rcases createInvoice_free hfound hcall with ⟨-, -, hsame⟩ | ⟨hyes, -⟩
        · show SameButMerchants (Invoices.create ..).2 db
          rw [hcall]
          exact hsame
        · cases hsaves.symm.trans hyes
    · rintro c x y hxy
      have hcall := createDispute_merchants (env.hashBody) c.id y merchantId c.input
        (some key.text) x.merchants
      rw [← show x = { y with merchants := x.merchants } from hxy] at hcall
      show (Disputes.create ..).1 = (Disputes.create ..).1 ∧
        SameButMerchants (Disputes.create ..).2 (Disputes.create ..).2
      rw [hcall]
      exact ⟨rfl, rfl⟩
    · rintro _ ⟨invoice, rfl⟩ ⟨dispute, hno⟩
      cases hno

end Services

/-! ## Calls on the fixtures -/

/-- A service that hashes the text of the body. -/
def testEnv : CreateEnv := { Invoices.testEnv with hashBody := CreateInput.text }

def testKey : Key := ⟨"key-1", by decide⟩

/-- A body that both schemas accept. -/
def bothBody : CreateInput where
  amountUsdc := some (.text "10")
  invoiceId := some 1
  text := "\x7binvoice_id:1,amount_usdc:10\x7d"

/-- Another one. -/
def otherBody : CreateInput :=
  { bothBody with
    reason := some "late"
    text := "\x7binvoice_id:1,amount_usdc:10,reason:late\x7d" }

/-- What kind of response a call gives. -/
inductive Outcome where
  | invoice | dispute | conflict | refused
  deriving DecidableEq

def outcome : Except ApiError Response × Db → Outcome
  | (.ok (.invoice _), _) => .invoice
  | (.ok (.dispute _), _) => .dispute
  | (.error (.conflict _), _) => .conflict
  | (.error _, _) => .refused

/-- A dispute of an invoice that does not exist. -/
def strayDispute : DisputeCall := ⟨7, { bothBody with invoiceId := some 2 }⟩

/-- It is refused, and the invoice is created as without it. -/
theorem keys_apart_stray :
    ∃ s, (runs (disputes testEnv 1 testKey)).run Refunds.paidDb [.inr strayDispute] = some s ∧
      (Invoices.create testEnv 0 2 s 1 bothBody (some "key-1")).1
        = (Invoices.create testEnv 0 2 Refunds.paidDb 1 bothBody (some "key-1")).1 := by
  have hsaves : strayDispute.saves 1 testKey Refunds.paidDb = false := by decide +kernel
  have hguard : (runs (disputes testEnv 1 testKey)).Guarded (quiet (disputes testEnv 1 testKey) Eq)
      Refunds.paidDb [.inr strayDispute] := ⟨hsaves, trivial⟩
  exact ⟨_, rfl, ((keys_apart testEnv 1 testKey).1.1 hguard rfl rfl ⟨0, 2, bothBody⟩).1⟩

/-- **Keys that interfere**: after a dispute, a call that would create an invoice
responds with the dispute, or is a conflict; after an invoice, it is the other way
round. -/
theorem keys_interfere :
    (∃ s, (runs (disputes testEnv 1 testKey)).run Refunds.paidDb [.inr ⟨7, bothBody⟩] = some s ∧
      outcome (Invoices.create testEnv 0 2 Refunds.paidDb 1 bothBody (some "key-1")) = .invoice ∧
      outcome (Invoices.create testEnv 0 2 s 1 bothBody (some "key-1")) = .dispute ∧
      outcome (Invoices.create testEnv 0 2 s 1 otherBody (some "key-1")) = .conflict) ∧
    ∃ s, (runs (invoices testEnv 1 testKey)).run Refunds.paidDb [.inr ⟨0, 2, bothBody⟩] = some s ∧
      outcome (Disputes.create testEnv.hashBody 7 Refunds.paidDb 1 bothBody (some "key-1"))
        = .dispute ∧
      outcome (Disputes.create testEnv.hashBody 7 s 1 bothBody (some "key-1")) = .invoice ∧
      outcome (Disputes.create testEnv.hashBody 7 s 1 otherBody (some "key-1")) = .conflict := by
  constructor
  · exact (runs (disputes testEnv 1 testKey)).exists_of_leadsTo
      (fun s => outcome (Invoices.create testEnv 0 2 Refunds.paidDb 1 bothBody (some "key-1"))
          = .invoice ∧
        outcome (Invoices.create testEnv 0 2 s 1 bothBody (some "key-1")) = .dispute ∧
        outcome (Invoices.create testEnv 0 2 s 1 otherBody (some "key-1")) = .conflict)
      Refunds.paidDb [.inr ⟨7, bothBody⟩] (by decide +kernel)
  · exact (runs (invoices testEnv 1 testKey)).exists_of_leadsTo
      (fun s => outcome (Disputes.create testEnv.hashBody 7 Refunds.paidDb 1 bothBody
          (some "key-1")) = .dispute ∧
        outcome (Disputes.create testEnv.hashBody 7 s 1 bothBody (some "key-1")) = .invoice ∧
        outcome (Disputes.create testEnv.hashBody 7 s 1 otherBody (some "key-1")) = .conflict)
      Refunds.paidDb [.inr ⟨0, 2, bothBody⟩] (by decide +kernel)

end Stargate.Idempotency
