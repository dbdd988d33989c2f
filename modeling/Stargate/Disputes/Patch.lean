import Stargate.Base.Transition
import Stargate.Disputes.Create
import Stargate.Merchants.Update

/-!
# `DisputesService.patch` and the open disputes of an invoice

`create` refuses a second open dispute of an invoice. `patch` sets any of the five statuses,
whatever the status of the row and whatever other disputes its invoice has.

- `patch`: the call;
- `system`: calls of `create` and `patch`, and what other services do in between;
- `Inv`: an invoice has at most one open dispute, and its disputes are its merchant's;
- `opensSecond`: a patch that gives an open status to a dispute whose invoice has another open
  one. `at_most_one_open_iff` says that these are the calls that break the invariant.
-/

namespace Stargate.Disputes

open Base Invoices
open Merchants (UpdateEnv textParam)

/-! ## The call -/

/-- The columns of `disputes` that `create` leaves to their defaults. -/
structure PatchedColumns where
  resolvedAt : Option Timestamp
  updatedAt : Option Timestamp
  note : Option String
  deriving DecidableEq

/-- The rows of all tables, with the other columns of each row of `disputes` by its id. Those of
an id that is not stored are the defaults that its row will have. -/
structure Store where
  db : Db
  columns : Uuid → PatchedColumns

/-- The body of a request, an object. A field may be absent. -/
structure PatchInput where
  status : Option String := none
  resolvedAt : Option String := none
  note : Option String := none

/-- A parsed request. -/
structure PatchDto where
  status : DisputeStatus
  resolvedAt : Option String
  note : Option String

/-- The text of `disputes.status`. -/
def statusText : DisputeStatus → String
  | .submitted => "submitted"
  | .underReview => "under_review"
  | .won => "won"
  | .lost => "lost"
  | .rejected => "rejected"

/-- `z.enum(['submitted', 'under_review', 'won', 'lost', 'rejected'])`. -/
def parseStatus (s : String) : Except ApiError DisputeStatus :=
  match [DisputeStatus.submitted, .underReview, .won, .lost, .rejected].find? fun status =>
      statusText status == s with
  | some status => .ok status
  | none => .error .zodError

theorem parseStatus_statusText (status : DisputeStatus) :
    parseStatus (statusText status) = .ok status := by
  cases status <;> decide

/-- `patchDisputeSchema.parse(input)`. -/
def parsePatch (env : UpdateEnv) (input : PatchInput) : Except ApiError PatchDto := do
  let some text := input.status | throw .zodError
  let status ← parseStatus text
  if input.resolvedAt.any fun s => (env.datetime s).isNone then throw .zodError
  if input.note.any fun s => 1000 < utf16Length s then throw .zodError
  return {
    status
    resolvedAt := input.resolvedAt
    note := input.note }

/-- The parameters `$3` to `$5`, as the database reads them. -/
structure PatchParams where
  status : DisputeStatus
  resolvedAt : Option Timestamp
  note : Option String

def readPatch (env : UpdateEnv) (dto : PatchDto) : Option PatchParams := do
  let resolvedAt ← dto.resolvedAt.mapM env.timestamptz
  let note ← dto.note.mapM textParam
  return {
    status := dto.status
    resolvedAt
    note }

/-- What the service and the database accept of a body. -/
def acceptPatch (env : UpdateEnv) (input : PatchInput) : Except ApiError PatchParams := do
  let dto ← parsePatch env input
  match readPatch env dto with
  | some params => return params
  | none => throw .database

/-- The assignments to the columns that only this statement writes. -/
def PatchParams.columns (p : PatchParams) (now : Timestamp) : PatchedColumns where
  -- COALESCE($4, CASE WHEN $3 IN ('won','lost','rejected') THEN NOW() ELSE NULL END)
  resolvedAt := p.resolvedAt.or (if isOpen p.status then none else some now)
  updatedAt := some now
  note := p.note

/-- `WHERE id=$1 AND merchant_id=$2`. -/
def ofMerchant (merchantId id : Uuid) (d : Dispute) : Bool :=
  d.id == id && d.merchantId == merchantId

/-- The rows after `SET status=$3`. -/
def setStatus (disputes : Table Dispute) (merchantId id : Uuid) (status : DisputeStatus) :
    Table Dispute :=
  disputes.modify (ofMerchant merchantId id) (fun d => { d with status }) fun _ => rfl

/-- `patch(merchantId, id, input)`. An id that is `none` is a text that is no UUID. -/
def patch (env : UpdateEnv) (now : Timestamp) (s : Store) (merchantId : Uuid) (id : Option Uuid)
    (input : PatchInput) : Except ApiError (Dispute × PatchedColumns) × Store :=
  match acceptPatch env input, id with
  | .error e, _ => (.error e, s)
  | .ok _, none => (.error .database, s)
  | .ok p, some id =>
    match s.db.disputes.find? (ofMerchant merchantId id) with
    | none => (.error (.notFound "Dispute not found"), s)
    | some d =>
      (.ok ({ d with status := p.status }, p.columns now),
        { db := { s.db with disputes := setStatus s.db.disputes merchantId id p.status }
          columns := Function.update s.columns id (p.columns now) })

/-! ## Runs -/

inductive Label where
  /-- A call of `create`, with the random id of its row. -/
  | create (id : Uuid) (merchantId : Uuid) (input : CreateInput) (key : Option String)
  /-- A call of `patch`, with the time of its statement. -/
  | patch (now : Timestamp) (merchantId : Uuid) (id : Option Uuid) (input : PatchInput)
  /-- What another service does between two calls. -/
  | other (db : Db)

/-- Other services leave disputes alone; they never delete an invoice or change its merchant. -/
def Leaves (old new : Db) : Prop :=
  new.disputes = old.disputes ∧
    ∀ i ∈ old.invoices.rows, ∃ j ∈ new.invoices.rows, j.id = i.id ∧ j.merchantId = i.merchantId

instance decidableLeaves (old new : Db) : Decidable (Leaves old new) :=
  inferInstanceAs (Decidable (_ ∧ _))

/-- Calls without overlap. -/
def system (hashBody : CreateInput → String) (env : UpdateEnv) : Lts Store Label where
  step s
  | .create id merchantId input key =>
    some { s with db := (create hashBody id s.db merchantId input key).2 }
  | .patch now merchantId id input => some (patch env now s merchantId id input).2
  | .other db => if Leaves s.db db then some { s with db } else none

/-- Before the first dispute. -/
def noDisputes (s : Store) : Store := { s with db := { s.db with disputes := .empty } }

/-- Each invoice has at most one open dispute. -/
def AtMostOneOpen (db : Db) : Prop :=
  ∀ d ∈ db.disputes.rows, ∀ d' ∈ db.disputes.rows, d.invoiceId = d'.invoiceId →
    isOpen d.status = true → isOpen d'.status = true → d = d'

instance decidableAtMostOneOpen (db : Db) : Decidable (AtMostOneOpen db) := by
  unfold AtMostOneOpen
  infer_instance

/-- A patch that gives an open status to a dispute whose invoice has another open one. -/
def opensSecond (env : UpdateEnv) (s : Store) : Label → Prop
  | .patch _ merchantId (some id) input =>
    ∃ p, acceptPatch env input = .ok p ∧ isOpen p.status = true ∧
      ∃ d ∈ s.db.disputes.rows, ofMerchant merchantId id d = true ∧
        ∃ d' ∈ s.db.disputes.rows, d' ≠ d ∧ d'.invoiceId = d.invoiceId ∧ isOpen d'.status = true
  | _ => False

/-! ## What a step does -/

section Steps

variable {hashBody : CreateInput → String} {env : UpdateEnv} {s s' : Store} {db db' : Db}
  {id merchantId : Uuid} {input : CreateInput} {key : Option String} {d : Dispute}

theorem findInvoice_spec {invoice : Invoice}
    (h : Refunds.findInvoice db merchantId id = .ok invoice) :
    invoice ∈ db.invoices.rows ∧ invoice.id = id ∧ invoice.merchantId = merchantId := by
  unfold Refunds.findInvoice at h
  split at h
  · next found hfind =>
    cases h
    obtain ⟨hmem, hp⟩ := Table.find?_some hfind
    obtain ⟨hid, hm⟩ := (Bool.and_eq_true _ _).mp hp
    exact ⟨hmem, beq_iff_eq.mp hid, beq_iff_eq.mp hm⟩
  · cases h

/-- The checks that a new row has passed. -/
theorem disputeRow_spec (h : disputeRow id db merchantId input = .ok d) :
    d.merchantId = merchantId ∧ hasOpen db merchantId d.invoiceId = false ∧
      ∃ i ∈ db.invoices.rows, i.id = d.invoiceId ∧ i.merchantId = merchantId := by
  obtain ⟨dto, -, h⟩ := bind_eq_ok.mp h
  obtain ⟨units, -, h⟩ := bind_eq_ok.mp h
  obtain ⟨invoice, hinvoice, h⟩ := bind_eq_ok.mp h
  dsimp only at h
  split at h
  · cases h
  · split at h
    · cases h
    · next hopen =>
      split at h
      · cases h
        exact ⟨rfl, Bool.not_eq_true _ ▸ hopen, invoice, findInvoice_spec hinvoice⟩
      · cases h

/-- **What `create` does** to the disputes: nothing, or it adds a row that has passed the
checks. -/
theorem create_cases (hashBody : CreateInput → String) (id : Uuid) (db : Db) (merchantId : Uuid)
    (input : CreateInput) (key : Option String) :
    (create hashBody id db merchantId input key).2.invoices = db.invoices ∧
      ((create hashBody id db merchantId input key).2.disputes = db.disputes ∨
        ∃ d disputes, disputeRow id db merchantId input = .ok d ∧
          db.disputes.insert? d = some disputes ∧
          (create hashBody id db merchantId input key).2.disputes = disputes) := by
  unfold create
  split
  · exact ⟨rfl, .inl rfl⟩
  · exact ⟨rfl, .inl rfl⟩
  · split
    · exact ⟨rfl, .inl rfl⟩
    · next d hrow =>
      split
      · exact ⟨rfl, .inl rfl⟩
      · next disputes hins =>
        cases key.filter (· ≠ "") with
        | none => exact ⟨rfl, .inr ⟨d, disputes, hrow, hins, rfl⟩⟩
        | some key =>
          obtain ⟨_, hsave⟩ := Idempotency.save_eq { db with disputes } merchantId key
            (hashBody input) (.dispute d)
          dsimp only
          rw [Option.elim_some, hsave]
          exact ⟨rfl, .inr ⟨d, disputes, hrow, hins, rfl⟩⟩

/-- **What `patch` does**: nothing, or it sets the status of one row. -/
theorem patch_cases (env : UpdateEnv) (now : Timestamp) (s : Store) (merchantId : Uuid)
    (id : Option Uuid) (input : PatchInput) :
    (patch env now s merchantId id input).2 = s ∨
      ∃ p key d, acceptPatch env input = .ok p ∧ id = some key ∧ d ∈ s.db.disputes ∧
        ofMerchant merchantId key d = true ∧ (patch env now s merchantId id input).2.db
          = { s.db with disputes := setStatus s.db.disputes merchantId key p.status } := by
  unfold patch
  split
  · exact .inl rfl
  · exact .inl rfl
  · next p key haccept =>
    split
    · exact .inl rfl
    · next d hfind =>
      obtain ⟨hmem, hd⟩ := Table.find?_some hfind
      exact .inr ⟨p, key, d, haccept, rfl, hmem, hd, rfl⟩

/-- A patch that is accepted and finds its row sets the status. -/
theorem patch_of_found {p : PatchParams} {now : Timestamp} {patchInput : PatchInput}
    (haccept : acceptPatch env patchInput = .ok p) (hd : d ∈ s.db.disputes)
    (hp : ofMerchant merchantId id d = true) :
    (patch env now s merchantId (some id) patchInput).2.db
      = { s.db with disputes := setStatus s.db.disputes merchantId id p.status } := by
  unfold patch
  rw [haccept]
  dsimp only
  split
  · next hfind => exact absurd hp (List.find?_eq_none.mp hfind d hd)
  · rfl

/-- The rows have different ids. -/
theorem eq_of_ofMerchant {d' : Dispute} (hd : d ∈ db.disputes) (hd' : d' ∈ db.disputes)
    (h : ofMerchant merchantId id d = true) (h' : ofMerchant merchantId id d' = true) : d = d' := by
  have hid := beq_iff_eq.mp ((Bool.and_eq_true _ _).mp h).1
  have hid' := beq_iff_eq.mp ((Bool.and_eq_true _ _).mp h').1
  exact Table.eq_of_conflict hd hd' (hid.trans hid'.symm)

end Steps

/-! ## The invariant -/

/-- What a call may rely on: a dispute belongs to the merchant of its invoice, so the check of
`create`, which asks for the merchant too, sees every open dispute of the invoice. -/
structure Inv (db : Db) : Prop where
  oneOpen : AtMostOneOpen db
  ofInvoice : ∀ d ∈ db.disputes.rows, ∃ i ∈ db.invoices.rows,
    i.id = d.invoiceId ∧ i.merchantId = d.merchantId

section Invariant

variable {hashBody : CreateInput → String} {env : UpdateEnv} {s s' : Store} {db db' : Db}
  {id merchantId : Uuid} {input : CreateInput} {key : Option String} {d : Dispute}

theorem inv_noDisputes (s : Store) : Inv (noDisputes s).db where
  oneOpen _ hd := nomatch hd
  ofInvoice _ hd := nomatch hd

/-- The invariant is about two tables. -/
theorem Inv.congr (h : Inv db) (hd : db'.disputes = db.disputes)
    (hi : ∀ i ∈ db.invoices.rows, ∃ j ∈ db'.invoices.rows,
      j.id = i.id ∧ j.merchantId = i.merchantId) : Inv db' where
  oneOpen := by
    unfold AtMostOneOpen
    rw [hd]
    exact h.oneOpen
  ofInvoice d hmem := by
    rw [hd] at hmem
    obtain ⟨i, himem, hid, hm⟩ := h.ofInvoice d hmem
    obtain ⟨j, hjmem, hjid, hjm⟩ := hi i himem
    exact ⟨j, hjmem, hjid.trans hid, hjm.trans hm⟩

/-- A row that has passed the checks is the only open dispute of its invoice. -/
theorem not_open_of_disputeRow (hinv : Inv db) (h : disputeRow id db merchantId input = .ok d) :
    ∀ d' ∈ db.disputes.rows, d'.invoiceId = d.invoiceId → isOpen d'.status = false := by
  intro d' hd' hsame
  obtain ⟨-, hopen, i, hi, hid, hm⟩ := disputeRow_spec h
  obtain ⟨j, hj, hjid, hjm⟩ := hinv.ofInvoice d' hd'
  -- the invoice of both
  have hij : i = j := Table.eq_of_conflict hi hj (.inl (hid.trans (hjid.trans hsame).symm))
  have hmerchant : d'.merchantId = merchantId := by rw [← hjm, ← hij, hm]
  by_contra hyes
  rw [Bool.not_eq_false] at hyes
  have hany : hasOpen db merchantId d.invoiceId = true :=
    List.any_eq_true.mpr ⟨d', hd', by simp [hsame, hmerchant, hyes]⟩
  cases hopen.symm.trans hany

theorem Inv.insert (hinv : Inv db) (hrow : disputeRow id db merchantId input = .ok d)
    {disputes : Table Dispute} (hins : db.disputes.insert? d = some disputes) :
    Inv { db with disputes } where
  oneOpen := by
    have hclosed := not_open_of_disputeRow hinv hrow
    intro a ha b hb hsame hopena hopenb
    rcases (Table.mem_of_insert? hins a).mp ha with ha | rfl
    · rcases (Table.mem_of_insert? hins b).mp hb with hb | rfl
      · exact hinv.oneOpen a ha b hb hsame hopena hopenb
      · cases hopena.symm.trans (hclosed a ha hsame)
    · rcases (Table.mem_of_insert? hins b).mp hb with hb | rfl
      · cases hopenb.symm.trans (hclosed b hb hsame.symm)
      · rfl
  ofInvoice a ha := by
    rcases (Table.mem_of_insert? hins a).mp ha with ha | rfl
    · exact hinv.ofInvoice a ha
    · obtain ⟨hm, -, i, hi, hid, him⟩ := disputeRow_spec hrow
      exact ⟨i, hi, hid, him.trans hm.symm⟩

theorem Inv.create (hinv : Inv db) : Inv (create hashBody id db merchantId input key).2 := by
  obtain ⟨hinvoices, hsame | ⟨d, disputes, hrow, hins, hdisputes⟩⟩ :=
    create_cases hashBody id db merchantId input key
  · exact hinv.congr hsame fun i hi => ⟨i, hinvoices ▸ hi, rfl, rfl⟩
  · exact (hinv.insert hrow hins).congr hdisputes fun i hi => ⟨i, hinvoices ▸ hi, rfl, rfl⟩

theorem mem_setStatus_iff {disputes : Table Dispute} {status : DisputeStatus} {x : Dispute} :
    x ∈ setStatus disputes merchantId id status ↔ ∃ r ∈ disputes,
      (if ofMerchant merchantId id r then { r with status } else r) = x :=
  Table.mem_modify _

/-- A row after the assignment: the row that is patched, or another one. -/
theorem mem_setStatus {x : Dispute} {status : DisputeStatus} (hd : d ∈ db.disputes)
    (hp : ofMerchant merchantId id d = true)
    (hx : x ∈ setStatus db.disputes merchantId id status) :
    x = { d with status } ∨ x ∈ db.disputes ∧ x ≠ d := by
  rcases Table.of_mem_modify hx with ⟨hx, hno⟩ | ⟨r, hr, hyes, rfl⟩
  · refine .inr ⟨hx, ?_⟩
    rintro rfl
    cases hno.symm.trans hp
  · rw [eq_of_ofMerchant hr hd hyes hp]
    exact .inl rfl

/-- The other rows stay as they are. -/
theorem mem_setStatus_of_ne {d' : Dispute} {status : DisputeStatus} (hd : d ∈ db.disputes)
    (hp : ofMerchant merchantId id d = true) (hd' : d' ∈ db.disputes) (hne : d' ≠ d) :
    d' ∈ Disputes.setStatus db.disputes merchantId id status := by
  have hno : ¬ ofMerchant merchantId id d' = true := fun hyes =>
    hne (eq_of_ofMerchant hd' hd hyes hp)
  exact mem_setStatus_iff.mpr ⟨d', hd', if_neg hno⟩

theorem Inv.setStatus {status : DisputeStatus} (hinv : Inv db) (hd : d ∈ db.disputes)
    (hp : ofMerchant merchantId id d = true)
    (hok : isOpen status = true → ∀ d' ∈ db.disputes.rows, d' ≠ d → d'.invoiceId = d.invoiceId →
      isOpen d'.status = false) :
    Inv { db with disputes := setStatus db.disputes merchantId id status } where
  oneOpen := by
    intro a ha b hb hsame hopena hopenb
    rcases mem_setStatus hd hp ha with rfl | ⟨ha, hnea⟩
    · rcases mem_setStatus hd hp hb with rfl | ⟨hb, hneb⟩
      · rfl
      · cases hopenb.symm.trans (hok hopena b hb hneb hsame.symm)
    · rcases mem_setStatus hd hp hb with rfl | ⟨hb, -⟩
      · cases hopena.symm.trans (hok hopenb a ha hnea hsame)
      · exact hinv.oneOpen a ha b hb hsame hopena hopenb
  ofInvoice a ha := by
    rcases mem_setStatus hd hp ha with rfl | ⟨ha, -⟩
    · exact hinv.ofInvoice d hd
    · exact hinv.ofInvoice a ha

theorem Inv.patch {now : Timestamp} {patchId : Option Uuid} {patchInput : PatchInput}
    (hinv : Inv s.db) (hok : ¬ opensSecond env s (.patch now merchantId patchId patchInput)) :
    Inv (patch env now s merchantId patchId patchInput).2.db := by
  rcases patch_cases env now s merchantId patchId patchInput with hsame | ⟨p, id, d, haccept,
    rfl, hd, hp, heq⟩
  · rw [hsame]
    exact hinv
  · rw [heq]
    refine hinv.setStatus hd hp fun hopen d' hd' hne hinvoice => ?_
    by_contra hyes
    exact hok ⟨p, haccept, hopen, d, hd, hp, d', hd', hne, hinvoice, Bool.not_eq_false _ ▸ hyes⟩

/-- **What one step keeps.** -/
theorem inv_step {a : Label} (hinv : Inv s.db) (hok : ¬ opensSecond env s a)
    (hs : (system hashBody env).step s a = some s') : Inv s'.db := by
  cases a with
  | create id merchantId input key =>
    cases hs
    exact hinv.create
  | patch now merchantId id input =>
    cases hs
    exact hinv.patch hok
  | other db =>
    simp only [system] at hs
    split at hs
    · next hleaves =>
      cases hs
      exact hinv.congr hleaves.1 hleaves.2
    · cases hs

/-- A patch that is not admitted leaves two open disputes. -/
theorem not_atMostOneOpen {a : Label} (hbad : opensSecond env s a)
    (hs : (system hashBody env).step s a = some s') : ¬ AtMostOneOpen s'.db := by
  cases a with
  | create => cases hbad
  | other => cases hbad
  | patch now merchantId id input =>
    cases id with
    | none => cases hbad
    | some id =>
      obtain ⟨p, haccept, hopen, d, hd, hp, d', hd', hne, hinvoice, hopen'⟩ := hbad
      cases hs
      rw [patch_of_found haccept hd hp]
      intro hone
      have hnew : { d with status := p.status } ∈
          Disputes.setStatus s.db.disputes merchantId id p.status :=
        mem_setStatus_iff.mpr ⟨d, hd, if_pos hp⟩
      have hsame : { d with status := p.status } = d' :=
        hone _ hnew d' (mem_setStatus_of_ne hd hp hd' hne) hinvoice.symm hopen hopen'
      exact hne (Table.eq_of_conflict hd' hd (congrArg Dispute.id hsame).symm)

end Invariant

/-- **Open disputes**: each invoice has at most one in every state of a run if and only if no
call of the run is a patch that gives an open status to a dispute whose invoice has another open
one. -/
theorem at_most_one_open_iff (hashBody : CreateInput → String) (env : UpdateEnv) (s : Store)
    (calls : List Label) (t : Store)
    (hr : (system hashBody env).run (noDisputes s) calls = some t) :
    (system hashBody env).Guarded (fun s a => ¬ opensSecond env s a) (noDisputes s) calls ↔
      ∀ done rest u, calls = done ++ rest →
        (system hashBody env).run (noDisputes s) done = some u → AtMostOneOpen u.db :=
  (system hashBody env).guarded_iff (I := fun s => Inv s.db)
    (fun _ _ _ hinv hok hs => inv_step hinv hok hs) (fun _ hinv => hinv.oneOpen)
    (fun _ _ _ _ hbad hs => not_atMostOneOpen (Classical.not_not.mp hbad) hs)
    (inv_noDisputes s) hr

/-! ## Runs on the fixtures -/

/-- No instants are read. -/
def testEnv : UpdateEnv := ⟨fun _ => none, fun _ => none⟩

/-- A paid invoice of merchant 1. -/
def testStore : Store := ⟨Refunds.paidDb, fun _ => ⟨none, none, none⟩⟩

def disputeBody : CreateInput where
  amountUsdc := some (.text "10")
  invoiceId := some 1

def statusBody (status : DisputeStatus) : PatchInput := { status := some (statusText status) }

theorem acceptPatch_statusBody (env : UpdateEnv) (status : DisputeStatus) :
    acceptPatch env (statusBody status) = .ok ⟨status, none, none⟩ := by
  unfold acceptPatch parsePatch statusBody
  dsimp only
  rw [parseStatus_statusText]
  rfl

/-- A dispute that is lost, and another one of the same invoice. -/
def disputedAgain : List Label :=
  [.create 7 1 disputeBody none, .patch 10 1 (some 7) (statusBody .lost),
    .create 8 1 disputeBody none]

/-- The second dispute is stored, and is the only open one. -/
theorem one_open_at_a_time :
    ∃ t, (system CreateInput.text testEnv).run (noDisputes testStore) disputedAgain = some t ∧
      t.db.disputes.rows.length = 2 ∧ AtMostOneOpen t.db := by
  obtain ⟨t, hr, hlen⟩ := (system CreateInput.text testEnv).exists_of_leadsTo
    (fun t => t.db.disputes.rows.length = 2) (noDisputes testStore) disputedAgain
    (by decide +kernel)
  have hguard : (system CreateInput.text testEnv).Guarded (fun s a => ¬ opensSecond testEnv s a)
      (noDisputes testStore) disputedAgain := by
    refine Lts.guarded_of_forall _ fun s a ha => ?_
    simp only [disputedAgain, List.mem_cons, List.not_mem_nil, or_false] at ha
    rcases ha with rfl | rfl | rfl
    · exact id
    · rintro ⟨p, haccept, hopen, -⟩
      rw [acceptPatch_statusBody] at haccept
      cases haccept
      cases hopen
    · exact id
  have hkeeps := (at_most_one_open_iff CreateInput.text testEnv testStore disputedAgain t hr).mp
    hguard
  exact ⟨t, hr, hlen, hkeeps disputedAgain [] t (List.append_nil _).symm hr⟩

/-- **Two open disputes of one invoice**: the lost one is set back to `'submitted'`. -/
theorem two_open_disputes :
    ∃ t, (system CreateInput.text testEnv).run (noDisputes testStore)
        (disputedAgain ++ [.patch 20 1 (some 7) (statusBody .submitted)]) = some t ∧
      t.db.disputes.rows.map Dispute.status = [.submitted, .submitted] ∧ ¬ AtMostOneOpen t.db :=
  (system CreateInput.text testEnv).exists_of_leadsTo
    (fun t => t.db.disputes.rows.map Dispute.status = [.submitted, .submitted] ∧
      ¬ AtMostOneOpen t.db)
    (noDisputes testStore) _ (by decide +kernel)

end Stargate.Disputes
