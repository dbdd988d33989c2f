import Stargate.Base.Sessions
import Stargate.Invoices.Bookkeeping

/-!
# `InvoicesService.refund`

A refund is checked against the `refunds` table, submitted to the network, and only
then written to the table. `refund` is the whole call, `Pc.exec` its statements one by
one, and `program` runs any number of calls side by side, any of which may crash.

- `runCall_refund`: the statements of a lone call do what `refund` does;
- `refunded_once`: an invoice is refunded at most once if no call checks for refunds
  while another one is past its check, or after a refund that was not recorded;
- `refunded_twice`: otherwise it is refunded again.
-/

namespace Stargate.Refunds

open Base

/-! ## The call -/

/-- What the service takes from its libraries. -/
structure RefundEnv where
  /-- Does `Keypair.fromPublicKey` accept the text? -/
  isPublicKey : String → Bool

/-- `SELECT * FROM invoices WHERE id=$1 AND merchant_id=$2`. -/
def findInvoice (db : Db) (merchantId id : Uuid) : Except ApiError Invoice :=
  match db.invoices.find? fun i => i.id == id && i.merchantId == merchantId with
  | some invoice => .ok invoice
  | none => .error (.notFound "Invoice not found")

/-- `invoice_id=$1 AND status NOT IN ('failed')`. -/
def isActive (invoiceId : Uuid) (r : Refund) : Bool :=
  r.invoiceId == invoiceId && r.status != .failed

/-- How many refunds of an invoice have not failed. -/
def active (db : Db) (invoiceId : Uuid) : Nat := db.refunds.rows.countP (isActive invoiceId)

/-- `MerchantsService.findOne(id)` and the check of its address. -/
def findRecipient (db : Db) (merchantId : Uuid) : Except ApiError String :=
  match db.merchants.find? fun m => m.id == merchantId with
  | none => .error (.notFound "Merchant not found")
  | some merchant =>
    -- an empty address is no address
    match merchant.stellarAddress.filter (· ≠ "") with
    | some address => .ok address
    | none => .error (.badRequest "Merchant has no stellar_address set")

/-- `submitSorobanRefund(invoice, recipient)`: the hash of the transaction. `sent` is
`none` where the network or the library fails. -/
def submitSorobanRefund (env : RefundEnv) (recipient : String) (sent : Option String) :
    Except ApiError String :=
  if env.isPublicKey recipient then
    match sent with
    | some txHash => .ok txHash
    | none => .error .library
  else .error (.badRequest "Invalid recipient address")

/-- The row of a refund that was submitted. -/
def refundRow (refundId merchantId id : Uuid) (invoice : Invoice) (txHash : String) : Refund where
  id := refundId
  invoiceId := id
  merchantId := merchantId
  amountUsdc := invoice.amountUsdc
  status := .submitted
  sorobanTxHash := some txHash

/-- The `INSERT`. -/
def insertRefund (db : Db) (r : Refund) : Except ApiError Refund × Db :=
  match db.refunds.insert? r with
  | some refunds => (.ok r, { db with refunds })
  | none => (.error .database, db)

/-- `refund(merchantId, id)` with nothing interleaved. -/
def refund (env : RefundEnv) (sent : Option String) (refundId : Uuid) (db : Db)
    (merchantId id : Uuid) : Except ApiError Refund × Db :=
  match findInvoice db merchantId id with
  | .error e => (.error e, db)
  | .ok invoice =>
    if invoice.status ≠ .paid then
      (.error (.badRequest "Only paid invoices can be refunded"), db)
    else if active db id ≠ 0 then
      (.error (.badRequest "Refund already initiated for this invoice"), db)
    else
      match findRecipient db merchantId with
      | .error e => (.error e, db)
      | .ok recipient =>
        match submitSorobanRefund env recipient sent with
        | .error e => (.error e, db)
        | .ok txHash => insertRefund db (refundRow refundId merchantId id invoice txHash)

/-! ## Its statements -/

/-- The statement that a call is about to run. -/
inductive Pc where
  | selectInvoice
  /-- `SELECT * FROM payment_events`, the rest of `get`. -/
  | selectEvents (invoice : Invoice)
  | selectRefunds (invoice : Invoice)
  | selectMerchant (invoice : Invoice)
  | submit (invoice : Invoice) (recipient : String)
  | insertRow (invoice : Invoice) (txHash : String)
  deriving DecidableEq

inductive Call where
  | idle
  | running (merchantId id : Uuid) (pc : Pc)
  | returned (refund : Refund)
  | threw (e : ApiError)
  | crashed
  deriving DecidableEq

/-- The database, and the invoices for which `submitSorobanRefund` has returned. -/
structure World where
  db : Db
  submitted : List Uuid

/-- Run one statement. -/
def Pc.exec (env : RefundEnv) (sent : Option String) (refundId merchantId id : Uuid) (w : World) :
    Pc → World × Call
  | .selectInvoice =>
    match findInvoice w.db merchantId id with
    | .ok invoice => (w, .running merchantId id (.selectEvents invoice))
    | .error e => (w, .threw e)
  | .selectEvents invoice =>
    if invoice.status ≠ .paid then
      (w, .threw (.badRequest "Only paid invoices can be refunded"))
    else (w, .running merchantId id (.selectRefunds invoice))
  | .selectRefunds invoice =>
    if active w.db id ≠ 0 then
      (w, .threw (.badRequest "Refund already initiated for this invoice"))
    else (w, .running merchantId id (.selectMerchant invoice))
  | .selectMerchant invoice =>
    match findRecipient w.db merchantId with
    | .ok recipient => (w, .running merchantId id (.submit invoice recipient))
    | .error e => (w, .threw e)
  | .submit invoice recipient =>
    match submitSorobanRefund env recipient sent with
    | .ok txHash =>
      ({ w with submitted := w.submitted ++ [id] },
        .running merchantId id (.insertRow invoice txHash))
    | .error e => (w, .threw e)
  | .insertRow invoice txHash =>
    match insertRefund w.db (refundRow refundId merchantId id invoice txHash) with
    | (.ok r, db) => ({ w with db }, .returned r)
    | (.error e, db) => ({ w with db }, .threw e)

/-- What a statement is given: the answer of the network, a random id. -/
inductive Input where
  | start (merchantId id : Uuid)
  | exec (sent : Option String) (refundId : Uuid)
  | crash
  deriving DecidableEq

/-- Any number of calls; other requests may write every table but `refunds`. -/
def program (env : RefundEnv) : Program World Call Input (Db → Db) where
  exec _
    | .start merchantId id, w, call =>
      match call with
      | .running .. => none
      | _ => some (w, .running merchantId id .selectInvoice)
    | .exec sent refundId, w, .running merchantId id pc =>
      some (pc.exec env sent refundId merchantId id w)
    | .crash, w, .running .. => some (w, .crashed)
    | _, _, _ => none
  env f w := some { w with db := { f w.db with refunds := w.db.refunds } }

/-- Nobody has called yet. -/
def idle (db : Db) (n : Nat) : Program.Sys World Call n :=
  { db := ⟨db, []⟩, calls := fun _ => .idle }

/-! ## A lone call -/

/-- The statements of a call that nothing interleaves with. -/
def runCall (env : RefundEnv) (sent : Option String) (refundId : Uuid) :
    Nat → World × Call → World × Call
  | fuel + 1, (w, .running merchantId id pc) =>
    runCall env sent refundId fuel (pc.exec env sent refundId merchantId id w)
  | _, s => s

/-- How a call ends. -/
def Call.ofResult : Except ApiError Refund → Call
  | .ok r => .returned r
  | .error e => .threw e

/-- **The call is its six statements.** -/
theorem runCall_refund (env : RefundEnv) (sent : Option String) (refundId merchantId id : Uuid)
    (w : World) :
    (runCall env sent refundId 6 (w, .running merchantId id .selectInvoice)).1.db
        = (refund env sent refundId w.db merchantId id).2 ∧
      (runCall env sent refundId 6 (w, .running merchantId id .selectInvoice)).2
        = .ofResult (refund env sent refundId w.db merchantId id).1 := by
  unfold refund
  cases hinvoice : findInvoice w.db merchantId id with
  | error e => simp [runCall, Pc.exec, hinvoice, Call.ofResult]
  | ok invoice =>
    by_cases hpaid : invoice.status = .paid
    · by_cases hactive : active w.db id = 0
      · cases hrecipient : findRecipient w.db merchantId with
        | error e => simp [runCall, Pc.exec, hinvoice, hpaid, hactive, hrecipient, Call.ofResult]
        | ok recipient =>
          cases hsubmit : submitSorobanRefund env recipient sent with
          | error e =>
            simp [runCall, Pc.exec, hinvoice, hpaid, hactive, hrecipient, hsubmit, Call.ofResult]
          | ok txHash =>
            rcases hinsert : insertRefund w.db (refundRow refundId merchantId id invoice txHash)
              with ⟨res, db⟩
            cases res <;>
              simp [runCall, Pc.exec, hinvoice, hpaid, hactive, hrecipient, hsubmit, hinsert,
                Call.ofResult]
      · simp [runCall, Pc.exec, hinvoice, hpaid, hactive, Call.ofResult]
    · simp [runCall, Pc.exec, hinvoice, hpaid, Call.ofResult]

/-! ## The condition on runs -/

/-- How far a call is beyond its check of the invoice's refunds: `some false` before
`submitSorobanRefund` has returned, `some true` after that. -/
def Call.stage (id : Uuid) : Call → Option Bool
  | .running _ id' pc =>
    if id' = id then
      match pc with
      | .selectMerchant _ | .submit _ _ => some false
      | .insertRow _ _ => some true
      | _ => none
    else none
  | _ => none

/-- A call checks the refunds of the invoice while no other one is past that check,
and every refund that went out has its row. -/
def checksAlone (id : Uuid) (others : List Call) : Input → World → Call → Bool
  | .exec _ _, w, .running _ id' (.selectRefunds _) =>
    id' != id || ((others.all fun o => (o.stage id).isNone) &&
      decide (w.submitted.count id ≤ active w.db id))
  | _, _, _ => true

def recorded (id : Uuid) : Program.Guard World Call Input (Db → Db) where
  call others i w c := checksAlone id others i w c = true
  env _ _ _ := True

instance decidableRecorded (id : Uuid) (s : Program.Sys World Call n) :
    ∀ a, Decidable ((recorded id).admits s a)
  | .call _ _ => inferInstanceAs (Decidable (checksAlone .. = true))
  | .env _ => inferInstanceAs (Decidable True)

/-! ## The invariant -/

section Steps

variable {env : RefundEnv} {sent : Option String} {refundId merchantId id id' : Uuid}
  {w w' : World} {pc : Pc} {c c' o : Call}

/-- At most one refund went out, and at most one is recorded. -/
structure Once (id : Uuid) (w : World) : Prop where
  submitted : w.submitted.count id ≤ 1
  active : active w.db id ≤ 1

/-- A call past its check is about to submit the first refund, or to record it. -/
def Pending (id : Uuid) (w : World) (c : Call) : Prop :=
  ∀ sent, c.stage id = some sent → active w.db id = 0 ∧ w.submitted.count id = sent.toNat

/-- Not both calls are past their check. -/
def Exclusive (id : Uuid) (a b : Call) : Prop := a.stage id = none ∨ b.stage id = none

/-- **What a statement does**, as far as the invoice is concerned: it moves the call,
sends the refund or records it. -/
theorem exec_cases (id : Uuid) (h : pc.exec env sent refundId merchantId id' w = (w', c')) :
    (w' = w ∧ (c'.stage id = none ∨
      c'.stage id = some false ∧ ((Call.running merchantId id' pc).stage id = some false ∨
        id' = id ∧ active w.db id = 0 ∧ ∃ invoice, pc = .selectRefunds invoice))) ∨
    (w' = ⟨w.db, w.submitted ++ [id']⟩ ∧
      (Call.running merchantId id' pc).stage id = (if id' = id then some false else none) ∧
      c'.stage id = if id' = id then some true else none) ∨
    ∃ r refunds, w' = ⟨{ w.db with refunds }, w.submitted⟩ ∧
      refunds.rows = w.db.refunds.rows ++ [r] ∧ isActive id r = (id' == id) ∧
      (Call.running merchantId id' pc).stage id = (if id' = id then some true else none) ∧
      c'.stage id = none := by
  cases pc with
  | selectInvoice =>
    simp only [Pc.exec] at h
    left
    split at h
    · cases h
      exact ⟨rfl, .inl (by simp [Call.stage])⟩
    · cases h
      exact ⟨rfl, .inl rfl⟩
  | selectEvents invoice =>
    simp only [Pc.exec] at h
    left
    split at h
    · cases h
      exact ⟨rfl, .inl rfl⟩
    · cases h
      exact ⟨rfl, .inl (by simp [Call.stage])⟩
  | selectRefunds invoice =>
    simp only [Pc.exec] at h
    left
    split at h
    · cases h
      exact ⟨rfl, .inl rfl⟩
    · next hactive =>
      cases h
      refine ⟨rfl, ?_⟩
      by_cases hid : id' = id
      · subst hid
        exact .inr ⟨by simp [Call.stage], .inr ⟨rfl, not_not.mp hactive, invoice, rfl⟩⟩
      · exact .inl (by simp [Call.stage, hid])
  | selectMerchant invoice =>
    simp only [Pc.exec] at h
    left
    split at h
    · cases h
      refine ⟨rfl, ?_⟩
      by_cases hid : id' = id
      · exact .inr ⟨by simp [Call.stage, hid], .inl (by simp [Call.stage, hid])⟩
      · exact .inl (by simp [Call.stage, hid])
    · cases h
      exact ⟨rfl, .inl rfl⟩
  | submit invoice recipient =>
    simp only [Pc.exec] at h
    split at h
    · cases h
      exact .inr (.inl ⟨rfl, rfl, rfl⟩)
    · cases h
      exact .inl ⟨rfl, .inl rfl⟩
  | insertRow invoice txHash =>
    simp only [Pc.exec, insertRefund] at h
    cases hinsert : w.db.refunds.insert? (refundRow refundId merchantId id' invoice txHash) with
    | none =>
      rw [hinsert] at h
      cases h
      exact .inl ⟨rfl, .inl rfl⟩
    | some refunds =>
      rw [hinsert] at h
      cases h
      refine .inr (.inr ⟨_, refunds, rfl, (Table.insert?_eq_some.mp hinsert).2, ?_, rfl, rfl⟩)
      simp [isActive, refundRow]

theorem active_append {refunds : Table Refund} {r : Refund}
    (h : refunds.rows = w.db.refunds.rows ++ [r]) (hr : isActive id r = (id' == id)) :
    active { w.db with refunds } id = active w.db id + if id' = id then 1 else 0 := by
  simp [active, h, hr]

theorem count_append :
    (w.submitted ++ [id']).count id = w.submitted.count id + if id' = id then 1 else 0 := by
  simp [List.count_append, List.count_singleton]

/-- The statement keeps what is known of the invoice, and of the call. -/
theorem exec_once (h : pc.exec env sent refundId merchantId id' w = (w', c'))
    (hguard : ∀ invoice, pc = .selectRefunds invoice → id' = id →
      w.submitted.count id ≤ active w.db id)
    (hw : Once id w) (hc : Pending id w (.running merchantId id' pc)) :
    Once id w' ∧ Pending id w' c' := by
  rcases exec_cases id h with ⟨rfl, hnone | ⟨hfalse, hstage | ⟨rfl, hactive, invoice, rfl⟩⟩⟩ |
    ⟨rfl, hbefore, hafter⟩ | ⟨r, refunds, rfl, hrows, hr, hbefore, hnone⟩
  · refine ⟨hw, fun sent hsent => ?_⟩
    rw [hnone] at hsent
    cases hsent
  · refine ⟨hw, fun sent hsent => ?_⟩
    rw [hfalse] at hsent
    cases hsent
    exact hc false hstage
  · refine ⟨hw, fun sent hsent => ?_⟩
    rw [hfalse] at hsent
    cases hsent
    -- no refund is recorded, so none went out
    have hcount := hguard invoice rfl rfl
    rw [hactive] at hcount
    exact ⟨hactive, Nat.le_zero.mp hcount⟩
  · by_cases hid : id' = id
    · obtain ⟨hactive, hcount⟩ := hc false (by rw [hbefore, if_pos hid])
      have hsent : (w.submitted ++ [id']).count id = 1 := by
        rw [count_append, hcount, if_pos hid]
        rfl
      refine ⟨⟨hsent.le, hw.active⟩, fun sent hstage => ?_⟩
      rw [hafter, if_pos hid] at hstage
      cases hstage
      exact ⟨hactive, hsent⟩
    · have hsame : (w.submitted ++ [id']).count id = w.submitted.count id := by
        rw [count_append, if_neg hid, Nat.add_zero]
      refine ⟨⟨hsame ▸ hw.submitted, hw.active⟩, fun sent hstage => ?_⟩
      rw [hafter, if_neg hid] at hstage
      cases hstage
  · refine ⟨⟨hw.submitted, ?_⟩, fun sent hstage => ?_⟩
    · rw [active_append hrows hr]
      by_cases hid : id' = id
      · rw [(hc true (by rw [hbefore, if_pos hid])).1, if_pos hid]
      · rw [if_neg hid]
        exact hw.active
    · rw [hnone] at hstage
      cases hstage

/-- The statement does not disturb a call that is past its check. -/
theorem exec_apart (h : pc.exec env sent refundId merchantId id' w = (w', c'))
    (hguard : ∀ invoice, pc = .selectRefunds invoice → id' = id → o.stage id = none)
    (ho : Pending id w o) (hapart : Exclusive id (.running merchantId id' pc) o) :
    Pending id w' o ∧ Exclusive id c' o := by
  have hidle : o.stage id = none → ∀ w', Pending id w' o := fun ho w' sent hsent => by
    rw [ho] at hsent
    cases hsent
  rcases exec_cases id h with ⟨rfl, hnone | ⟨-, hstage | ⟨rfl, -, invoice, rfl⟩⟩⟩ |
    ⟨rfl, hbefore, hafter⟩ | ⟨r, refunds, rfl, hrows, hr, hbefore, hnone⟩
  · exact ⟨ho, .inl hnone⟩
  · refine ⟨ho, .inr (hapart.resolve_left ?_)⟩
    rw [hstage]
    exact nofun
  · exact ⟨ho, .inr (hguard invoice rfl rfl)⟩
  · by_cases hid : id' = id
    · have hnone := hapart.resolve_left (by rw [hbefore, if_pos hid]; exact nofun)
      exact ⟨hidle hnone _, .inr hnone⟩
    · refine ⟨fun sent hstage => ?_, .inl (by rw [hafter, if_neg hid])⟩
      rw [count_append, if_neg hid]
      exact ho sent hstage
  · by_cases hid : id' = id
    · have hfree := hapart.resolve_left (by rw [hbefore, if_pos hid]; exact nofun)
      exact ⟨hidle hfree _, .inl hnone⟩
    · refine ⟨fun sent hstage => ?_, .inl hnone⟩
      rw [active_append hrows hr, if_neg hid]
      exact ho sent hstage

/-- The steps of the program: a call starts, stops, or runs a statement. -/
theorem program_cases (id : Uuid) {others : List Call} {i : Input}
    (h : (program env).exec others i w c = some (w', c')) :
    (w' = w ∧ c'.stage id = none) ∨
    ∃ sent refundId merchantId id' pc, i = .exec sent refundId ∧
      c = .running merchantId id' pc ∧
      pc.exec env sent refundId merchantId id' w = (w', c') := by
  cases i with
  | start merchantId id' =>
    cases c with
    | running _ _ _ => cases h
    | _ =>
      cases h
      exact .inl ⟨rfl, by simp [Call.stage]⟩
  | exec sent refundId =>
    cases c with
    | running merchantId id' pc =>
      exact .inr ⟨sent, refundId, merchantId, id', pc, rfl, rfl, Option.some.inj h⟩
    | _ => cases h
  | crash =>
    cases c with
    | running _ _ _ =>
      cases h
      exact .inl ⟨rfl, rfl⟩
    | _ => cases h

/-- **Calls that check alone refund once.** -/
theorem once_local (env : RefundEnv) (id : Uuid) :
    (program env).Local (recorded id) (Once id) (Pending id) (Exclusive id) where
  symm _ _ h := h.symm
  seq := by
    intro cs i w c w' c' hexec hguard hw hc _
    rcases program_cases id hexec with
      ⟨rfl, hnone⟩ | ⟨sent, refundId, merchantId, id', pc, rfl, rfl, hpc⟩
    · refine ⟨hw, fun sent hsent => ?_⟩
      rw [hnone] at hsent
      cases hsent
    · refine exec_once hpc (fun invoice hsel hid => ?_) hw hc
      subst hsel hid
      simp only [recorded, checksAlone, bne_self_eq_false, Bool.false_or, Bool.and_eq_true,
        decide_eq_true_eq] at hguard
      exact hguard.2
  free := by
    intro cs i w c w' c' hexec hguard hw hc o ho hpending hapart
    rcases program_cases id hexec with
      ⟨rfl, hnone⟩ | ⟨sent, refundId, merchantId, id', pc, rfl, rfl, hpc⟩
    · exact ⟨hpending, .inl hnone⟩
    · refine exec_apart hpc (fun invoice hsel hid => ?_) hpending hapart
      subst hsel hid
      simp only [recorded, checksAlone, bne_self_eq_false, Bool.false_or, Bool.and_eq_true,
        List.all_eq_true, Option.isNone_iff_eq_none] at hguard
      exact hguard.1 o ho
  env := by
    intro cs f w w' henv _ hw hcs
    cases henv
    exact ⟨⟨hw.submitted, hw.active⟩, fun o ho sent hsent => hcs o ho sent hsent⟩

/-- **At most one refund**: any number of calls, beside other requests, refund an
invoice at most once and record at most one refund of it, if none of them checks for
refunds while another one is past its check, or after a refund that went out and was
not recorded. -/
theorem refunded_once {n : Nat} {db : Db} {t : Program.Sys World Call n}
    {as : List (Program.Label Input (Db → Db) n)} (hdb : active db id ≤ 1)
    (hguard : ((program env).interleave n).Guarded (recorded id).admits (idle db n) as)
    (hrun : ((program env).interleave n).run (idle db n) as = some t) :
    t.db.submitted.count id ≤ 1 ∧ active t.db.db id ≤ 1 := by
  have hidle : Program.Inv (Once id) (Pending id) (Exclusive id) (idle db n) :=
    ⟨⟨Nat.zero_le 1, hdb⟩, fun _ => nofun, fun _ _ _ => .inl rfl⟩
  obtain ⟨hsubmitted, hactive⟩ := ((once_local env id).inv_of_guarded_run hidle hguard hrun).db
  exact ⟨hsubmitted, hactive⟩

end Steps

/-! ## Runs on the fixtures -/

/-- A service that takes any address. -/
def testEnv : RefundEnv := ⟨fun _ => true⟩

def paidInvoice : Invoice := { Reconciler.seedInvoice 1 99099 with status := .paid }

/-- Merchant 1 with an address, and a paid invoice. -/
def paidDb : Db where
  merchants := Invoices.testDb.merchants.modify (fun _ => true)
    (fun m => { m with stellarAddress := some "GMERCHANT" }) fun _ => rfl
  invoices := ⟨[paidInvoice], List.pairwise_singleton _ _⟩

/-- The next `k` statements of a call; its refund gets the id `refundId`. -/
def execs (p : Fin 2) (refundId : Uuid) (k : Nat) : List (Program.Label Input (Db → Db) 2) :=
  List.replicate k (.call p (.exec (some "hash") refundId))

/-- One call after the other. -/
def inTurn : List (Program.Label Input (Db → Db) 2) :=
  .call 0 (.start 1 1) :: execs 0 7 6 ++ .call 1 (.start 1 1) :: execs 1 8 3

theorem refunded_once_in_turn :
    ∃ t, ((program testEnv).interleave 2).run (idle paidDb 2) inTurn = some t ∧
      t.calls 0 ≠ .idle ∧ t.db.submitted.count 1 ≤ 1 ∧ active t.db.db 1 ≤ 1 := by
  obtain ⟨t, ht, hcall⟩ := ((program testEnv).interleave 2).exists_of_leadsTo
    (fun t => t.calls 0 ≠ .idle) (idle paidDb 2) inTurn (by decide +kernel)
  exact ⟨t, ht, hcall, refunded_once (by decide) (by decide +kernel) ht⟩

/-- Both calls find no refund. -/
def bothCheck : List (Program.Label Input (Db → Db) 2) :=
  .call 0 (.start 1 1) :: .call 1 (.start 1 1) :: execs 0 7 3 ++ execs 1 8 3 ++ execs 0 7 3 ++
    execs 1 8 3

/-- A call crashes when its refund is out; the request is sent again. -/
def crashAndRetry : List (Program.Label Input (Db → Db) 2) :=
  .call 0 (.start 1 1) :: execs 0 7 5 ++ .call 0 .crash :: .call 0 (.start 1 1) :: execs 0 7 6

/-- **An invoice that is refunded twice**: by two calls that overlap, and by one that
is sent again after a crash. -/
theorem refunded_twice :
    (∃ t, ((program testEnv).interleave 2).run (idle paidDb 2) bothCheck = some t ∧
      t.db.submitted.count 1 = 2 ∧ active t.db.db 1 = 2) ∧
    ∃ t, ((program testEnv).interleave 2).run (idle paidDb 2) crashAndRetry = some t ∧
      t.db.submitted.count 1 = 2 ∧ active t.db.db 1 = 1 := by
  constructor
  · exact ((program testEnv).interleave 2).exists_of_leadsTo
      (fun t => t.db.submitted.count 1 = 2 ∧ active t.db.db 1 = 2)
      (idle paidDb 2) bothCheck (by decide +kernel)
  · exact ((program testEnv).interleave 2).exists_of_leadsTo
      (fun t => t.db.submitted.count 1 = 2 ∧ active t.db.db 1 = 1)
      (idle paidDb 2) crashAndRetry (by decide +kernel)

end Stargate.Refunds
