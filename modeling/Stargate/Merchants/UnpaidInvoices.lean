import Stargate.Invoices.CreateCalls
import Stargate.Merchants.Update

/-!
# Which invoices `autoCancelUnpaidInvoices` cancels

Merchants register and update their minutes, `create` and `createBulk` run statement by
statement, and the cron jobs at any time. The state has, besides, what each merchant has last
asked for.

- `updateDb`: `update` on the columns that other services read, `updateDb_spec`;
- `ttlProgram`: the runs;
- `Agreed`: the column has the minutes that were asked for last, or its default. Null leaves
  them as they were;
- `cancelled_after_ttl`: an invoice is cancelled after these minutes.
-/

namespace Stargate.Merchants

open Base Invoices CreateCalls

/-! ## The update -/

/-- `update(id, input)`, with the database that it leaves behind. -/
def updateDb (env : UpdateEnv) (db : Db) (id : Uuid) (input : UpdateInput) :
    Except ApiError Merchant × Db :=
  match parseUpdate env input with
  | .error e => (.error e, db)
  | .ok dto =>
    match findOne db id with
    | none => (.error (.notFound "Merchant not found"), db)
    | some current =>
      match readParams env current dto with
      | none => (.error .database, db)
      | some p =>
        (.ok (p.set current),
          { db with merchants := db.merchants.modify (fun m => m.id == id) p.set fun _ => rfl })

/-- It is `update`, on these columns. -/
theorem updateDb_spec {env : UpdateEnv} {now : Timestamp} {db : Db} {rows : Table MerchantRow}
    (h : db.merchants.rows = rows.rows.map MerchantRow.toMerchant) (id : Uuid)
    (input : UpdateInput) :
    (updateDb env db id input).1 = (update env now rows id input).1.map MerchantRow.toMerchant
      ∧ (updateDb env db id input).2.merchants.rows
        = (update env now rows id input).2.rows.map MerchantRow.toMerchant := by
  have hfind : findOne db id = (rows.find? fun m => m.id == id).map MerchantRow.toMerchant := by
    rw [findOne, Table.find?, h, List.find?_map]
    rfl
  unfold updateDb update
  rw [hfind]
  cases parseUpdate env input with
  | error e => exact ⟨rfl, h⟩
  | ok dto =>
    dsimp only
    cases rows.find? fun m => m.id == id with
    | none => exact ⟨rfl, h⟩
    | some current =>
      dsimp only [Option.map_some]
      cases readParams env current.toMerchant dto with
      | none => exact ⟨rfl, h⟩
      | some p =>
        refine ⟨rfl, ?_⟩
        show db.merchants.rows.map _ = (rows.rows.map _).map _
        rw [h, List.map_map, List.map_map]
        refine List.map_congr_left fun m _ => ?_
        by_cases hid : m.id = id <;> simp [hid, Assigned.setRow]

/-! ## Runs -/

/-- The store of `create`, and what each merchant has asked for: the value in its last accepted
update that mentioned `unpaid_invoice_ttl_minutes`. -/
structure Store where
  world : World
  asked : Uuid → Option (Option Int)

/-- The requests, and updates. -/
inductive Event where
  | request (r : Request)
  | update (id : Uuid) (input : UpdateInput)
  deriving DecidableEq

/-- What merchants have asked for, after an update with this field. -/
def mention (asked : Uuid → Option (Option Int)) (id : Uuid) :
    Option (Option Int) → Uuid → Option (Option Int)
  | some minutes => Function.update asked id (some minutes)
  | none => asked

def Store.update (env : UpdateEnv) (s : Store) (id : Uuid) (input : UpdateInput) : Store :=
  match parseUpdate env input, updateDb env s.world.db id input with
  | .ok dto, (.ok _, db) =>
    { world := { s.world with db }
      asked := mention s.asked id dto.unpaidInvoiceTtlMinutes }
  | _, _ => s

/-- Calls of `create` and `createBulk`, beside the other requests. -/
def ttlProgram (env : CreateEnv) (updates : UpdateEnv) : Program Store Call Input Event where
  exec others i s c :=
    ((CreateCalls.program env).exec others i s.world c).map fun (world, c) => ({ s with world }, c)
  env
    | .request r, s => ((CreateCalls.program env).env r s.world).map fun world => { s with world }
    | .update id input, s => some (s.update updates id input)

/-- All migrations have run. -/
def migrated (db : Db) (n : Nat) : Program.Sys Store Call n where
  db := ⟨⟨db, [], []⟩, fun _ => none⟩
  calls _ := .idle

/-! ## What was asked for -/

/-- The minutes of a merchant who has asked for this last. -/
def Agreed : Option (Option Int) → Int → Prop
  | none, minutes => minutes = 60
  | some none, _ => True
  | some (some asked), minutes => minutes = asked

/-- Every merchant has the minutes that it has asked for, and nobody else has asked. -/
structure Store.Agrees (s : Store) : Prop where
  minutes : ∀ m ∈ s.world.db.merchants, Agreed (s.asked m.id) m.unpaidInvoiceTtlMinutes
  known : ∀ id, s.asked id ≠ none → ∃ m ∈ s.world.db.merchants, m.id = id

section Agrees

variable {env : CreateEnv} {updates : UpdateEnv} {s : Store} {world : World}

theorem Store.Agrees.of_map {f : Merchant → Merchant} (h : s.Agrees)
    (hrows : world.db.merchants.rows = s.world.db.merchants.rows.map f)
    (hf : ∀ m, (f m).id = m.id ∧ (f m).unpaidInvoiceTtlMinutes = m.unpaidInvoiceTtlMinutes) :
    Store.Agrees { s with world } := by
  constructor
  · intro m' hm'
    rw [← Table.mem_rows, hrows] at hm'
    obtain ⟨m, hm, rfl⟩ := List.mem_map.mp hm'
    rw [(hf m).1, (hf m).2]
    exact h.minutes m hm
  · intro id hid
    obtain ⟨m, hm, rfl⟩ := h.known id hid
    refine ⟨f m, ?_, (hf m).1⟩
    rw [← Table.mem_rows, hrows]
    exact List.mem_map_of_mem hm

theorem agrees_exec {others : List Call} {i : Input} {c c' : Call} (h : s.Agrees)
    (hexec : (CreateCalls.program env).exec others i s.world c = some (world, c')) :
    Store.Agrees { s with world } := by
  obtain ⟨f, hrows, hf⟩ := merchants_moves (moves_of_exec hexec)
  refine h.of_map hrows fun m => ?_
  obtain ⟨base, seq, heq⟩ := hf m
  rw [heq]
  exact ⟨rfl, rfl⟩

theorem agrees_request {r : Request} (h : s.Agrees)
    (henv : (CreateCalls.program env).env r s.world = some world) :
    Store.Agrees { s with world } := by
  obtain ⟨db, hexec, rfl⟩ := Option.map_eq_some_iff.mp henv
  cases r with
  | register id name createdAt =>
    obtain ⟨merchants, hins, rfl⟩ := Option.map_eq_some_iff.mp hexec
    constructor
    · intro m hm
      rcases (Table.mem_of_insert? hins m).mp hm with hm | rfl
      · exact h.minutes m hm
      · -- nobody has asked before registration
        have hnone : s.asked id = none := by
          by_contra hasked
          obtain ⟨m, hm, hid⟩ := h.known id hasked
          exact (Table.insert?_eq_some.mp hins).1 m hm (.inl hid)
        show Agreed (s.asked id) 60
        rw [hnone]
        rfl
    · intro id' hid'
      obtain ⟨m, hm, hid⟩ := h.known id' hid'
      exact ⟨m, (Table.mem_of_insert? hins m).mpr (.inl hm), hid⟩
  | _ =>
    cases hexec
    exact ⟨h.minutes, h.known⟩

/-- **Null leaves the minutes as they were**, and so does an update without them. -/
theorem ttl_set {dto : UpdateDto} {p : Assigned} {current : Merchant}
    (h : readParams updates current dto = some p) (m : Merchant) :
    (p.set m).unpaidInvoiceTtlMinutes
      = dto.unpaidInvoiceTtlMinutes.join.getD m.unpaidInvoiceTtlMinutes := by
  obtain ⟨_, _, _, _, _, _, _, -, -, -, -, -, -, -, rfl⟩ := readParams_eq_some.mp h
  rfl

theorem mention_of_ne {asked : Uuid → Option (Option Int)} {id id' : Uuid} (h : id' ≠ id)
    (field : Option (Option Int)) : mention asked id field id' = asked id' := by
  cases field with
  | none => rfl
  | some minutes => exact Function.update_of_ne h _ _

theorem agreed_mention {asked : Uuid → Option (Option Int)} {id : Uuid} {minutes : Int}
    (h : Agreed (asked id) minutes) (field : Option (Option Int)) :
    Agreed (mention asked id field id) (field.join.getD minutes) := by
  cases field with
  | none => exact h
  | some value =>
    rw [mention, Function.update_self]
    cases value with
    | none => trivial
    | some n => rfl

/-- **What an update can do.** -/
theorem update_cases (updates : UpdateEnv) (s : Store) (id : Uuid) (input : UpdateInput) :
    s.update updates id input = s ∨
      ∃ dto current p, findOne s.world.db id = some current
        ∧ readParams updates current dto = some p
        ∧ (s.update updates id input).asked = mention s.asked id dto.unpaidInvoiceTtlMinutes
        ∧ (s.update updates id input).world.db.merchants
          = s.world.db.merchants.modify (fun m => m.id == id) p.set fun _ => rfl := by
  unfold Store.update updateDb
  cases parseUpdate updates input with
  | error e => exact .inl rfl
  | ok dto =>
    dsimp only
    cases hfind : findOne s.world.db id with
    | none => exact .inl rfl
    | some current =>
      dsimp only
      cases hp : readParams updates current dto with
      | none => exact .inl rfl
      | some p => exact .inr ⟨dto, current, p, rfl, hp, rfl, rfl⟩

theorem agrees_update (id : Uuid) (input : UpdateInput) (h : s.Agrees) :
    (s.update updates id input).Agrees := by
  rcases update_cases updates s id input with heq | ⟨dto, current, p, hfind, hp, hasked, hdb⟩
  · rw [heq]
    exact h
  · constructor
    · intro m' hm'
      rw [hdb] at hm'
      rw [hasked]
      rcases Table.of_mem_modify hm' with ⟨hm, hother⟩ | ⟨m, hm, hid, rfl⟩
      · rw [mention_of_ne (beq_eq_false_iff_ne.mp hother)]
        exact h.minutes m' hm
      · have hid : m.id = id := beq_iff_eq.mp hid
        show Agreed (mention s.asked id dto.unpaidInvoiceTtlMinutes m.id) _
        rw [ttl_set hp, hid]
        exact agreed_mention (hid ▸ h.minutes m hm) _
    · intro id' hid'
      rw [hasked] at hid'
      rw [hdb]
      -- updates keep the ids, and the merchant of this one is registered
      obtain ⟨m, hm, hid⟩ : ∃ m ∈ s.world.db.merchants, m.id = id' := by
        by_cases heq : id' = id
        · obtain ⟨hmem, hid⟩ := Table.find?_some hfind
          exact ⟨current, hmem, (beq_iff_eq.mp hid).trans heq.symm⟩
        · rw [mention_of_ne heq] at hid'
          exact h.known id' hid'
      have hset (m : Merchant) : Keyed.key (p.set m) = Keyed.key m := rfl
      refine ⟨_, (Table.mem_modify hset).mpr ⟨m, hm, rfl⟩, ?_⟩
      rw [← hid]
      split
      · rfl
      · rfl

end Agrees

/-! ## Cancellations -/

section Cancelled

variable {env : CreateEnv} {updates : UpdateEnv} {n : Nat} {db₀ : Db}
  {s s' : Program.Sys Store Call n} {as : List (Program.Label Input Event n)}

theorem agrees_step (a : Program.Label Input Event n) (h : s.db.Agrees)
    (hstep : ((ttlProgram env updates).interleave n).step s a = some s') : s'.db.Agrees := by
  cases a with
  | call k i =>
    obtain ⟨db, c, hexec, rfl⟩ := (ttlProgram env updates).step_call.mp hstep
    obtain ⟨⟨world, c'⟩, hexec, heq⟩ := Option.map_eq_some_iff.mp hexec
    cases heq
    exact agrees_exec h hexec
  | env e =>
    obtain ⟨db, henv, rfl⟩ := (ttlProgram env updates).step_env.mp hstep
    cases e with
    | request r =>
      obtain ⟨world, hworld, rfl⟩ := Option.map_eq_some_iff.mp henv
      exact agrees_request h hworld
    | update id input =>
      cases henv
      exact agrees_update id input h

/-- In every state of every run. -/
theorem agrees_run (h₀ : ∀ m ∈ db₀.merchants, m.unpaidInvoiceTtlMinutes = 60)
    (hrun : ((ttlProgram env updates).interleave n).run (migrated db₀ n) as = some s) :
    s.db.Agrees := by
  have hstart : (migrated db₀ n).db.Agrees := ⟨h₀, fun id hid => absurd rfl hid⟩
  exact Lts.inv_of_run _ (I := fun s => s.db.Agrees) (fun _ a _ h => agrees_step a h) hstart hrun

/-- The minutes of an invoice have elapsed: those that its merchant has asked for last, or the
60 of the column. Nothing is said of a merchant who has given null last. -/
def Elapsed (now : Timestamp) (i : Invoice) : Option (Option Int) → Prop
  | none => (i.createdAt : Int) + 60 * 60000000 < now
  | some none => True
  | some (some minutes) => (i.createdAt : Int) + minutes * 60000000 < now

theorem elapsed_of_isUnpaid {store : Store} {now : Timestamp} {i : Invoice} (h : store.Agrees)
    (hunpaid : isUnpaid store.world.db now i = true) :
    Elapsed now i (store.asked i.merchantId) := by
  obtain ⟨m, hm, hunpaid⟩ := List.any_eq_true.mp hunpaid
  obtain ⟨hid, hlt⟩ := Bool.and_eq_true_iff.mp hunpaid
  have hagreed := h.minutes m hm
  rw [beq_iff_eq.mp hid]
  have hlt := of_decide_eq_true hlt
  cases hasked : store.asked m.id with
  -- never asked: the default of the column
  | none =>
    rw [hasked] at hagreed
    rwa [show m.unpaidInvoiceTtlMinutes = 60 from hagreed] at hlt
  | some value =>
    cases value with
    | none => trivial
    | some minutes =>
      rw [hasked] at hagreed
      rwa [show m.unpaidInvoiceTtlMinutes = minutes from hagreed] at hlt

/-- **An invoice is cancelled only after the minutes of its merchant**, in any run. -/
theorem cancelled_after_ttl (env : CreateEnv) (updates : UpdateEnv) (n : Nat) (db₀ : Db)
    (h₀ : ∀ m ∈ db₀.merchants, m.unpaidInvoiceTtlMinutes = 60)
    (as : List (Program.Label Input Event n)) (s s' : Program.Sys Store Call n) (now : Timestamp)
    (hrun : ((ttlProgram env updates).interleave n).run (migrated db₀ n) as = some s)
    (hcancel : ((ttlProgram env updates).interleave n).step s
      (.env (.request (.autoCancelUnpaidInvoices now))) = some s') :
    ∀ i ∈ s.db.world.db.invoices, ∀ i' ∈ s'.db.world.db.invoices, i'.id = i.id →
      i.status ≠ .cancelled → i'.status = .cancelled →
        Elapsed now i (s.db.asked i.merchantId) := by
  intro i hi i' hi' hid hbefore hafter
  obtain ⟨db, henv, rfl⟩ := (ttlProgram env updates).step_env.mp hcancel
  cases henv
  refine elapsed_of_isUnpaid (agrees_run h₀ hrun) ?_
  obtain ⟨r, hr, rfl⟩ := mem_setStatus.mp hi'
  by_cases hunpaid : (r.status.active && isUnpaid s.db.world.db now r) = true
  · rw [if_pos hunpaid] at hid
    rw [← Table.eq_of_conflict hr hi (.inl hid)]
    exact (Bool.and_eq_true_iff.mp hunpaid).2
  · -- the row is not among those that are updated
    rw [if_neg hunpaid] at hid hafter
    rw [Table.eq_of_conflict hr hi (.inl hid)] at hafter
    exact absurd hafter hbefore

/-- The cron job, on an invoice whose minutes have elapsed. -/
theorem exists_cancelled (env : CreateEnv) (updates : UpdateEnv) {now : Timestamp} {i : Invoice}
    (hi : i ∈ s.db.world.db.invoices) (hpending : i.status = .pending)
    (hunpaid : isUnpaid s.db.world.db now i = true) :
    ∃ s', ((ttlProgram env updates).interleave n).step s
        (.env (.request (.autoCancelUnpaidInvoices now))) = some s'
      ∧ { i with status := .cancelled } ∈ s'.db.world.db.invoices := by
  have hactive : (i.status.active && isUnpaid s.db.world.db now i) = true := by
    rw [hunpaid, hpending]
    rfl
  exact ⟨_, rfl, mem_setStatus.mpr ⟨i, hi, if_pos hactive⟩⟩

/-- A call of `create` for 10 USDC, payable for a day. -/
def dayInvoice : List (Program.Label Input Event 1) :=
  .call 0 (.create ⟨1, { tenUsdc with expiresInMinutes := some 1440 }, none⟩)
    :: List.replicate 10 (.call 0 (.exec 0 2))

/-- `{"unpaid_invoice_ttl_minutes": 30}`. -/
def thirtyInput : UpdateInput := { unpaidInvoiceTtlMinutes := some (some 30) }

/-- The minutes of an invoice have elapsed, and it is pending until later. -/
def Overdue (asked : Option (Option Int)) (now : Timestamp) (s : Program.Sys Store Call 1) : Prop :=
  s.db.asked 1 = asked ∧ ∃ i ∈ s.db.world.db.invoices.rows, i.merchantId = 1
    ∧ i.status = .pending ∧ now < i.expiresAt ∧ isUnpaid s.db.world.db now i = true

instance decidableOverdue (asked : Option (Option Int)) (now : Timestamp) :
    DecidablePred (Overdue asked now) := fun _ => inferInstanceAs (Decidable (_ ∧ _))

/-- After 31 minutes, of a merchant who has asked for 30. -/
theorem cancelled_after_thirty :
    ∃ s : Program.Sys Store Call 1, ∃ i ∈ s.db.world.db.invoices,
      s.db.asked i.merchantId = some (some 30)
        ∧ Elapsed 1860000000 i (s.db.asked i.merchantId) := by
  obtain ⟨s, hrun, hasked, i, hi, hmerchant, hpending, -, hunpaid⟩ :=
    Lts.exists_of_leadsTo (Overdue (some (some 30)) 1860000000)
      (T := (ttlProgram testEnv noTimes).interleave 1) (migrated {} 1)
      (.env (.request (.register 1 "Merchant" 0)) :: .env (.update 1 thirtyInput) :: dayInvoice)
      (by decide +kernel)
  obtain ⟨s', hstep, hi'⟩ := exists_cancelled testEnv noTimes hi hpending hunpaid
  refine ⟨s, i, hi, (congrArg s.db.asked hmerchant).trans hasked, ?_⟩
  exact cancelled_after_ttl testEnv noTimes 1 {} (fun m hm => absurd hm List.not_mem_nil) _ s s'
    1860000000 hrun hstep i hi _ hi' rfl (by rw [hpending]; decide) rfl

/-- After 61 minutes, of a merchant who has never asked for it. -/
theorem cancelled_by_default : ∃ s s' : Program.Sys Store Call 1,
    ((ttlProgram testEnv noTimes).interleave 1).run (migrated {} 1)
        (.env (.request (.register 1 "Merchant" 0)) :: dayInvoice) = some s
      ∧ ((ttlProgram testEnv noTimes).interleave 1).step s
        (.env (.request (.autoCancelUnpaidInvoices 3660000000))) = some s'
      ∧ s.db.asked 1 = none ∧ ∃ i ∈ s.db.world.db.invoices, i.merchantId = 1
        ∧ i.status = .pending ∧ 3660000000 < i.expiresAt
        ∧ ∃ i' ∈ s'.db.world.db.invoices, i'.id = i.id ∧ i'.status = .cancelled := by
  obtain ⟨s, hrun, hasked, i, hi, hmerchant, hpending, hexpires, hunpaid⟩ :=
    Lts.exists_of_leadsTo (Overdue none 3660000000)
      (T := (ttlProgram testEnv noTimes).interleave 1) (migrated {} 1)
      (.env (.request (.register 1 "Merchant" 0)) :: dayInvoice) (by decide +kernel)
  obtain ⟨s', hstep, hi'⟩ := exists_cancelled testEnv noTimes hi hpending hunpaid
  exact ⟨s, s', hrun, hstep, hasked, i, hi, hmerchant, hpending, hexpires, _, hi', rfl, rfl⟩

end Cancelled

end Stargate.Merchants
