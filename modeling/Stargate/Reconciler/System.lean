import Mathlib.Data.Fintype.Sum
import Mathlib.Logic.Function.Basic
import Stargate.Base.Transition
import Stargate.Invoices.Lifecycle
import Stargate.Reconciler.Phases

/-!
# The reconciler and the API, statement by statement

`Sys n m`: one database and one Redis, `n` reconciler calls and `m` API calls
that take several statements. Any label may come next, so a run is any
interleaving of their statements; a call that fails or whose process crashes is
aborted at any statement, and the same payment may be delivered again.

Statements are atomic and read what is committed; an open transaction is seen
by others only through the row locks it holds, which are read off the calls.

- `system`: the steps, and `step_spec`, what each of them reads and leaves;
- `Sound`: no two open transactions hold the same row;
- `Effect`, `step_effect`: what a step can do. Invariants are proved over these.
-/

namespace Stargate.Reconciler

open Base Invoices

/-- A reconciler process between two statements. -/
inductive Call where
  | idle
  | running (payment : HorizonPayment) (pc : Pc)
  | returned (payment : HorizonPayment) (ok : Bool)
  deriving DecidableEq

def Call.phase : Call → Phase
  | .idle => .idle
  | .running _ pc => pc.phase
  | .returned _ ok => .returned ok

def Call.isRunning : Call → Bool
  | .running _ _ => true
  | _ => false

/-- The process after a statement. -/
def Next.call (payment : HorizonPayment) : Next → Call
  | .goto pc => .running payment pc
  | .ret ok => .returned payment ok

@[simp] theorem Next.phase_call (payment : HorizonPayment) (next : Next) :
    (next.call payment).phase = next.phase := by
  cases next <;> rfl

structure Sys (n m : Nat) where
  world : World
  calls : Fin n → Call := fun _ => .idle
  apis : Fin m → ApiCall := fun _ => .idle

/-- What may happen next. -/
inductive Label (n m : Nat) where
  /-- A process takes a payment, for the first time or again. -/
  | deliver (k : Fin n) (payment : HorizonPayment)
  | exec (k : Fin n) (now : Timestamp)
  /-- A statement fails, or the process crashes and starts again. -/
  | abort (k : Fin n)
  /-- The API writes a cached screening result, or one expires. -/
  | redis (key : String) (value : Option String)
  /-- `InvoicesService.create` inserts a row. -/
  | create (invoice : Invoice)
  | cancel (merchantId id : Uuid)
  | expire (k : Fin m) (now : Timestamp)
  | autoCancel (k : Fin m) (now : Timestamp)
  | applyPartial (k : Fin m) (invoiceId : Uuid) (paidAmount : String)
  | api (k : Fin m) (now : Timestamp)
  | apiAbort (k : Fin m)

section Locks

variable {n m : Nat}

/-- Does a call hold the lock of an invoice row? -/
def Sys.holds (s : Sys n m) : Fin n ⊕ Fin m → Uuid → Bool
  | .inl k, id => (s.calls k).phase.locks id
  | .inr k, id => (s.apis k).locks id

/-- Does a call other than `self` hold it? -/
def Sys.lockedFor (s : Sys n m) (self : Option (Fin n ⊕ Fin m)) (id : Uuid) : Bool :=
  decide (∃ o, some o ≠ self ∧ s.holds o id = true)

/-- The invoices table, with a new row in it. -/
def insertInvoice (db : Db) (invoice : Invoice) : Option Db :=
  if invoice.status = .pending then
    (db.invoices.insert? invoice).map fun invoices => { db with invoices }
  else none

/-- An `UPDATE` of invoices waits until its rows are free. -/
def Sys.update (s : Sys n m) (self : Option (Fin n ⊕ Fin m)) (p : Invoice → Bool)
    (status : InvoiceStatus) : Option World :=
  if ∀ i ∈ affected s.world.db p, s.lockedFor self i.id = false then
    some { s.world with db := setStatus s.world.db p status }
  else none

/-- The interleavings of `n` reconciler processes and the API. -/
def system (env : Env) (n m : Nat) : Lts (Sys n m) (Label n m) where
  step s
    | .deliver k payment =>
      if (s.calls k).isRunning then none
      else some { s with calls := Function.update s.calls k (.running payment .eventExists) }
    | .exec k now =>
      match s.calls k with
      | .running payment pc =>
        match exec env now (s.lockedFor (some (.inl k))) s.world payment pc with
        | some (world, next) =>
          some { s with world, calls := Function.update s.calls k (next.call payment) }
        | none => none
      | _ => none
    | .abort k =>
      match s.calls k with
      | .running payment _ =>
        some { s with calls := Function.update s.calls k (.returned payment false) }
      | _ => none
    | .redis key value =>
      some { s with world := { s.world with redis := s.world.redis.set key value } }
    | .create invoice =>
      (insertInvoice s.world.db invoice).map fun db => { s with world := { s.world with db } }
    | .cancel merchantId id =>
      (s.update none (isCancelled merchantId id) .cancelled).map fun world => { s with world }
    | .expire k now =>
      if s.apis k = .idle then
        (s.update (some (.inr k)) (isExpired now) .expired).map fun world =>
          { s with
            world
            apis := Function.update s.apis k (.selectHooks
              (expireDispatches now (affected s.world.db (isExpired now)))) }
      else none
    | .autoCancel k now =>
      if s.apis k = .idle then
        (s.update (some (.inr k)) (isUnpaid s.world.db now) .cancelled).map fun world =>
          { s with
            world
            apis := Function.update s.apis k (.selectHooks
              (autoCancelDispatches now (affected s.world.db (isUnpaid s.world.db now)))) }
      else none
    | .applyPartial k invoiceId paidAmount =>
      if s.apis k = .idle then
        some { s with apis := Function.update s.apis k (.partialSelect invoiceId paidAmount) }
      else none
    | .api k now =>
      match (s.apis k).exec now (s.lockedFor (some (.inr k))) s.world.db with
      | some (db, call) =>
        some { s with world := { s.world with db }, apis := Function.update s.apis k call }
      | none => none
    | .apiAbort k => some { s with apis := Function.update s.apis k .idle }

/-- What a step does, label by label. -/
inductive StepSpec (env : Env) (s : Sys n m) : Label n m → Sys n m → Prop
  | deliver {k : Fin n} {payment : HorizonPayment} (hidle : (s.calls k).isRunning = false) :
      StepSpec env s (.deliver k payment)
        { s with calls := Function.update s.calls k (.running payment .eventExists) }
  | exec {k : Fin n} {now : Timestamp} {payment : HorizonPayment} {pc : Pc} {world : World}
      {next : Next} (hrun : s.calls k = .running payment pc)
      (hexec : exec env now (s.lockedFor (some (.inl k))) s.world payment pc
        = some (world, next)) :
      StepSpec env s (.exec k now)
        { s with world, calls := Function.update s.calls k (next.call payment) }
  | abort {k : Fin n} {payment : HorizonPayment} {pc : Pc}
      (hrun : s.calls k = .running payment pc) :
      StepSpec env s (.abort k)
        { s with calls := Function.update s.calls k (.returned payment false) }
  | redis {key : String} {value : Option String} :
      StepSpec env s (.redis key value)
        { s with world := { s.world with redis := s.world.redis.set key value } }
  | create {invoice : Invoice} {invoices : Table Invoice} (hpending : invoice.status = .pending)
      (hrow : s.world.db.invoices.insert? invoice = some invoices) :
      StepSpec env s (.create invoice)
        { s with world := { s.world with db := { s.world.db with invoices } } }
  | cancel {merchantId id : Uuid} {world : World}
      (hupd : s.update none (isCancelled merchantId id) .cancelled = some world) :
      StepSpec env s (.cancel merchantId id) { s with world }
  | expire {k : Fin m} {now : Timestamp} {world : World} (hidle : s.apis k = .idle)
      (hupd : s.update (some (.inr k)) (isExpired now) .expired = some world) :
      StepSpec env s (.expire k now)
        { s with
          world
          apis := Function.update s.apis k (.selectHooks
            (expireDispatches now (affected s.world.db (isExpired now)))) }
  | autoCancel {k : Fin m} {now : Timestamp} {world : World} (hidle : s.apis k = .idle)
      (hupd : s.update (some (.inr k)) (isUnpaid s.world.db now) .cancelled = some world) :
      StepSpec env s (.autoCancel k now)
        { s with
          world
          apis := Function.update s.apis k (.selectHooks
            (autoCancelDispatches now (affected s.world.db (isUnpaid s.world.db now)))) }
  | applyPartial {k : Fin m} {invoiceId : Uuid} {paidAmount : String} (hidle : s.apis k = .idle) :
      StepSpec env s (.applyPartial k invoiceId paidAmount)
        { s with apis := Function.update s.apis k (.partialSelect invoiceId paidAmount) }
  | api {k : Fin m} {now : Timestamp} {db : Db} {call : ApiCall}
      (hexec : (s.apis k).exec now (s.lockedFor (some (.inr k))) s.world.db = some (db, call)) :
      StepSpec env s (.api k now)
        { s with world := { s.world with db }, apis := Function.update s.apis k call }
  | apiAbort {k : Fin m} :
      StepSpec env s (.apiAbort k) { s with apis := Function.update s.apis k .idle }

/-- Every step is as specified. -/
theorem step_spec {s s' : Sys n m} {a : Label n m} (hstep : (system env n m).step s a = some s') :
    StepSpec env s a s' := by
  cases a with
  | deliver k payment =>
    simp only [system] at hstep
    split at hstep
    · cases hstep
    · next hidle =>
      cases hstep
      exact .deliver (Bool.not_eq_true _ ▸ hidle)
  | exec k now =>
    simp only [system] at hstep
    split at hstep
    · next payment pc hrun =>
      split at hstep
      · next world next hexec =>
        cases hstep
        exact .exec hrun hexec
      · cases hstep
    · cases hstep
  | abort k =>
    simp only [system] at hstep
    split at hstep
    · next payment pc hrun =>
      cases hstep
      exact .abort hrun
    · cases hstep
  | redis key value =>
    cases hstep
    exact .redis
  | create invoice =>
    obtain ⟨db, hins, rfl⟩ := Option.map_eq_some_iff.mp hstep
    unfold insertInvoice at hins
    split at hins
    · next hpending =>
      obtain ⟨invoices, hrow, rfl⟩ := Option.map_eq_some_iff.mp hins
      exact .create hpending hrow
    · cases hins
  | cancel merchantId id =>
    obtain ⟨world, hupd, rfl⟩ := Option.map_eq_some_iff.mp hstep
    exact .cancel hupd
  | expire k now =>
    simp only [system] at hstep
    split at hstep
    · next hidle =>
      obtain ⟨world, hupd, rfl⟩ := Option.map_eq_some_iff.mp hstep
      exact .expire hidle hupd
    · cases hstep
  | autoCancel k now =>
    simp only [system] at hstep
    split at hstep
    · next hidle =>
      obtain ⟨world, hupd, rfl⟩ := Option.map_eq_some_iff.mp hstep
      exact .autoCancel hidle hupd
    · cases hstep
  | applyPartial k invoiceId paidAmount =>
    simp only [system] at hstep
    split at hstep
    · next hidle =>
      cases hstep
      exact .applyPartial hidle
    · cases hstep
  | api k now =>
    simp only [system] at hstep
    split at hstep
    · next db call hexec =>
      cases hstep
      exact .api hexec
    · cases hstep
  | apiAbort k =>
    cases hstep
    exact .apiAbort

/-- The invoices that a statement cancels or expires, if they are active. -/
def Sys.taken (s : Sys n m) : Label n m → Invoice → Bool
  | .cancel merchantId id => isCancelled merchantId id
  | .expire _ now => isExpired now
  | .autoCancel _ now => isUnpaid s.world.db now
  | _ => fun _ => false

theorem Sys.lockedFor_eq_false {s : Sys n m} {self : Option (Fin n ⊕ Fin m)} {id : Uuid} :
    s.lockedFor self id = false ↔ ∀ o, some o ≠ self → s.holds o id = false := by
  simp [Sys.lockedFor]

/-- No two calls hold the same row, and the cron jobs announce no payment. -/
structure Sys.Sound (s : Sys n m) : Prop where
  exclusive : ∀ o o' id, s.holds o id = true → s.holds o' id = true → o = o'
  honest : ∀ k, (s.apis k).Honest

/-- Nothing is running. -/
structure Sys.Idle (s : Sys n m) : Prop where
  calls : ∀ k, s.calls k = .idle
  apis : ∀ k, s.apis k = .idle

theorem Sys.Idle.sound {s : Sys n m} (h : s.Idle) : s.Sound where
  exclusive o o' id ho := by
    rcases o with k | k
    · simp [holds, h.calls k, Call.phase, Phase.locks] at ho
    · simp [holds, h.apis k, ApiCall.locks] at ho
  honest k := by
    rw [h.apis k]
    trivial

/-- If a call's own lock keeps nobody else's out, it holds it alone. -/
theorem Sys.Sound.own {s : Sys n m} (h : s.Sound) {self : Fin n ⊕ Fin m} {id : Uuid}
    (hself : s.holds self id = true) : s.lockedFor (some self) id = false := by
  refine Sys.lockedFor_eq_false.mpr fun o ho => ?_
  by_contra hheld
  rw [Bool.not_eq_false] at hheld
  exact ho (congrArg some (h.exclusive o self id hheld hself))

/-- Locks stay exclusive where one call at a time takes only free ones. -/
theorem Sys.exclusive_of_step {s s' : Sys n m} (self : Fin n ⊕ Fin m)
    (h : ∀ o o' id, s.holds o id = true → s.holds o' id = true → o = o')
    (hother : ∀ o, o ≠ self → ∀ id, s'.holds o id = s.holds o id)
    (hself : ∀ id, s'.holds self id = true →
      s.holds self id = true ∨ s.lockedFor (some self) id = false) :
    ∀ o o' id, s'.holds o id = true → s'.holds o' id = true → o = o' := by
  -- a row that `self` holds is held by nobody else
  have hone : ∀ o id, o ≠ self → s'.holds o id = true → s'.holds self id = true → False := by
    intro o id ho h₁ h₂
    rw [hother o ho] at h₁
    rcases hself id h₂ with h₂ | h₂
    · exact ho (h o self id h₁ h₂)
    · have := Sys.lockedFor_eq_false.mp h₂ o fun heq => ho (Option.some.inj heq)
      rw [h₁] at this
      cases this
  intro o o' id h₁ h₂
  by_cases ho : o = self
  · by_cases ho' : o' = self
    · rw [ho, ho']
    · exact absurd (ho ▸ h₁) (hone o' id ho' h₂)
  · by_cases ho' : o' = self
    · exact absurd (ho' ▸ h₂) (hone o id ho h₁)
    · exact h o o' id (hother o ho id ▸ h₁) (hother o' ho' id ▸ h₂)

/-- A call takes only a lock that is free. -/
theorem PhaseStep.locks {env : Env} {now : Timestamp} {locked : Uuid → Bool}
    {payment : HorizonPayment} {w w' : World} {ph ph' : Phase} {id : Uuid}
    (h : PhaseStep env now locked payment w ph w' ph') (hl : ph'.locks id = true) :
    ph.locks id = true ∨ locked id = false := by
  cases h with
  | write => exact .inl hl
  | lock _ _ _ hfree =>
    refine .inr ?_
    rw [Phase.locks, beq_iff_eq] at hl
    exact hl ▸ hfree
  | _ => cases hl

theorem ApiCall.exec_locks {now : Timestamp} {locked : Uuid → Bool} {db db' : Db}
    {call call' : ApiCall} {id : Uuid} (h : call.exec now locked db = some (db', call'))
    (hl : call'.locks id = true) : call.locks id = true ∨ locked id = false := by
  cases call with
  | idle => cases h
  | selectHooks todo => cases todo <;> cases h <;> cases hl
  | insertDelivery d hooks todo => cases hooks <;> cases h <;> cases hl
  | partialSelect invoiceId paidAmount =>
    simp only [ApiCall.exec] at h
    split at h
    · cases h
      cases hl
    · next invoice hfind =>
      split at h
      · cases h
      · next hfree =>
        split at h
        · cases h
          have hid := (Table.find?_some hfind).2
          simp only [Bool.and_eq_true, beq_iff_eq] at hid
          simp only [ApiCall.locks, beq_iff_eq] at hl
          exact .inr (by rw [← hl, hid.1]; exact Bool.not_eq_true _ ▸ hfree)
        · cases h
          cases hl
  | partialUpdate invoice paidAmount remaining start =>
    simp only [ApiCall.exec] at h
    split at h
    · next row hrow =>
      cases h
      refine .inl ?_
      simp only [ApiCall.locks, beq_iff_eq] at hl ⊢
      rw [← (partialRow_some hrow).1, hl]
    · cases h
      cases hl
  | partialCommit row =>
    cases h
    cases hl

end Locks

/-! ## What a step can do -/

section Effects

variable {n m : Nat} {env : Env}

/-- The kinds of steps, with what they do. -/
inductive Effect (env : Env) (s s' : Sys n m) : Label n m → Prop
  | deliver (k : Fin n) (payment : HorizonPayment) (hidle : (s.calls k).isRunning = false)
      (hw : s'.world = s.world)
      (hcalls : s'.calls = Function.update s.calls k (.running payment .eventExists)) :
      Effect env s s' (.deliver k payment)
  | exec (k : Fin n) (now : Timestamp) {payment : HorizonPayment} {pc : Pc} {next : Next}
      (hrun : s.calls k = .running payment pc)
      (hexec : exec env now (s.lockedFor (some (.inl k))) s.world payment pc
        = some (s'.world, next))
      (hcalls : s'.calls = Function.update s.calls k (next.call payment)) :
      Effect env s s' (.exec k now)
  | abort (k : Fin n) {payment : HorizonPayment} {pc : Pc}
      (hrun : s.calls k = .running payment pc) (hw : s'.world = s.world)
      (hcalls : s'.calls = Function.update s.calls k (.returned payment false)) :
      Effect env s s' (.abort k)
  | redis (key : String) (value : Option String) (hdb : s'.world.db = s.world.db)
      (hredis : s'.world.redis = s.world.redis.set key value) (hcalls : s'.calls = s.calls) :
      Effect env s s' (.redis key value)
  | create {invoice : Invoice} (hpending : invoice.status = .pending)
      (hnew : ∀ i ∈ s.world.db.invoices, i.id ≠ invoice.id)
      (hmem : ∀ i, i ∈ s'.world.db.invoices ↔ i ∈ s.world.db.invoices ∨ i = invoice)
      (hdb : s'.world.db = { s.world.db with invoices := s'.world.db.invoices })
      (hredis : s'.world.redis = s.world.redis) (hcalls : s'.calls = s.calls) :
      Effect env s s' (.create invoice)
  /-- Any other step of the API. -/
  | api {a : Label n m} (hsys : ∀ k now, a ≠ .exec k now) (self : Option (Fin n ⊕ Fin m))
      (hself : ∀ k, self ≠ some (.inl k))
      (heffect : ApiEffect (s.lockedFor self) (s.taken a) s.world.db s'.world.db)
      (hredis : s'.world.redis = s.world.redis) (hcalls : s'.calls = s.calls) :
      Effect env s s' a

/-- A step of one reconciler process that takes only free locks. -/
theorem Sys.Sound.call {s s' : Sys n m} (h : s.Sound) {k : Fin n} {c : Call}
    (hcalls : s'.calls = Function.update s.calls k c) (hapis : s'.apis = s.apis)
    (hlocks : ∀ id, c.phase.locks id = true →
      (s.calls k).phase.locks id = true ∨ s.lockedFor (some (.inl k)) id = false) :
    s'.Sound where
  exclusive := by
    refine Sys.exclusive_of_step (.inl k) h.exclusive (fun o ho id => ?_) fun id hid => ?_
    · rcases o with j | j
      · have hj : j ≠ k := fun heq => ho (congrArg Sum.inl heq)
        simp only [holds, hcalls, Function.update_of_ne hj]
      · simp only [holds, hapis]
    · simp only [holds, hcalls, Function.update_self] at hid
      exact hlocks id hid
  honest k := by
    rw [hapis]
    exact h.honest k

/-- A step of one API call that takes only free locks. -/
theorem Sys.Sound.api {s s' : Sys n m} (h : s.Sound) {k : Fin m} {c : ApiCall}
    (hcalls : s'.calls = s.calls) (hapis : s'.apis = Function.update s.apis k c)
    (hlocks : ∀ id, c.locks id = true →
      (s.apis k).locks id = true ∨ s.lockedFor (some (.inr k)) id = false)
    (hhonest : c.Honest) : s'.Sound where
  exclusive := by
    refine Sys.exclusive_of_step (.inr k) h.exclusive (fun o ho id => ?_) fun id hid => ?_
    · rcases o with j | j
      · simp only [holds, hcalls]
      · have hj : j ≠ k := fun heq => ho (congrArg Sum.inr heq)
        simp only [holds, hapis, Function.update_of_ne hj]
    · simp only [holds, hapis, Function.update_self] at hid
      exact hlocks id hid
  honest j := by
    rw [hapis]
    by_cases hj : j = k
    · subst hj
      rw [Function.update_self]
      exact hhonest
    · rw [Function.update_of_ne hj]
      exact h.honest j

/-- A step that leaves all calls alone. -/
theorem Sys.Sound.world {s s' : Sys n m} (h : s.Sound) (hcalls : s'.calls = s.calls)
    (hapis : s'.apis = s.apis) : s'.Sound where
  exclusive o o' id ho ho' := by
    refine h.exclusive o o' id ?_ ?_
    · cases o <;> simpa only [holds, hcalls, hapis] using ho
    · cases o' <;> simpa only [holds, hcalls, hapis] using ho'
  honest k := hapis ▸ h.honest k

theorem Sys.update_some {s : Sys n m} {self : Option (Fin n ⊕ Fin m)} {p : Invoice → Bool}
    {status : InvoiceStatus} {w : World} (hs : status ≠ .pending)
    (h : s.update self p status = some w) :
    ApiEffect (s.lockedFor self) p s.world.db w.db ∧ w.redis = s.world.redis := by
  unfold Sys.update at h
  split at h
  · next hfree =>
    cases h
    exact ⟨apiEffect_setStatus hs hfree, rfl⟩
  · cases h

/-- **What a step can do**, and that locks stay exclusive. -/
theorem step_effect {s s' : Sys n m} {a : Label n m} (h : s.Sound)
    (hstep : (system env n m).step s a = some s') : Effect env s s' a ∧ s'.Sound := by
  cases step_spec hstep with
  | deliver hidle =>
    exact ⟨.deliver _ _ hidle rfl rfl, h.call rfl rfl fun id hid => by cases hid⟩
  | exec hrun hexec =>
    refine ⟨.exec _ _ hrun hexec rfl, h.call rfl rfl fun id hid => ?_⟩
    rw [hrun]
    rw [Next.phase_call] at hid
    exact (exec_phaseStep hexec).locks hid
  | abort hrun =>
    exact ⟨.abort _ hrun rfl rfl, h.call rfl rfl fun id hid => by cases hid⟩
  | redis => exact ⟨.redis _ _ rfl rfl rfl, h.world rfl rfl⟩
  | create hpending hrow =>
    refine ⟨.create hpending (fun i hi hid => ?_) (Table.mem_of_insert? hrow) rfl rfl rfl,
      h.world rfl rfl⟩
    exact (Table.insert?_eq_some.mp hrow).1 i hi (.inl hid)
  | cancel hupd =>
    obtain ⟨heffect, hredis⟩ := Sys.update_some (by decide) hupd
    exact ⟨.api (by simp) none (by simp) heffect hredis rfl, h.world rfl rfl⟩
  | expire hidle hupd =>
    obtain ⟨heffect, hredis⟩ := Sys.update_some (by decide) hupd
    exact ⟨.api (by simp) _ (by simp) heffect hredis rfl,
      h.api rfl rfl (fun id hid => by cases hid) (honest_expireDispatches _ _)⟩
  | autoCancel hidle hupd =>
    obtain ⟨heffect, hredis⟩ := Sys.update_some (by decide) hupd
    exact ⟨.api (by simp) _ (by simp) heffect hredis rfl,
      h.api rfl rfl (fun id hid => by cases hid) (honest_autoCancelDispatches _ _)⟩
  | applyPartial hidle =>
    exact ⟨.api (by simp) none (by simp) (.refl _ _ _) rfl rfl,
      h.api rfl rfl (fun id hid => by cases hid) trivial⟩
  | @api k _ _ _ hexec =>
    have hown : ∀ id, (s.apis k).locks id = true → s.lockedFor (some (.inr k)) id = false :=
      fun id hid => h.own hid
    obtain ⟨heffect, hhonest⟩ := ApiCall.exec_effect hown (h.honest k) hexec
    exact ⟨.api (by simp) _ (by simp) heffect rfl rfl,
      h.api rfl rfl (fun id hid => ApiCall.exec_locks hexec hid) hhonest⟩
  | apiAbort =>
    exact ⟨.api (by simp) none (by simp) (.refl _ _ _) rfl rfl,
      h.api rfl rfl (fun id hid => by cases hid) trivial⟩

/-! ## What steps never undo -/

/-- An invoice of this id is stored. -/
def Stored (db : Db) (id : Uuid) : Prop := ∃ i ∈ db.invoices, i.id = id

/-- The invoice of this id is no longer pending. -/
def Left (db : Db) (id : Uuid) : Prop := ∃ i ∈ db.invoices, i.id = id ∧ i.status ≠ .pending

/-- Ids are unique: an invoice that has left `pending` is not pending. -/
theorem Left.status_ne {db : Db} {i : Invoice} (h : Left db i.id) (hi : i ∈ db.invoices) :
    i.status ≠ .pending := by
  obtain ⟨j, hj, hid, hs⟩ := h
  rwa [← Table.eq_of_conflict hj hi (.inl hid)]

theorem stored_commitCredit {db : Db} {c : Credit} {updated : Bool} {hooks : List Uuid}
    {id : Uuid} (h : Stored db id) : Stored (commitCredit db c updated hooks) id := by
  obtain ⟨i, hi, rfl⟩ := h
  refine ⟨_, mem_invoices_commitCredit.mpr ⟨i, hi, rfl⟩, ?_⟩
  split <;> rfl

theorem left_commitCredit {db : Db} {c : Credit} {updated : Bool} {hooks : List Uuid}
    {id : Uuid} (h : Left db id) : Left (commitCredit db c updated hooks) id := by
  obtain ⟨i, hi, rfl, hs⟩ := h
  refine ⟨_, mem_invoices_commitCredit.mpr ⟨i, hi, rfl⟩, ?_⟩
  split
  · exact ⟨rfl, by simp [Credit.markPaid]⟩
  · exact ⟨rfl, hs⟩

/-- The invoices of a call's database change only when it commits a credit. -/
theorem PhaseStep.invoices {now : Timestamp} {locked : Uuid → Bool} {payment : HorizonPayment}
    {w w' : World} {ph ph' : Phase} (h : PhaseStep env now locked payment w ph w' ph') :
    w'.db.invoices = w.db.invoices ∨
      ∃ c updated hooks, ph = .crediting c (some updated) ∧
        w'.db = commitCredit w.db c updated hooks := by
  cases h with
  | look hdb => exact .inl (congrArg Db.invoices hdb)
  | reject hdb => exact .inl (congrArg Db.invoices hdb)
  | log hins => exact .inl (insertPaymentEvent_same hins).1
  | record hins => exact .inl (insertPaymentEvent_same hins).1
  | commit c updated hooks => exact .inr ⟨c, updated, hooks, rfl, rfl⟩
  | _ => exact .inl rfl

theorem stored_congr {db db' : Db} (h : db'.invoices = db.invoices) {id : Uuid}
    (hs : Stored db id) : Stored db' id := by
  unfold Stored
  rwa [h]

theorem left_congr {db db' : Db} (h : db'.invoices = db.invoices) {id : Uuid}
    (hs : Left db id) : Left db' id := by
  unfold Left
  rwa [h]

/-- Invoices stay stored. -/
theorem Effect.stored {s s' : Sys n m} {a : Label n m} (h : Effect env s s' a) {id : Uuid}
    (hs : Stored s.world.db id) : Stored s'.world.db id := by
  cases h with
  | deliver k payment hidle hw => rwa [hw]
  | abort k hrun hw => rwa [hw]
  | redis key value hdb => rwa [hdb]
  | exec k now hrun hexec =>
    rcases (exec_phaseStep hexec).invoices with heq | ⟨c, updated, hooks, -, hdb⟩
    · exact stored_congr heq hs
    · exact hdb ▸ stored_commitCredit hs
  | create hpending hnew hmem =>
    obtain ⟨i, hi, hid⟩ := hs
    exact ⟨i, (hmem i).mpr (.inl hi), hid⟩
  | api _ self _ heffect =>
    obtain ⟨i, hi, hid⟩ := hs
    obtain ⟨i', hi', hev⟩ := heffect.kept i hi
    rcases hev with rfl | ⟨hid', -⟩
    · exact ⟨i', hi', hid⟩
    · exact ⟨i', hi', hid'.trans hid⟩

/-- **No step makes an invoice pending again.** -/
theorem Effect.left {s s' : Sys n m} {a : Label n m} (h : Effect env s s' a) {id : Uuid}
    (hs : Left s.world.db id) : Left s'.world.db id := by
  cases h with
  | deliver k payment hidle hw => rwa [hw]
  | abort k hrun hw => rwa [hw]
  | redis key value hdb => rwa [hdb]
  | exec k now hrun hexec =>
    rcases (exec_phaseStep hexec).invoices with heq | ⟨c, updated, hooks, -, hdb⟩
    · exact left_congr heq hs
    · exact hdb ▸ left_commitCredit hs
  | create hpending hnew hmem =>
    obtain ⟨i, hi, hid⟩ := hs
    exact ⟨i, (hmem i).mpr (.inl hi), hid⟩
  | api _ self _ heffect =>
    obtain ⟨i, hi, hid, hne⟩ := hs
    obtain ⟨i', hi', hev⟩ := heffect.kept i hi
    rcases hev with rfl | ⟨hid', -, hne', -⟩
    · exact ⟨i', hi', hid, hne⟩
    · exact ⟨i', hi', hid'.trans hid, hne'⟩

/-! ## Invoices that calls rely on -/

/-- The invoice of this id is paid. -/
def PaidIn (db : Db) (id : Uuid) : Prop := ∃ i ∈ db.invoices, i.id = id ∧ i.status = .paid

/-- The invoice of this id is pending or paid. -/
def Alive (db : Db) (id : Uuid) : Prop :=
  ∃ i ∈ db.invoices, i.id = id ∧ (i.status = .pending ∨ i.status = .paid)

variable {db db' : Db}

theorem PaidIn.status {i : Invoice} (h : PaidIn db i.id) (hi : i ∈ db.invoices) :
    i.status = .paid := by
  obtain ⟨j, hj, hid, hs⟩ := h
  rwa [← Table.eq_of_conflict hj hi (.inl hid)]

/-- How a database may follow another: paid invoices stay paid, and those that
calls rely on stay pending or become paid. -/
structure Follows (db db' : Db) (relied : Uuid → Prop) : Prop where
  paid : ∀ id, PaidIn db id → PaidIn db' id
  alive : ∀ id, relied id → Alive db id → Alive db' id

theorem Follows.of_invoices {relied : Uuid → Prop} (h : db'.invoices = db.invoices) :
    Follows db db' relied := by
  refine ⟨fun id hp => ?_, fun id _ ha => ?_⟩
  · unfold PaidIn
    rwa [h]
  · unfold Alive
    rwa [h]

theorem follows_commitCredit (relied : Uuid → Prop) {c : Credit} {updated : Bool}
    {hooks : List Uuid} : Follows db (commitCredit db c updated hooks) relied := by
  refine ⟨fun id ⟨i, hi, hid, hs⟩ => ?_, fun id _ ⟨i, hi, hid, hs⟩ => ?_⟩ <;>
    refine ⟨_, mem_invoices_commitCredit.mpr ⟨i, hi, rfl⟩, ?_⟩ <;> split
  · exact ⟨hid, rfl⟩
  · exact ⟨hid, hs⟩
  · exact ⟨hid, .inr rfl⟩
  · exact ⟨hid, hs⟩

/-- An API statement that takes away no invoice calls rely on. -/
theorem follows_apiEffect {locked : Uuid → Bool} {taken : Invoice → Bool} (relied : Uuid → Prop)
    (h : ApiEffect locked taken db db')
    (hno : ∀ i ∈ db.invoices, taken i = true → i.status.active = true → ¬ relied i.id) :
    Follows db db' relied := by
  refine ⟨fun id ⟨i, hi, hid, hs⟩ => ?_, fun id hrel ⟨i, hi, hid, hs⟩ => ?_⟩
  · obtain ⟨i', hi', rfl | ⟨hid', -, -, hpaid | ⟨hact, -⟩⟩⟩ := h.kept i hi
    · exact ⟨i', hi', hid, hs⟩
    · exact ⟨i', hi', hid'.trans hid, hpaid⟩
    · -- paid invoices are not active
      rw [hs] at hact
      cases hact
  · obtain ⟨i', hi', rfl | ⟨hid', -, -, hpaid | ⟨hact, htaken⟩⟩⟩ := h.kept i hi
    · exact ⟨i', hi', hid, hs⟩
    · exact ⟨i', hi', hid'.trans hid, .inr hpaid⟩
    · exact absurd (hid ▸ hrel) (hno i hi htaken hact)

/-- A statement of a call changes invoices only as `Follows` admits. -/
theorem follows_phaseStep {now : Timestamp} {locked : Uuid → Bool} {payment : HorizonPayment}
    {w w' : World} {ph ph' : Phase} (relied : Uuid → Prop)
    (hstep : PhaseStep env now locked payment w ph w' ph') : Follows w.db w'.db relied := by
  rcases hstep.invoices with heq | ⟨c, updated, hooks, -, hdb⟩
  · exact .of_invoices heq
  · rw [hdb]
    exact follows_commitCredit relied

/-- A statement of a call only adds events, those of its own payment, and ledger
rows. -/
theorem PhaseStep.grows {now : Timestamp} {locked : Uuid → Bool} {payment : HorizonPayment}
    {w w' : World} {ph ph' : Phase} (h : PhaseStep env now locked payment w ph w' ph') :
    (∀ l ∈ w.db.ledgerEntries, l ∈ w'.db.ledgerEntries) ∧
      (∀ e ∈ w.db.paymentEvents, e ∈ w'.db.paymentEvents) ∧
      ∀ e ∈ w'.db.paymentEvents, e ∈ w.db.paymentEvents ∨
        e.pagingToken = payment.pagingToken := by
  have hins : ∀ {invoiceId : Option Uuid} {ofacResult : String} {db : Db} {eventId : Nat},
      insertPaymentEvent env now w.db payment invoiceId ofacResult = some (db, eventId) →
      (∀ l ∈ w.db.ledgerEntries, l ∈ db.ledgerEntries) ∧
        (∀ e ∈ w.db.paymentEvents, e ∈ db.paymentEvents) ∧
        ∀ e ∈ db.paymentEvents, e ∈ w.db.paymentEvents ∨
          e.pagingToken = payment.pagingToken := by
    intro invoiceId ofacResult db eventId h
    obtain ⟨-, e, -, htok, -, hmem, -⟩ := insertPaymentEvent_some h
    refine ⟨fun l hl => by rwa [(insertPaymentEvent_same h).2], fun x hx => (hmem x).mpr (.inl hx),
      fun x hx => ?_⟩
    rcases (hmem x).mp hx with hx | rfl
    · exact .inl hx
    · exact .inr htok
  cases h with
  | look hdb | reject hdb =>
    rw [hdb]
    exact ⟨fun _ h => h, fun _ h => h, fun _ => .inl⟩
  | log h => exact hins h
  | record h => exact hins h
  | commit =>
    exact ⟨fun l hl => mem_ledger_commitCredit.mpr (.inl hl), fun _ h => h, fun _ => .inl⟩
  | _ => exact ⟨fun _ h => h, fun _ h => h, fun _ => .inl⟩

/-- Ledger rows and events are never removed. -/
theorem Effect.grows {s s' : Sys n m} {a : Label n m} (h : Effect env s s' a) :
    (∀ l ∈ s.world.db.ledgerEntries, l ∈ s'.world.db.ledgerEntries) ∧
      ∀ e ∈ s.world.db.paymentEvents, e ∈ s'.world.db.paymentEvents := by
  cases h with
  | deliver k payment hidle hw =>
    rw [hw]
    exact ⟨fun _ h => h, fun _ h => h⟩
  | abort k hrun hw =>
    rw [hw]
    exact ⟨fun _ h => h, fun _ h => h⟩
  | redis key value hdb =>
    rw [hdb]
    exact ⟨fun _ h => h, fun _ h => h⟩
  | exec k now hrun hexec =>
    obtain ⟨hledger, hevents, -⟩ := (exec_phaseStep hexec).grows
    exact ⟨hledger, hevents⟩
  | create hpending hnew hmem hdb =>
    rw [hdb]
    exact ⟨fun _ h => h, fun _ h => h⟩
  | api _ self _ heffect =>
    rw [heffect.ledger, heffect.events]
    exact ⟨fun _ h => h, fun _ h => h⟩

/-- **No step takes a paid invoice back.** -/
theorem Effect.paid {s s' : Sys n m} {a : Label n m} (h : Effect env s s' a) {id : Uuid}
    (hp : PaidIn s.world.db id) : PaidIn s'.world.db id := by
  cases h with
  | deliver k payment hidle hw => rwa [hw]
  | abort k hrun hw => rwa [hw]
  | redis key value hdb => rwa [hdb]
  | exec k now hrun hexec =>
    exact (follows_phaseStep (fun _ => True) (exec_phaseStep hexec)).paid id hp
  | create hpending hnew hmem =>
    obtain ⟨i, hi, hrest⟩ := hp
    exact ⟨i, (hmem i).mpr (.inl hi), hrest⟩
  | api _ self _ heffect =>
    exact (follows_apiEffect (fun _ => False) heffect fun _ _ _ _ h => h).paid id hp

end Effects

/-! ## Runs on the fixtures -/

/-- One process, one API call, and the pending invoice of the tests. -/
def onePending : Sys 1 1 where
  world := { db := seedDb (seedInvoice 1 99099) }

/-- A payment of that invoice. -/
def fullPayment (pagingToken : String) : HorizonPayment :=
  makePayment pagingToken "M99099" "10.5000000"

/-- The next `k` statements of the process. A call that credits an invoice by
muxed id runs four up to the match and nine after it. -/
def execs (k : Nat) : List (Label 1 1) := List.replicate k (.exec 0 0)

end Stargate.Reconciler
