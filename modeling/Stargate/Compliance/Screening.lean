import Stargate.Compliance.CacheFormat
import Stargate.Reconciler.System

/-!
# One screening cache for two services

`shared` runs the reconciler and any number of calls of the API's `screenAddress` over one
Redis. The API asks TRM about an address that is not cached; the reconciler takes such an
address for clear, and says so in the cache.

- `ScreenCall`: a call of `screenAddress` between two commands;
- `isCached`: the reconciler finds an entry whenever it looks the address up;
- `never_cleared`: then an address of high risk is cleared by no call, and no payment from it
  is credited;
- `cleared_on_miss`: without an entry, the reconciler clears it for both services.
-/

namespace Stargate.Compliance

open Base Reconciler

/-! ## Calls of `screenAddress` -/

/-- Where a call stands. -/
inductive ScreenCall where
  | idle
  | getting (address : String)
  /-- Waiting for TRM. -/
  | asking (address : String)
  | setting (address : String) (screening : ScreeningResult)
  /-- With the verdict of the result that it returns. -/
  | returned (address : String) (verdict : List Char)
  | failed
  deriving DecidableEq

/-- Nothing runs. -/
def ScreenCall.resting : ScreenCall → Bool
  | .idle | .returned .. | .failed => true
  | _ => false

/-- `JSON.parse(cached).result`; the empty text is `undefined`. -/
def verdictOf (value : Json) : List Char :=
  match value.get "result".toList with
  | some (.string verdict) => verdict
  | _ => []

/-- After the `GET`. An empty entry counts as none. -/
def afterGet (config : ApiConfig) (address : String) (cached : Option String) : ScreenCall :=
  match cached with
  | some cached =>
    if cached = "" then miss
    else match Json.parse cached.toList with
      | some value => .returned address (verdictOf value)
      | none => .failed
  | none => miss
where
  miss : ScreenCall :=
    if config.asksTrm then .asking address else .setting address (freshScreening config none)

/-! ## The two services -/

structure Shared (n m p : Nat) where
  sys : Sys n m
  screens : Fin p → ScreenCall := fun _ => .idle

/-- What may happen next. -/
inductive Action (n m p : Nat) where
  /-- A step of the reconciler or of the rest of the API. -/
  | system (a : Label n m)
  | screen (k : Fin p) (address : String)
  | get (k : Fin p)
  /-- TRM's answer, if there is one. -/
  | respond (k : Fin p) (payload : Option Json)
  | set (k : Fin p)
  /-- A command fails, or the process dies. -/
  | abort (k : Fin p)
  | expire (address : String)

/-- A step of `system` that leaves Redis to the others. -/
def isRedis {n m : Nat} : Label n m → Bool
  | .redis _ _ => true
  | _ => false

section Steps

variable {n m p : Nat}

/-- Redis, with a new value of an entry. -/
def Shared.cache (s : Shared n m p) (address : String) (value : Option String) : Sys n m :=
  { s.sys with
    world := { s.sys.world with redis := s.sys.world.redis.set (ofacKey address) value } }

/-- The interleavings of both services. `trm` says which answers TRM may give for an
address. -/
def shared (env : Env) (config : ApiConfig) (trm : String → Option Json → Bool) (n m p : Nat) :
    Lts (Shared n m p) (Action n m p) where
  step s
    | .system a =>
      if isRedis a then none
      else ((system (serdeEnv env) n m).step s.sys a).map fun sys => { s with sys }
    | .screen k address =>
      if (s.screens k).resting then
        some { s with screens := Function.update s.screens k (.getting address) }
      else none
    | .get k =>
      match s.screens k with
      | .getting address =>
        some { s with
          screens := Function.update s.screens k
            (afterGet config address (s.sys.world.redis.get (ofacKey address))) }
      | _ => none
    | .respond k payload =>
      match s.screens k with
      | .asking address =>
        if trm address payload then
          some { s with
            screens := Function.update s.screens k
              (.setting address (freshScreening config payload)) }
        else none
      | _ => none
    | .set k =>
      match s.screens k with
      | .setting address screening =>
        some
          { sys := s.cache address (some (.ofList (cacheText screening)))
            screens := Function.update s.screens k (.returned address screening.result.text) }
      | _ => none
    | .abort k =>
      if (s.screens k).resting then none
      else some { s with screens := Function.update s.screens k .failed }
    | .expire address => some { s with sys := s.cache address none }

end Steps

/-! ## Addresses of high risk -/

/-- TRM gives a risk of 90 or more. -/
def HighRisk (payload : Option Json) : Prop := ∃ risk, riskOf payload = some risk ∧ risk.atLeast 90

/-- What the cache may say of the address: nothing, or that it is blocked. -/
def Marked (address : String) (redis : Redis) : Prop :=
  ∀ cached, redis.get (ofacKey address) = some cached →
    ∃ risk, risk.atLeast 90 ∧ cached = .ofList (cacheText (rate risk))

/-- A call of the reconciler has not got past the screening, or only to log the payment. -/
def Halted : Pc → Prop
  | .eventExists | .screenGet | .saveCursor => True
  | .insertBlocked ofac => ofac.result = "blocked"
  | _ => False

/-- The stored event of this id is about a payment from another address. -/
def OtherEvent (address : String) (db : Db) (eventId : Nat) : Prop :=
  ∃ e ∈ db.paymentEvents, e.id = eventId ∧ e.payerAddress ≠ address

/-- Every credit is for a payment from another address. -/
def OtherCredits (address : String) (db : Db) : Prop :=
  ∀ l ∈ db.ledgerEntries, l.type = .payment → OtherEvent address db l.eventId

/-- The event that a call is about to credit. -/
def OtherPhase (address : String) (db : Db) : Phase → Prop
  | .recorded _ eventId => OtherEvent address db eventId
  | .crediting c _ => OtherEvent address db c.eventId
  | _ => True

/-- A call of the reconciler credits no payment from the address. -/
def Spares (address : String) (db : Db) : Call → Prop
  | .running payment pc =>
    (payment.fromAddress = address → Halted pc) ∧ OtherPhase address db pc.phase
  | _ => True

/-- A call of the API does not clear the address. -/
def Blocks (address : String) : ScreenCall → Prop
  | .setting address' screening =>
    address' = address → ∃ risk, risk.atLeast 90 ∧ screening = rate risk
  | .returned address' verdict => address' = address → verdict = "blocked".toList
  | _ => True

/-- The step is the `GET` of a reconciler that screens the address. -/
def looksUp {n m p : Nat} (address : String) (s : Shared n m p) : Action n m p → Bool
  | .system (.exec k _) =>
    match s.sys.calls k with
    | .running payment .screenGet => payment.fromAddress == address
    | _ => false
  | _ => false

/-- The reconciler looks the address up only where the cache has an entry for it. -/
def isCached {n m p : Nat} (address : String) (s : Shared n m p) (a : Action n m p) : Prop :=
  looksUp address s a = true → (s.sys.world.redis.get (ofacKey address)).isSome = true

instance decidableIsCached {n m p : Nat} (address : String) (s : Shared n m p)
    (a : Action n m p) : Decidable (isCached address s a) :=
  inferInstanceAs (Decidable (_ → _))

/-- What holds in every state of a run that meets the condition. -/
structure Guards {n m p : Nat} (address : String) (s : Shared n m p) : Prop where
  sound : s.sys.Sound
  cache : Marked address s.sys.world.redis
  credits : OtherCredits address s.sys.world.db
  calls : ∀ k, Spares address s.sys.world.db (s.sys.calls k)
  screens : ∀ k, Blocks address (s.screens k)

section Steps

variable {n m p : Nat} {env : Env} {config : ApiConfig} {trm : String → Option Json → Bool}
  {address : String} {payment : HorizonPayment} {w w' : World} {db db' : Db}

/-! ## Credits -/

theorem OtherEvent.mono {eventId : Nat} (h : OtherEvent address db eventId)
    (hevents : ∀ e ∈ db.paymentEvents, e ∈ db'.paymentEvents) : OtherEvent address db' eventId := by
  obtain ⟨e, he, hid, hpayer⟩ := h
  exact ⟨e, hevents e he, hid, hpayer⟩

theorem OtherPhase.mono {ph : Phase} (h : OtherPhase address db ph)
    (hevents : ∀ e ∈ db.paymentEvents, e ∈ db'.paymentEvents) : OtherPhase address db' ph := by
  cases ph with
  | recorded inv eventId => exact OtherEvent.mono h hevents
  | crediting c updated => exact OtherEvent.mono h hevents
  | _ => trivial

theorem OtherCredits.congr (h : OtherCredits address db)
    (hledger : db'.ledgerEntries = db.ledgerEntries)
    (hevents : ∀ e ∈ db.paymentEvents, e ∈ db'.paymentEvents) : OtherCredits address db' := by
  intro l hl htype
  rw [hledger] at hl
  exact (h l hl htype).mono hevents

theorem Spares.mono {call : Call} (h : Spares address db call)
    (hevents : ∀ e ∈ db.paymentEvents, e ∈ db'.paymentEvents) : Spares address db' call := by
  cases call with
  | running payment pc => exact ⟨h.1, h.2.mono hevents⟩
  | _ => trivial

/-- The event of a payment names its sender. -/
theorem insertPaymentEvent_payer {now : Timestamp} {invoiceId : Option Uuid} {ofacResult : String}
    {eventId : Nat}
    (h : insertPaymentEvent env now db payment invoiceId ofacResult = some (db', eventId)) :
    ∃ e ∈ db'.paymentEvents, e.id = eventId ∧ e.payerAddress = payment.fromAddress := by
  obtain ⟨amount, -, h⟩ := Option.bind_eq_some_iff.mp h
  obtain ⟨events, hins, h⟩ := Option.bind_eq_some_iff.mp h
  cases h
  exact ⟨_, (Table.mem_of_insert? hins _).mpr (.inr rfl), rfl, rfl⟩

/-- The event that a call records is of another address, if its payment is. -/
theorem otherPhase_step {now : Timestamp} {locked : Uuid → Bool} {ph ph' : Phase}
    (hstep : PhaseStep env now locked payment w ph w' ph')
    (hfrom : ∀ inv, ph = .matched inv → payment.fromAddress ≠ address)
    (h : OtherPhase address w.db ph) : OtherPhase address w'.db ph' := by
  cases hstep with
  | record hins =>
    obtain ⟨e, he, hid, hpayer⟩ := insertPaymentEvent_payer hins
    exact ⟨e, he, hid, hpayer ▸ hfrom _ rfl⟩
  | begin => exact h
  | write => exact h
  | lock => exact h
  | miss => exact h
  | _ => trivial

/-- A call credits the event that it has recorded. -/
theorem otherCredits_step {now : Timestamp} {locked : Uuid → Bool} {ph ph' : Phase}
    (hstep : PhaseStep env now locked payment w ph w' ph') (hw : OtherCredits address w.db)
    (h : OtherPhase address w.db ph) : OtherCredits address w'.db := by
  have hevents := hstep.grows.2.1
  cases hstep with
  | look hdb => exact hw.congr (congrArg Db.ledgerEntries hdb) hevents
  | reject hdb => exact hw.congr (congrArg Db.ledgerEntries hdb) hevents
  | log hins => exact hw.congr (insertPaymentEvent_same hins).2 hevents
  | record hins => exact hw.congr (insertPaymentEvent_same hins).2 hevents
  | commit c updated hooks =>
    intro l hl htype
    rcases mem_ledger_commitCredit.mp hl with hl | rfl
    · exact hw l hl htype
    · exact h
  | _ => exact hw

/-! ## Calls of the reconciler -/

/-- Where the cache marks the address, a call that screens it goes no further. -/
theorem halted_exec {now : Timestamp} {locked : Uuid → Bool} {pc pc' : Pc}
    (hexec : exec (serdeEnv env) now locked w payment pc = some (w', .goto pc'))
    (hmarked : Marked payment.fromAddress w.redis)
    (hcached : pc = .screenGet → (w.redis.get (ofacKey payment.fromAddress)).isSome = true)
    (h : Halted pc) : Halted pc' := by
  cases pc with
  | eventExists =>
    rw [exec_eventExists] at hexec
    repeat' split at hexec
    · cases hexec
    · cases hexec
      trivial
    · cases hexec
  | screenGet =>
    obtain ⟨cached, hget⟩ := Option.isSome_iff_exists.mp (hcached rfl)
    obtain ⟨risk, hrisk, rfl⟩ := hmarked cached hget
    simp only [exec, hget] at hexec
    split at hexec
    · next ofac hof =>
      have hread : fromStr (.ofList (cacheText (rate risk))) = some ofac := hof
      rw [fromStr_cacheText] at hread
      obtain ⟨score, -, rfl⟩ := Option.map_eq_some_iff.mp hread
      have hblocked : (rate risk).result = .blocked := if_pos hrisk
      rw [hblocked] at hexec
      cases hexec
      rfl
    · cases hexec
  | insertBlocked ofac =>
    simp only [exec] at hexec
    split at hexec
    · cases hexec
      trivial
    · cases hexec
  | saveCursor => cases hexec
  | _ => exact h.elim

/-- What a halted call is about, it has not matched to an invoice. -/
theorem Halted.phase_ne {pc : Pc} {inv : InvoiceRow} (h : Halted pc) : pc.phase ≠ .matched inv := by
  cases pc with
  | insertEvent => exact h.elim
  | _ => exact nofun

/-- A step of a call keeps the cache of the address. -/
theorem marked_exec {now : Timestamp} {locked : Uuid → Bool} {pc : Pc} {next : Next}
    (hexec : exec (serdeEnv env) now locked w payment pc = some (w', next))
    (hhalted : payment.fromAddress = address → Halted pc) (h : Marked address w.redis) :
    Marked address w'.redis := by
  intro cached hget
  rcases exec_redis hexec with heq | ⟨ofac, hpc, hredis⟩
  · exact h cached (heq ▸ hget)
  · have hne : payment.fromAddress ≠ address := fun hfrom => by
      have := hhalted hfrom
      rw [hpc] at this
      exact this
    refine h cached ?_
    rw [hredis] at hget
    exact (if_neg fun hkey => hne (ofacKey_injective hkey).symm).symm.trans hget

/-- **A step of the reconciler** that finds the address cached. -/
theorem guards_exec {s : Shared n m p} {sys : Sys n m} {k : Fin n} {now : Timestamp}
    (h : Guards address s) (hg : isCached address s (.system (.exec k now)))
    (hstep : (system (serdeEnv env) n m).step s.sys (.exec k now) = some sys) :
    Guards address { s with sys } := by
  obtain ⟨heffect, hsound⟩ := step_effect h.sound hstep
  cases heffect with
  | @exec k now payment pc next hrun hexec hcalls =>
    have hphase := exec_phaseStep hexec
    have hcall := h.calls k
    rw [hrun] at hcall
    obtain ⟨hhalted, hother⟩ := hcall
    have hevents := hphase.grows.2.1
    have hfrom : ∀ inv, pc.phase = .matched inv → payment.fromAddress ≠ address :=
      fun inv hph heq => (hhalted heq).phase_ne hph
    refine ⟨hsound, marked_exec hexec hhalted h.cache, otherCredits_step hphase h.credits hother,
      fun j => ?_, h.screens⟩
    show Spares address sys.world.db (sys.calls j)
    rw [hcalls]
    by_cases hj : j = k
    · subst hj
      rw [Function.update_self]
      cases hnext : next with
      | ret ok => trivial
      | goto pc' =>
        rw [hnext] at hexec hphase
        refine ⟨fun heq => ?_, otherPhase_step hphase hfrom hother⟩
        refine halted_exec hexec (heq ▸ h.cache) (fun hget => ?_) (hhalted heq)
        have hlooks : looksUp address s (.system (.exec j now)) = true := by
          rw [looksUp, hrun, hget]
          exact beq_iff_eq.mpr heq
        rw [heq]
        exact hg hlooks
    · rw [Function.update_of_ne hj]
      exact (h.calls j).mono hevents
  | api hsys => exact absurd rfl (hsys k now)

/-- Any other step of `system` that leaves Redis alone. -/
theorem guards_system {s : Shared n m p} {sys : Sys n m} {a : Label n m}
    (h : Guards address s) (hredis : isRedis a = false) (hexec : ∀ k now, a ≠ .exec k now)
    (hstep : (system (serdeEnv env) n m).step s.sys a = some sys) :
    Guards address { s with sys } := by
  obtain ⟨heffect, hsound⟩ := step_effect h.sound hstep
  have hcongr : sys.world.redis = s.sys.world.redis →
      sys.world.db.ledgerEntries = s.sys.world.db.ledgerEntries →
      sys.world.db.paymentEvents = s.sys.world.db.paymentEvents →
      (∀ k, sys.calls k = s.sys.calls k ∨ Spares address sys.world.db (sys.calls k)) →
      Guards address { s with sys } := by
    intro hredis hledger hevents hcalls
    have hmono : ∀ e ∈ s.sys.world.db.paymentEvents, e ∈ sys.world.db.paymentEvents := by
      rw [hevents]
      exact fun _ he => he
    refine ⟨hsound, hredis ▸ h.cache, h.credits.congr hledger hmono, fun k => ?_, h.screens⟩
    rcases hcalls k with hsame | hspares
    · show Spares address sys.world.db (sys.calls k)
      rw [hsame]
      exact (h.calls k).mono hmono
    · exact hspares
  cases heffect with
  | deliver k payment hidle hw hcalls =>
    refine hcongr (by rw [hw]) (by rw [hw]) (by rw [hw]) fun j => ?_
    by_cases hj : j = k
    · refine .inr ?_
      rw [hcalls, hj, Function.update_self]
      exact ⟨fun _ => trivial, trivial⟩
    · exact .inl (by rw [hcalls, Function.update_of_ne hj])
  | exec k now => exact absurd rfl (hexec k now)
  | abort k hrun hw hcalls =>
    refine hcongr (by rw [hw]) (by rw [hw]) (by rw [hw]) fun j => ?_
    by_cases hj : j = k
    · refine .inr ?_
      rw [hcalls, hj, Function.update_self]
      trivial
    · exact .inl (by rw [hcalls, Function.update_of_ne hj])
  | redis key value => cases hredis
  | create hpending hnew hmem hdb hred hcalls =>
    exact hcongr hred (by rw [hdb]) (by rw [hdb]) fun j => .inl (by rw [hcalls])
  | api hsys self hself heff hred hcalls =>
    exact hcongr hred heff.ledger heff.events fun j => .inl (by rw [hcalls])

/-! ## Calls of the API -/

/-- A call that finds the address cached returns that it is blocked. -/
theorem blocks_afterGet {address' : String} {redis : Redis} (hasks : config.asksTrm = true)
    (h : Marked address redis) :
    Blocks address (afterGet config address' (redis.get (ofacKey address'))) := by
  have hmiss : Blocks address (afterGet.miss config address') := by
    rw [afterGet.miss, if_pos hasks]
    trivial
  cases hget : redis.get (ofacKey address') with
  | none => exact hmiss
  | some cached =>
    unfold afterGet
    dsimp only
    split
    · exact hmiss
    · cases hparse : Json.parse cached.toList with
      | none => trivial
      | some value =>
        rintro rfl
        obtain ⟨risk, hrisk, rfl⟩ := h cached hget
        rw [String.toList_ofList, parse_cacheText] at hparse
        obtain ⟨x, -, rfl⟩ := Option.map_eq_some_iff.mp hparse
        have hblocked : (rate risk).result = .blocked := if_pos hrisk
        rw [hblocked]
        rfl

/-- What is fresh for an address of high risk. -/
theorem freshScreening_highRisk {payload : Option Json} (hasks : config.asksTrm = true)
    (h : HighRisk payload) :
    ∃ risk, risk.atLeast 90 ∧ freshScreening config payload = rate risk := by
  obtain ⟨risk, hrisk, hhigh⟩ := h
  obtain ⟨henabled, hkey⟩ : config.ofacScreeningEnabled ≠ some "false" ∧ config.hasKey = true := by
    simpa [ApiConfig.asksTrm] using hasks
  refine ⟨risk, hhigh, ?_⟩
  rw [freshScreening, if_neg henabled, if_neg (by simp [hkey]), hrisk]

/-- The entry of another address, or of this one as it may be. -/
theorem Marked.set {address' : String} {redis : Redis} {value : Option String}
    (h : Marked address redis)
    (hvalue : address' = address → ∀ cached, value = some cached →
      ∃ risk, risk.atLeast 90 ∧ cached = .ofList (cacheText (rate risk))) :
    Marked address (redis.set (ofacKey address') value) := by
  intro cached hget
  by_cases hkey : address' = address
  · subst hkey
    rw [Redis.get_set_self] at hget
    exact hvalue rfl cached hget
  · refine h cached ((if_neg fun heq => hkey ?_).symm.trans hget)
    exact (ofacKey_injective heq).symm

/-- A new entry leaves all but Redis alone. -/
theorem Guards.cached {s : Shared n m p} {address' : String} {value : Option String}
    (h : Guards address s)
    (hvalue : address' = address → ∀ cached, value = some cached →
      ∃ risk, risk.atLeast 90 ∧ cached = .ofList (cacheText (rate risk))) :
    Guards address { s with sys := s.cache address' value } where
  sound := h.sound.world rfl rfl
  cache := h.cache.set hvalue
  credits := h.credits
  calls := h.calls
  screens := h.screens

/-- A step of one call of the API. -/
theorem Guards.call {s : Shared n m p} {k : Fin p} {call : ScreenCall} (h : Guards address s)
    (hcall : Blocks address call) :
    Guards address { s with screens := Function.update s.screens k call } where
  sound := h.sound
  cache := h.cache
  credits := h.credits
  calls := h.calls
  screens := forall_update (P := fun _ c => Blocks address c) hcall fun j _ => h.screens j

/-- **A step keeps the address blocked.** -/
theorem guards_step (hasks : config.asksTrm = true)
    (htrm : ∀ payload, trm address payload = true → HighRisk payload) {s s' : Shared n m p}
    {a : Action n m p} (h : Guards address s) (hg : isCached address s a)
    (hstep : (shared env config trm n m p).step s a = some s') : Guards address s' := by
  cases a with
  | system a =>
    simp only [shared] at hstep
    split at hstep
    · cases hstep
    · next hredis =>
      obtain ⟨sys, hsys, rfl⟩ := Option.map_eq_some_iff.mp hstep
      cases a with
      | exec k now => exact guards_exec h hg hsys
      | _ => exact guards_system h (Bool.not_eq_true _ ▸ hredis) (fun _ _ heq => by cases heq) hsys
  | screen k address' =>
    simp only [shared] at hstep
    split at hstep
    · cases hstep
      exact h.call trivial
    · cases hstep
  | get k =>
    simp only [shared] at hstep
    split at hstep
    · cases hstep
      exact h.call (blocks_afterGet hasks h.cache)
    · cases hstep
  | respond k payload =>
    simp only [shared] at hstep
    split at hstep
    · split at hstep
      · next hanswer =>
        cases hstep
        refine h.call fun heq => ?_
        subst heq
        exact freshScreening_highRisk hasks (htrm payload hanswer)
      · cases hstep
    · cases hstep
  | set k =>
    simp only [shared] at hstep
    split at hstep
    · next address' screening hset =>
      cases hstep
      have hblocks := h.screens k
      rw [hset] at hblocks
      refine (h.cached fun heq cached hcached => ?_).call fun heq => ?_
      · obtain ⟨risk, hrisk, rfl⟩ := hblocks heq
        exact ⟨risk, hrisk, (Option.some.inj hcached).symm⟩
      · obtain ⟨risk, hrisk, rfl⟩ := hblocks heq
        have hblocked : (rate risk).result = .blocked := if_pos hrisk
        rw [hblocked]
        rfl
    · cases hstep
  | abort k =>
    simp only [shared] at hstep
    split at hstep
    · cases hstep
    · cases hstep
      exact h.call trivial
  | expire address' =>
    cases hstep
    exact h.cached nofun

/-- Nothing runs, the address is not cached, and nothing was credited from it. -/
structure Start (address : String) (s : Shared n m p) : Prop where
  idle : s.sys.Idle
  screens : ∀ k, s.screens k = .idle
  uncached : s.sys.world.redis.get (ofacKey address) = none
  credits : OtherCredits address s.sys.world.db

theorem Start.guards {s : Shared n m p} (h : Start address s) : Guards address s where
  sound := h.idle.sound
  cache cached hget := by
    rw [h.uncached] at hget
    cases hget
  credits := h.credits
  calls k := by
    rw [h.idle.calls k]
    trivial
  screens k := by
    rw [h.screens k]
    trivial

/-- **An address of high risk is never cleared**, if the reconciler finds an entry for it
whenever it looks: no call of the API returns another verdict than that it is blocked, no call
of the reconciler gets past the screening of a payment from it, and none is credited. -/
theorem never_cleared (hasks : config.asksTrm = true)
    (htrm : ∀ payload, trm address payload = true → HighRisk payload) {s t : Shared n m p}
    {as : List (Action n m p)} (hstart : Start address s)
    (hg : (shared env config trm n m p).Guarded (isCached address) s as)
    (hrun : (shared env config trm n m p).run s as = some t) :
    (∀ k verdict, t.screens k = .returned address verdict → verdict = "blocked".toList) ∧
    (∀ k payment pc, t.sys.calls k = .running payment pc → payment.fromAddress = address →
      Halted pc) ∧
    OtherCredits address t.sys.world.db := by
  have hguards := (shared env config trm n m p).inv_of_guarded_run
    (fun _ _ _ => guards_step hasks htrm) hstart.guards hg hrun
  refine ⟨fun k verdict hk => ?_, fun k payment pc hk hfrom => ?_, hguards.credits⟩
  · have hblocks := hguards.screens k
    rw [hk] at hblocks
    exact hblocks rfl
  · have hspares := hguards.calls k
    rw [hk] at hspares
    exact hspares.1 hfrom

end Steps

/-! ## The reconciler first -/

/-- Both services have a key for TRM. -/
def screeningEnv : Env :=
  { testEnv with
    config := { testConfig with ofacScreeningEnabled := true, trmLabsApiKey := some "key" } }

/-- TRM answers 95 for every address. -/
def answers95 (_ : String) (payload : Option Json) : Bool :=
  match riskOf payload with
  | some risk => risk = .finite 95
  | none => false

/-- The answer with a score of 95. -/
def payload95 : Option Json := some (answer (.number "95".toList))

/-- One pending invoice, and one call of the API. -/
def beforeScreening : Shared 1 1 1 where
  sys := onePending

/-- The address that pays. -/
def payer : String := (fullPayment "token_happy_001").fromAddress

/-- A payment of the invoice, run to its end. -/
def pays : List (Action 1 1 1) :=
  (.deliver 0 (fullPayment "token_happy_001") :: execs 13).map .system

/-- A call of the API screens the payer. -/
def screens : List (Action 1 1 1) := [.screen 0 payer, .get 0, .respond 0 payload95, .set 0]

/-- The reconciler looks the payer up first. It credits the payment, and the API returns the
cached "clear". -/
theorem cleared_on_miss : ∃ t,
    (shared screeningEnv withKey answers95 1 1 1).run beforeScreening
      (pays ++ [.screen 0 payer, .get 0]) = some t ∧
    t.screens 0 = .returned payer "clear".toList ∧
    (∃ l ∈ t.sys.world.db.ledgerEntries, l.type = .payment ∧
      ∃ e ∈ t.sys.world.db.paymentEvents, e.id = l.eventId ∧ e.payerAddress = payer) ∧
    ∀ i ∈ t.sys.world.db.invoices, i.status = .paid := by
  obtain ⟨t, hrun, hclear, hcredit, hpaid⟩ :=
    (shared screeningEnv withKey answers95 1 1 1).exists_of_leadsTo
      (fun t => t.screens 0 = .returned payer "clear".toList ∧
        (∃ l ∈ t.sys.world.db.ledgerEntries.rows, l.type = .payment ∧
          ∃ e ∈ t.sys.world.db.paymentEvents.rows, e.id = l.eventId ∧ e.payerAddress = payer) ∧
        ∀ i ∈ t.sys.world.db.invoices.rows, i.status = .paid)
      beforeScreening (pays ++ [.screen 0 payer, .get 0]) (by decide +kernel)
  exact ⟨t, hrun, hclear, hcredit, hpaid⟩

theorem highRisk_of_answers95 {address : String} (payload : Option Json)
    (h : answers95 address payload = true) : HighRisk payload := by
  unfold answers95 at h
  cases hrisk : riskOf payload with
  | none =>
    rw [hrisk] at h
    cases h
  | some risk =>
    rw [hrisk] at h
    obtain rfl : risk = .finite 95 := of_decide_eq_true h
    exact ⟨_, hrisk, by decide +kernel⟩

/-- The API screens the payer first. The payment is logged as blocked. -/
theorem never_cleared_screenedFirst : ∃ t,
    (shared screeningEnv withKey answers95 1 1 1).run beforeScreening
      (screens ++ (.deliver 0 (fullPayment "token_happy_001") :: execs 4).map .system) = some t ∧
    t.screens 0 = .returned payer "blocked".toList ∧
    (∃ e ∈ t.sys.world.db.paymentEvents, e.ofacResult = "blocked") ∧
    OtherCredits payer t.sys.world.db := by
  obtain ⟨t, hrun, hblocked, hevent⟩ :=
    (shared screeningEnv withKey answers95 1 1 1).exists_of_leadsTo
      (fun t => t.screens 0 = .returned payer "blocked".toList ∧
        ∃ e ∈ t.sys.world.db.paymentEvents.rows, e.ofacResult = "blocked")
      beforeScreening
      (screens ++ (.deliver 0 (fullPayment "token_happy_001") :: execs 4).map .system)
      (by decide +kernel)
  have hstart : Start payer beforeScreening :=
    ⟨⟨fun _ => rfl, fun _ => rfl⟩, fun _ => rfl, rfl, nofun⟩
  exact ⟨t, hrun, hblocked, hevent,
    (never_cleared (by decide) highRisk_of_answers95 hstart (by decide +kernel) hrun).2.2⟩

end Stargate.Compliance
