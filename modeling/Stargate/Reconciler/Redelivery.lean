import Stargate.Reconciler.System

/-!
# A payment that is reported as processed is credited

`process_payment` writes the event of a payment outside the ledger transaction. A
call that fails or crashes after its event and before the `COMMIT` loses the
credit: the payment is delivered again, and fails at `event_exists` each time. But
a call that returns `Ok` has left a ledger row and a paid invoice, however often
calls fail before it (`credited_of_guarded_run`).

The invariant is `Progress`: the payment is untouched, or in flight between its
event and the `COMMIT`, or stuck on its event, or credited.
-/

namespace Stargate.Reconciler

open Base Invoices

/-- The sender passes screening. -/
def NotBlocked (ofac : OfacResult) : Prop := ofac.result ≠ "blocked"

/-- The payment is credited: a ledger row refers to its event, and the invoice is
paid. -/
def Credited (db : Db) (payment : HorizonPayment) (id : Uuid) : Prop :=
  (∃ eventId, EventOf db payment eventId ∧ ∃ l ∈ db.ledgerEntries, l.eventId = eventId) ∧
    PaidIn db id

/-! ## Conditions on runs -/

section Conditions

variable {m : Nat} (env : Env) (payment : HorizonPayment)

/-- A statement of a call on the payment. -/
def ownStep (s : Sys 1 m) : Label 1 m → Bool
  | .exec k _ =>
    match s.calls k with
    | .running q _ => decide (q = payment)
    | _ => false
  | _ => false

/-- What the outside world may do: a paging token belongs to one payment, and
nobody stores a screening result that blocks the sender. -/
def admissible : Label 1 m → Bool
  | .deliver _ q => decide (q.pagingToken = payment.pagingToken → q = payment)
  | .redis key value =>
    key ≠ ofacKey payment.fromAddress ||
      (value.bind env.ofacFromStr).all fun ofac => ofac.result ≠ "blocked"
  | _ => true

/-- The step leaves alone what the payment matches. -/
def sameMatch (s : Sys 1 m) (a : Label 1 m) : Bool :=
  match (system env 1 m).step s a with
  | some s' => decide (matchInvoice s'.world.db payment = matchInvoice s.world.db payment)
  | none => true

/-- Nothing but calls on the payment itself touches its invoice. -/
def undisturbed (s : Sys 1 m) (a : Label 1 m) : Bool :=
  admissible env payment a && (ownStep payment s a || sameMatch env payment s a)

end Conditions

/-! ## The invariant -/

/-- A call on the payment that is on its way to credit `row`. -/
def OnTrack (env : Env) (payment : HorizonPayment) (row : InvoiceRow) (db : Db) (pc : Pc) : Prop :=
  Knows env NotBlocked db payment pc ∧ (pc.phase = .searching ∨ pc.phase = .matched row)

/-- How far the payment has come. -/
inductive Progress {m : Nat} (env : Env) (payment : HorizonPayment) (row : InvoiceRow)
    (s : Sys 1 m) : Prop
  | untouched (hnone : hasEvent s.world.db payment.pagingToken = false)
      (hmatch : matchInvoice s.world.db payment = some row)
      (hcall : ∀ pc, s.calls 0 = .running payment pc → OnTrack env payment row s.world.db pc)
      (hret : s.calls 0 ≠ .returned payment true)
  | inFlight {eventId : Nat} {pc : Pc} (hevent : EventOf s.world.db payment eventId)
      (hmatch : matchInvoice s.world.db payment = some row)
      (hcall : s.calls 0 = .running payment pc)
      (hphase : pc.phase = .recorded row eventId ∨ ∃ c updated, pc.phase = .crediting c updated ∧
        c.inv = row ∧ c.eventId = eventId ∧ updated ≠ some false)
  /-- The event is written and nothing is credited: calls can only fail. -/
  | stuck (hevent : hasEvent s.world.db payment.pagingToken = true)
      (hcall : ∀ pc, s.calls 0 = .running payment pc → pc = .eventExists)
      (hret : s.calls 0 ≠ .returned payment true)
  | credited (h : Credited s.world.db payment row.id)

/-- The invariant of a run. -/
structure RedeliveryInv {m : Nat} (env : Env) (payment : HorizonPayment) (row : InvoiceRow)
    (s : Sys 1 m) : Prop where
  sound : s.Sound
  tokens : ∀ q pc, s.calls 0 = .running q pc → q.pagingToken = payment.pagingToken → q = payment
  screens : ScreensAs env s.world.redis payment.fromAddress NotBlocked
  fresh : ∀ q ofac, s.calls 0 = .running q (.screenSet ofac) → ofac = freshOfac env.config
  progress : Progress env payment row s

section Steps

variable {m : Nat} {env : Env} {payment : HorizonPayment} {row : InvoiceRow}

/-- A call on track stays on track, or fails, or records the event. -/
theorem onTrack_exec {now : Timestamp} {locked : Uuid → Bool} {w w' : World} {pc : Pc}
    {next : Next} (haccepted : isAcceptedAsset payment env.config = true)
    (hmatch : matchInvoice w.db payment = some row)
    (hamount : env.decimalFromStr payment.amount = some row.grossUsdc.value)
    (hscreens : ScreensAs env w.redis payment.fromAddress NotBlocked)
    (h : OnTrack env payment row w.db pc)
    (hexec : exec env now locked w payment pc = some (w', next)) :
    (w'.db = w.db ∧ (next = .ret false ∨
      ∃ pc', next = .goto pc' ∧ OnTrack env payment row w.db pc')) ∨
    ∃ pc' eventId, next = .goto pc' ∧ pc'.phase = .recorded row eventId ∧
      EventOf w'.db payment eventId ∧ w'.db.invoices = w.db.invoices := by
  obtain ⟨hknows, hphase⟩ := h
  have hnext := knows_exec (fun _ => rfl) (fun _ => hscreens) hknows hexec
  have hstep := exec_phaseStep hexec
  generalize hn : next.phase = ph' at hstep
  -- what the call knows rules out that it logs the payment
  have hlog : ph' ≠ .logging := by
    rintro rfl
    cases next with
    | ret ok => cases hn
    | goto pc' =>
      obtain ⟨ofac, hV, hb | hne⟩ := (Knows.logging hnext hn).2
      · exact hV hb
      · exact hne row hmatch hamount
  have hgoto : ∀ ph, next.phase = ph → ph = .searching ∨ ph = .matched row →
      ∃ pc', next = .goto pc' ∧ OnTrack env payment row w.db pc' := by
    intro ph hph hon
    cases next with
    | ret ok =>
      rcases hon with rfl | rfl <;> cases hph
    | goto pc' =>
      refine ⟨pc', rfl, hnext, ?_⟩
      rcases hon with rfl | rfl
      · exact .inl hph
      · exact .inr hph
  rcases hphase with hph | hph <;> rw [hph] at hstep <;> cases hstep
  case inl.look hdb => exact .inl ⟨hdb, .inr (hgoto _ hn (.inl rfl))⟩
  case inl.reject hdb => exact absurd rfl hlog
  case inl.skip _ hskip =>
    rw [haccepted] at hskip
    cases hskip
  case inl.found i hi hp =>
    have hdue : Due env NotBlocked w.db payment (.of i) := hnext.due (by rw [hn]; rfl)
    have hrow : InvoiceRow.of i = row := Option.some.inj (hdue.matched.symm.trans hmatch)
    exact .inl ⟨rfl, .inr (hgoto _ hn (.inr (congrArg Phase.matched hrow)))⟩
  case inr.record ofacResult db eventId hins =>
    cases next with
    | ret ok => cases hn
    | goto pc' =>
      obtain ⟨-, e, heid, htok, -, hmem, -⟩ := insertPaymentEvent_some hins
      exact .inr ⟨pc', eventId, rfl, hn, ⟨e, (hmem e).mpr (.inr rfl), heid, htok⟩,
        (insertPaymentEvent_same hins).1⟩
  all_goals exact .inl ⟨rfl, .inl (Next.eq_ret hn)⟩

/-- A call in the window goes on to its `COMMIT`, which credits the payment: the
invoice is still there to be paid. -/
theorem inFlight_exec {now : Timestamp} {locked : Uuid → Bool} {w w' : World} {pc : Pc}
    {next : Next} {eventId : Nat} (hevent : EventOf w.db payment eventId)
    (hmatch : matchInvoice w.db payment = some row)
    (hphase : pc.phase = .recorded row eventId ∨ ∃ c updated, pc.phase = .crediting c updated ∧
      c.inv = row ∧ c.eventId = eventId ∧ updated ≠ some false)
    (hexec : exec env now locked w payment pc = some (w', next)) :
    (w' = w ∧ ∃ pc', next = .goto pc' ∧ ∃ c updated, pc'.phase = .crediting c updated ∧
      c.inv = row ∧ c.eventId = eventId ∧ updated ≠ some false) ∨
    Credited w'.db payment row.id := by
  obtain ⟨i, hi, hid, hp⟩ := pending_of_match hmatch
  have hstep := exec_phaseStep hexec
  generalize hn : next.phase = ph' at hstep
  have hgoto : ∀ c updated, next.phase = .crediting c updated →
      ∃ pc', next = .goto pc' ∧ pc'.phase = .crediting c updated := by
    intro c updated h
    cases next with
    | ret ok => cases h
    | goto pc' => exact ⟨pc', rfl, h⟩
  rcases hphase with hph | ⟨c, updated, hph, rfl, rfl, hne⟩ <;> rw [hph] at hstep <;> cases hstep
  case inl.begin =>
    obtain ⟨pc', rfl, hpc'⟩ := hgoto _ _ hn
    exact .inl ⟨rfl, pc', rfl, _, _, hpc', rfl, rfl, by simp⟩
  case inl.fail hph =>
    rcases hph with hph | ⟨inv, hph⟩ <;> cases hph
  case inr.write =>
    obtain ⟨pc', rfl, hpc'⟩ := hgoto _ _ hn
    exact .inl ⟨rfl, pc', rfl, _, _, hpc', rfl, rfl, hne⟩
  case inr.lock =>
    obtain ⟨pc', rfl, hpc'⟩ := hgoto _ _ hn
    exact .inl ⟨rfl, pc', rfl, _, _, hpc', rfl, rfl, by simp⟩
  case inr.miss hmiss => exact absurd hp (hmiss i hi hid)
  case inr.commit updated hooks =>
    have hupdated : updated = true := by
      cases updated
      · exact absurd rfl hne
      · rfl
    subst hupdated
    obtain ⟨e, he, heid, htok⟩ := hevent
    refine .inr ⟨⟨c.eventId, ⟨e, he, heid, htok⟩, _, mem_ledger_commitCredit.mpr (.inr rfl), rfl⟩,
      _, mem_invoices_commitCredit.mpr ⟨i, hi, rfl⟩, ?_⟩
    rw [if_pos ⟨rfl, hid⟩]
    exact ⟨hid, rfl⟩
  case inr.fail hph =>
    rcases hph with hph | ⟨inv, hph⟩ <;> cases hph

/-- The event of a payment stays. -/
theorem hasEvent_step {s s' : Sys 1 m} {a : Label 1 m} (heffect : Effect env s s' a)
    {token : String} (h : hasEvent s.world.db token = true) :
    hasEvent s'.world.db token = true := by
  obtain ⟨e, he, htok⟩ := hasEvent_iff.mp h
  exact hasEvent_iff.mpr ⟨e, heffect.grows.2 e he, htok⟩

theorem EventOf.hasEvent {db : Db} {eventId : Nat} (h : EventOf db payment eventId) :
    hasEvent db payment.pagingToken = true := by
  obtain ⟨e, he, -, htok⟩ := h
  exact hasEvent_iff.mpr ⟨e, he, htok⟩

/-- A credited payment stays credited. -/
theorem Credited.step {s s' : Sys 1 m} {a : Label 1 m} {id : Uuid}
    (h : Credited s.world.db payment id) (heffect : Effect env s s' a) :
    Credited s'.world.db payment id := by
  obtain ⟨⟨eventId, ⟨e, he, heid, htok⟩, l, hl, hlid⟩, hpaid⟩ := h
  obtain ⟨hledger, hevents⟩ := heffect.grows
  exact ⟨⟨eventId, ⟨e, hevents e he, heid, htok⟩, l, hledger l hl, hlid⟩, heffect.paid hpaid⟩

/-- Steps of the API leave a call on the payment what it knows, if the payment
has the same match before and after. -/
theorem OnTrack.api {s s' : Sys 1 m} {a : Label 1 m} {pc : Pc}
    (h : OnTrack env payment row s.world.db pc)
    (heffect : Effect env s s' a) (hexec : ∀ k now, a ≠ .exec k now)
    (hmatch : matchInvoice s.world.db payment = some row)
    (hmatch' : matchInvoice s'.world.db payment = some row) :
    OnTrack env payment row s'.world.db pc := by
  refine ⟨h.1.congr (hmatch'.trans hmatch.symm) fun hno => ?_, h.2⟩
  cases heffect with
  | exec k now => exact absurd rfl (hexec k now)
  | deliver k q hidle hw => rwa [hw]
  | abort k hrun hw => rwa [hw]
  | redis key value hdb => rwa [hdb]
  | create hpending hnew hmem hdb =>
    rw [noMuxedHit_iff] at hno ⊢
    intro i hi hp hdec
    rcases (hmem i).mp hi with hi | rfl
    · exact hno i hi hp hdec
    · -- the payment would match the new invoice instead
      obtain ⟨j, hj, hid, -⟩ := pending_of_match hmatch
      have hsel := selectByMuxedId_of_mem ((hmem _).mpr (.inr rfl)) hp
      simp only [matchInvoice, hdec, hsel, Option.ite_none_right_eq_some,
        Option.some.injEq] at hmatch'
      exact hnew j hj (hid.trans (congrArg InvoiceRow.id hmatch'.2).symm)
  | api _ self _ heff =>
    rw [noMuxedHit_iff] at hno ⊢
    intro i hi hp
    obtain ⟨j, hj, rfl | ⟨-, -, hne, -⟩⟩ := heff.origin i hi
    · exact hno _ hj hp
    · exact absurd hp hne

/-- Steps of the API keep the payment's progress. -/
theorem Progress.api {s s' : Sys 1 m} {a : Label 1 m} (h : Progress env payment row s)
    (heffect : Effect env s s' a) (hexec : ∀ k now, a ≠ .exec k now)
    (hmatch : matchInvoice s'.world.db payment = matchInvoice s.world.db payment)
    (hevents : s'.world.db.paymentEvents = s.world.db.paymentEvents)
    (hcalls : s'.calls = s.calls) : Progress env payment row s' := by
  cases h with
  | untouched hnone hm hcall hret =>
    refine .untouched (by rwa [hasEvent, hevents]) (hmatch.trans hm) (fun pc hpc => ?_)
      (by rwa [hcalls])
    rw [hcalls] at hpc
    exact (hcall pc hpc).api heffect hexec hm (hmatch.trans hm)
  | inFlight hevent hm hcall hphase =>
    exact .inFlight (by rwa [EventOf, hevents]) (hmatch.trans hm) (by rwa [hcalls]) hphase
  | stuck hevent hcall hret =>
    exact .stuck (hasEvent_step heffect hevent) (by rwa [hcalls]) (by rwa [hcalls])
  | credited h => exact .credited (h.step heffect)

/-- One statement of a call on the payment. -/
theorem Progress.own {s s' : Sys 1 m} {now : Timestamp} {pc : Pc} {next : Next}
    (h : Progress env payment row s) (haccepted : isAcceptedAsset payment env.config = true)
    (hamount : env.decimalFromStr payment.amount = some row.grossUsdc.value)
    (hscreens : ScreensAs env s.world.redis payment.fromAddress NotBlocked)
    (hrun : s.calls 0 = .running payment pc)
    (hexec : exec env now (s.lockedFor (some (.inl 0))) s.world payment pc = some (s'.world, next))
    (hcalls : s'.calls = Function.update s.calls 0 (next.call payment))
    (heffect : Effect env s s' (.exec 0 now)) : Progress env payment row s' := by
  have hcall : s'.calls 0 = next.call payment := by rw [hcalls, Function.update_self]
  cases h with
  | untouched hnone hm hon hret =>
    rcases onTrack_exec haccepted hm hamount hscreens (hon pc hrun) hexec with
      ⟨hdb, rfl | ⟨pc', rfl, hpc'⟩⟩ | ⟨pc', eventId, rfl, hph, hevent, hinv⟩
    · refine .untouched (hdb ▸ hnone) (hdb ▸ hm) (fun pc' hpc' => ?_) ?_ <;> rw [hcall] at *
      · cases hpc'
      · simp [Next.call]
    · refine .untouched (hdb ▸ hnone) (hdb ▸ hm) (fun pc'' hpc'' => ?_) ?_ <;> rw [hcall] at *
      · cases hpc''
        exact hdb ▸ hpc'
      · simp [Next.call]
    · exact .inFlight hevent ((matchInvoice_congr hinv).trans hm) hcall (.inl hph)
  | inFlight hevent hm hcall' hphase =>
    rw [hrun] at hcall'
    cases hcall'
    rcases inFlight_exec hevent hm hphase hexec with ⟨hw, pc', rfl, hpc'⟩ | hcredit
    · exact .inFlight (hw ▸ hevent) (hw ▸ hm) hcall (.inr hpc')
    · exact .credited hcredit
  | stuck hevent hon hret =>
    -- the call is at its first statement, which fails
    cases hon pc hrun
    rw [exec_eventExists, if_pos hevent] at hexec
    obtain ⟨-, rfl⟩ := Prod.mk.inj (Option.some.inj hexec)
    refine .stuck (hasEvent_step heffect hevent) (fun pc' hpc' => ?_) ?_ <;> rw [hcall] at *
    · cases hpc'
    · simp [Next.call]
  | credited h => exact .credited (h.step heffect)

/-- One statement of a call on another payment. -/
theorem Progress.other {s s' : Sys 1 m} {now : Timestamp} {q : HorizonPayment} {pc : Pc}
    {next : Next} (h : Progress env payment row s) (hq : q ≠ payment)
    (htok : q.pagingToken ≠ payment.pagingToken)
    (hmatch : matchInvoice s'.world.db payment = matchInvoice s.world.db payment)
    (hrun : s.calls 0 = .running q pc)
    (hexec : exec env now (s.lockedFor (some (.inl 0))) s.world q pc = some (s'.world, next))
    (hcalls : s'.calls = Function.update s.calls 0 (next.call q))
    (heffect : Effect env s s' (.exec 0 now)) : Progress env payment row s' := by
  have hcall : s'.calls 0 = next.call q := by rw [hcalls, Function.update_self]
  cases h with
  | untouched hnone hm hon hret =>
    refine .untouched ?_ (hmatch.trans hm) (fun pc' hpc' => ?_) fun hret' => ?_
    · rw [Bool.eq_false_iff] at hnone ⊢
      intro hex
      obtain ⟨e, he, het⟩ := hasEvent_iff.mp hex
      rcases (exec_phaseStep hexec).grows.2.2 e he with he | heq
      · exact hnone (hasEvent_iff.mpr ⟨e, he, het⟩)
      · exact htok (heq.symm.trans het)
    · rw [hcall] at hpc'
      cases next <;> cases hpc'
      exact absurd rfl hq
    · rw [hcall] at hret'
      cases next <;> cases hret'
      exact absurd rfl hq
  | inFlight hevent hm hcall' hphase =>
    rw [hrun] at hcall'
    cases hcall'
    exact absurd rfl hq
  | stuck hevent hon hret =>
    refine .stuck (hasEvent_step heffect hevent) (fun pc' hpc' => ?_) fun hret' => ?_
    · rw [hcall] at hpc'
      cases next <;> cases hpc'
      exact absurd rfl hq
    · rw [hcall] at hret'
      cases next <;> cases hret'
      exact absurd rfl hq
  | credited h => exact .credited (h.step heffect)

/-- One step that does not disturb the payment. -/
theorem redeliveryInv_step {s s' : Sys 1 m} {a : Label 1 m} (hserde : env.CacheRoundTrip)
    (haccepted : isAcceptedAsset payment env.config = true)
    (hamount : env.decimalFromStr payment.amount = some row.grossUsdc.value)
    (h : RedeliveryInv env payment row s)
    (hquiet : undisturbed env payment s a = true)
    (hstep : (system env 1 m).step s a = some s') : RedeliveryInv env payment row s' := by
  rw [undisturbed, Bool.and_eq_true, Bool.or_eq_true] at hquiet
  obtain ⟨hadm, hquiet⟩ := hquiet
  obtain ⟨heffect, hsound⟩ := step_effect h.sound hstep
  have hzero : ∀ k : Fin 1, k = 0 := fun k => Subsingleton.elim k 0
  have hsame : ownStep payment s a = false →
      matchInvoice s'.world.db payment = matchInvoice s.world.db payment := by
    intro hown
    rcases hquiet with hquiet | hquiet
    · rw [hown] at hquiet
      cases hquiet
    · rw [sameMatch, hstep] at hquiet
      exact of_decide_eq_true hquiet
  cases heffect with
  | deliver k q hidle hw hcalls =>
    obtain rfl := hzero k
    have hcall : s'.calls 0 = .running q .eventExists := by rw [hcalls, Function.update_self]
    refine ⟨hsound, fun q' pc hpc htok => ?_, hw ▸ h.screens, fun q' ofac hpc => ?_, ?_⟩
    · rw [hcall] at hpc
      cases hpc
      exact of_decide_eq_true hadm htok
    · rw [hcall] at hpc
      cases hpc
    · cases h.progress with
      | untouched hnone hm hcall' hret =>
        refine .untouched (hw ▸ hnone) (hw ▸ hm) (fun pc hpc => ?_) (by simp [hcall])
        rw [hcall] at hpc
        cases hpc
        exact ⟨trivial, .inl rfl⟩
      | inFlight hevent hm hcall' =>
        rw [hcall'] at hidle
        cases hidle
      | stuck hevent hcall' hret =>
        refine .stuck (hw ▸ hevent) (fun pc hpc => ?_) (by simp [hcall])
        rw [hcall] at hpc
        cases hpc
        rfl
      | credited hc => exact .credited (hw ▸ hc)
  | @exec k now q pc next hrun hexec hcalls =>
    obtain rfl := hzero k
    have hcall : s'.calls 0 = next.call q := by rw [hcalls, Function.update_self]
    have heff : Effect env s s' (.exec 0 now) := .exec 0 now hrun hexec hcalls
    refine ⟨hsound, fun q' pc' hpc' htok => ?_, ?_, fun q' ofac hpc' => ?_, ?_⟩
    · rw [hcall] at hpc'
      cases next <;> cases hpc'
      exact h.tokens q pc hrun htok
    · refine h.screens.exec hserde (fun ofac hpc => ?_) hexec
      have hfresh := h.fresh q ofac (hpc ▸ hrun)
      exact ⟨hfresh, fun _ => hfresh ▸ freshOfac_ne_blocked env.config⟩
    · rw [hcall] at hpc'
      cases next <;> cases hpc'
      exact (exec_goto_screenSet hexec).1
    · by_cases hq : q = payment
      · subst hq
        exact h.progress.own haccepted hamount h.screens hrun hexec hcalls heff
      · have hown : ownStep payment s (.exec 0 now) = false := by simp [ownStep, hrun, hq]
        exact h.progress.other hq (fun htok => hq (h.tokens q pc hrun htok)) (hsame hown) hrun hexec
          hcalls heff
  | @abort k q pc hrun hw hcalls =>
    obtain rfl := hzero k
    have hcall : s'.calls 0 = .returned q false := by rw [hcalls, Function.update_self]
    refine ⟨hsound, fun q' pc' hpc' => ?_, hw ▸ h.screens, fun q' ofac hpc' => ?_, ?_⟩
    · rw [hcall] at hpc'
      cases hpc'
    · rw [hcall] at hpc'
      cases hpc'
    · cases h.progress with
      | untouched hnone hm hcall' hret =>
        refine .untouched (hw ▸ hnone) (hw ▸ hm) (fun pc hpc => ?_) (by simp [hcall])
        rw [hcall] at hpc
        cases hpc
      | inFlight hevent hm hcall' hphase =>
        -- the event is there, the credit is not
        refine .stuck (hw ▸ hevent.hasEvent) (fun pc hpc => ?_) (by simp [hcall])
        rw [hcall] at hpc
        cases hpc
      | stuck hevent hcall' hret =>
        refine .stuck (hw ▸ hevent) (fun pc hpc => ?_) (by simp [hcall])
        rw [hcall] at hpc
        cases hpc
      | credited hc => exact .credited (hw ▸ hc)
  | redis key value hdb hredis hcalls =>
    refine ⟨hsound, by rw [hcalls]; exact h.tokens, ?_, by rw [hcalls]; exact h.fresh, ?_⟩
    · rw [hredis]
      refine h.screens.set fun hkey ofac hof => ?_
      rw [hkey, screenAddress, Redis.get_set_self] at hof
      simp only [admissible, hkey, ne_eq, not_true_eq_false, decide_false, Bool.false_or] at hadm
      cases value with
      | none =>
        cases hof
        exact freshOfac_ne_blocked env.config
      | some cached =>
        simp only [Option.bind_some, hof, Option.all_some, decide_eq_true_eq] at hadm
        exact hadm
    · exact h.progress.api (.redis key value hdb hredis hcalls) (by simp) (hsame rfl)
        (by rw [hdb]) hcalls
  | create hpending hnew hmem hdb hredis hcalls =>
    refine ⟨hsound, by rw [hcalls]; exact h.tokens, by rw [hredis]; exact h.screens,
      by rw [hcalls]; exact h.fresh, ?_⟩
    exact h.progress.api (.create hpending hnew hmem hdb hredis hcalls) (by simp) (hsame rfl)
      (by rw [hdb]) hcalls
  | api hsys self hself heff hredis hcalls =>
    have hown : ownStep payment s a = false := by
      cases a <;> first | rfl | exact absurd rfl (hsys _ _)
    refine ⟨hsound, by rw [hcalls]; exact h.tokens, by rw [hredis]; exact h.screens,
      by rw [hcalls]; exact h.fresh, ?_⟩
    exact h.progress.api (.api hsys self hself heff hredis hcalls) hsys (hsame hown)
      heff.events hcalls

/-- **Processed payments are credited.** One process takes payments in any order
and as often as it likes, its calls may fail at any statement, and the API may do
what leaves the payment's match alone. A call on the payment that returns `Ok`
leaves it credited. -/
theorem credited_of_guarded_run {s t : Sys 1 m} {run : List (Label 1 m)}
    (hserde : env.CacheRoundTrip) (hidle : s.Idle)
    (haccepted : isAcceptedAsset payment env.config = true)
    (hscreens : ScreensAs env s.world.redis payment.fromAddress NotBlocked)
    (hmatch : matchInvoice s.world.db payment = some row)
    (hamount : env.decimalFromStr payment.amount = some (roundDp7 row.grossUsdc))
    (hguard : (system env 1 m).Guarded (fun s a => undisturbed env payment s a = true) s run)
    (hrun : (system env 1 m).run s run = some t)
    (hret : t.calls 0 = .returned payment true) : Credited t.world.db payment row.id := by
  rw [roundDp7_eq] at hamount
  have hcall : s.calls 0 = .idle := hidle.calls 0
  have hpc : ∀ q pc, s.calls 0 ≠ .running q pc := fun q pc h => by
    rw [hcall] at h
    cases h
  have hret' : s.calls 0 ≠ .returned payment true := by simp [hcall]
  have hprogress : Progress env payment row s := by
    cases hevent : hasEvent s.world.db payment.pagingToken with
    | false => exact .untouched hevent hmatch (fun pc h => absurd h (hpc _ _)) hret'
    | true => exact .stuck hevent (fun pc h => absurd h (hpc _ _)) hret'
  have hinit : RedeliveryInv env payment row s :=
    { sound := hidle.sound
      tokens := fun q pc h => absurd h (hpc q pc)
      screens := hscreens
      fresh := fun q ofac h => absurd h (hpc q _)
      progress := hprogress }
  have h := (system env 1 m).inv_of_guarded_run
    (fun _ _ _ => redeliveryInv_step hserde haccepted hamount) hinit hguard hrun
  cases h.progress with
  | untouched _ _ _ hne => exact absurd hret hne
  | inFlight _ _ hrun' =>
    rw [hrun'] at hret
    cases hret
  | stuck _ _ hne => exact absurd hret hne
  | credited hc => exact hc

end Steps

/-- A call on the payment that is aborted before its event, and another one. -/
def redelivered : List (Label 1 1) :=
  .deliver 0 (fullPayment "token_happy_001") :: execs 4 ++
    .abort 0 :: .deliver 0 (fullPayment "token_happy_001") :: execs 12

/-- A call that fails before its event is made good by the next one. -/
theorem credited_of_guarded_run_redelivered :
    ∃ t, (system testEnv 1 1).run onePending redelivered = some t ∧
      Credited t.world.db (fullPayment "token_happy_001") 1 := by
  obtain ⟨t, ht, hret⟩ := (system testEnv 1 1).exists_of_leadsTo
    (fun t => t.calls 0 = .returned (fullPayment "token_happy_001") true)
    onePending redelivered (by decide +kernel)
  have hmatch : matchInvoice onePending.world.db (fullPayment "token_happy_001")
      = some (.of (seedInvoice 1 99099)) := by decide +kernel
  have hscreens : ScreensAs testEnv onePending.world.redis
      (fullPayment "token_happy_001").fromAddress NotBlocked := fun ofac hof => by
    cases hof
    exact freshOfac_ne_blocked testConfig
  exact ⟨t, ht, credited_of_guarded_run testEnv_cacheRoundTrip ⟨fun _ => rfl, fun _ => rfl⟩
    (by decide +kernel) hscreens hmatch (by decide +kernel) (by decide +kernel) ht hret⟩

end Stargate.Reconciler
