import Stargate.Idempotency.InvoiceKeys

/-!
# An idempotency key with another body

The hash of the body is saved with the response, after the invoice was committed, and the
lookup of an invoice by its key compares no bodies.

- `hasHash`: an invoice was made from a body with a hash;
- `findsOther`: a call is about to find an invoice that was made from another body;
- `conflicts_iff`: the runs without such a step are those in which no call returns an
  invoice of another body;
- `other_body_returned`: a call that crashes before it saves its response is enough.
-/

namespace Stargate.CreateCalls

open Base Invoices

section

variable {env : CreateEnv} {others : List Call} {i : Input} {w w' : World} {c c' : Call}
  {merchantId id : Uuid} {key hash : String} {n : Nat}

/-! ## The body of an invoice -/

/-- The body that an invoice was made from. -/
def bodyOf (w : World) (id : Uuid) : Option CreateInput :=
  (w.made.reverse.find? fun p => p.1 == id).map Prod.snd

/-- The body, if it is known, has the hash. -/
def hasHash (env : CreateEnv) (w : World) (id : Uuid) (hash : String) : Bool :=
  (bodyOf w id).all fun body => env.hashBody body == hash

theorem bodyOf_self {db : Db} {body : CreateInput} :
    bodyOf { w with db, made := w.made ++ [(id, body)] } id = some body := by
  simp [bodyOf]

theorem bodyOf_ne {db : Db} {body : CreateInput} {id' : Uuid} (h : id' ≠ id) :
    bodyOf { w with db, made := w.made ++ [(id', body)] } id = bodyOf w id := by
  simp [bodyOf, h]

/-- A stored invoice was made from a body with the hash. -/
def Made (env : CreateEnv) (w : World) (id : Uuid) (hash : String) : Prop :=
  (∃ r ∈ w.db.invoices, r.id = id) ∧ hasHash env w id hash = true

theorem Made.kept (h : Made env w id hash) (hkept : Kept w.db w'.db)
    (hbody : bodyOf w' id = bodyOf w id) : Made env w' id hash := by
  obtain ⟨⟨r, hr, hid⟩, hhash⟩ := h
  obtain ⟨r', hr', hkey⟩ := hkept r hr
  refine ⟨⟨r', hr', (Prod.mk.inj hkey).1.trans hid⟩, ?_⟩
  rw [hasHash, hbody]
  exact hhash

/-- An id is used once. -/
theorem ne_of_not_conflict {r r' : Invoice} (h : ¬ Keyed.Conflict r r') : r.id ≠ r'.id :=
  fun hid => h (.inl hid)

theorem Made.moves (h : Made env w id hash) (hmoves : Moves env others i w c w' c') :
    Made env w' id hash := by
  refine h.kept (moves_keeps hmoves).1 ?_
  obtain ⟨r₀, hr₀, hid₀⟩ := h.1
  cases hmoves with
  | inserted hrow _ hins =>
    refine bodyOf_ne ?_
    have hne := ne_of_not_conflict ((Table.insert?_eq_some.mp hins).1 r₀ hr₀)
    rw [(key_of_rowOf hrow).1, hid₀] at hne
    exact hne.symm
  | @pended _ _ _ _ tx _ _ _ r hrow _ hown =>
    refine bodyOf_ne ?_
    have hne : r₀.id ≠ r.id := by
      refine ne_of_not_conflict fun hconflict => ?_
      have hclash : clashes (w.db.invoices.rows ++ tx.rows.map Prod.snd) r = true :=
        List.any_eq_true.mpr ⟨r₀, List.mem_append_left _ hr₀, decide_eq_true hconflict⟩
      exact Bool.noConfusion (hclash.symm.trans hown)
    rw [(key_of_rowOf hrow).1, hid₀] at hne
    exact hne.symm
  | _ => rfl

theorem Made.request (h : Made env w id hash) {r : Request} {db : Db}
    (hr : r.exec w.db = some db) : Made env { w with db } id hash :=
  h.kept (request_keeps hr).1 rfl

/-! ## The responses of a key -/

/-- A call is about to find an invoice under the key that was made from another body. -/
def findsOther (env : CreateEnv) (merchantId : Uuid) (key : String) (w : World) : Call → Bool
  | .running args none (.findByKey k) =>
    args.merchantId == merchantId && k == key && w.db.invoices.rows.any fun r =>
      r.merchantId == merchantId && r.idempotencyKey == some key &&
        !hasHash env w r.id (env.hashBody args.input)
  | _ => false

theorem findByKey_of_mem {db : Db} {r : Invoice} (hr : r ∈ db.invoices)
    (hm : r.merchantId = merchantId) (hk : r.idempotencyKey = some key) :
    findByKey db merchantId key = some r := by
  have hp : (r.merchantId == merchantId && r.idempotencyKey == some key) = true := by
    rw [hm, hk, beq_self_eq_true, beq_self_eq_true, Bool.and_self]
  cases hfind : findByKey db merchantId key with
  | none => exact absurd hp (List.find?_eq_none.mp hfind r hr)
  | some r' =>
    obtain ⟨hr', hp'⟩ := Table.find?_some hfind
    simp only [Bool.and_eq_true, beq_iff_eq] at hp'
    have heq : r' = r := Table.eq_of_conflict hr' hr (same_key_conflict (hp'.1.trans hm.symm)
      (hp'.2.trans hk.symm) (hp'.2 ▸ Option.some_ne_none key))
    exact congrArg some heq

/-- Of a key, the lookup finds the one invoice. -/
theorem findsOther_eq_true : findsOther env merchantId key w c = true ↔
    ∃ args r, c = .running args none (.findByKey key) ∧ args.merchantId = merchantId ∧
      findByKey w.db merchantId key = some r ∧
      hasHash env w r.id (env.hashBody args.input) = false := by
  constructor
  · intro h
    unfold findsOther at h
    split at h
    · next args k =>
      simp only [Bool.and_eq_true, beq_iff_eq, List.any_eq_true, Bool.not_eq_true'] at h
      obtain ⟨⟨hm, rfl⟩, r, hr, ⟨hrm, hrk⟩, hother⟩ := h
      exact ⟨args, r, rfl, hm, findByKey_of_mem hr hrm hrk, hother⟩
    · cases h
  · rintro ⟨args, r, rfl, rfl, hfind, hother⟩
    obtain ⟨hr, hp⟩ := Table.find?_some hfind
    simp only [findsOther, beq_self_eq_true, Bool.true_and]
    refine List.any_eq_true.mpr ⟨r, hr, ?_⟩
    rw [hp, hother]
    rfl

/-- The next statement runs. -/
def Input.runs : Input → Bool
  | .exec _ _ => true
  | _ => false

/-- No call finds an invoice that was made from another body. -/
def sameBody (env : CreateEnv) (merchantId : Uuid) (key : String) :
    Program.Guard World Call Input Request where
  call _ i w c := (i.runs && findsOther env merchantId key w c) = false
  env _ _ _ := True

instance decidableSameBody (env : CreateEnv) (merchantId : Uuid) (key : String) :
    ∀ cs i w c, Decidable ((sameBody env merchantId key).call cs i w c) :=
  fun _ i w c => inferInstanceAs (Decidable ((i.runs && findsOther env merchantId key w c) = false))

instance decidableSameBodyEnv (env : CreateEnv) (merchantId : Uuid) (key : String) :
    ∀ cs r w, Decidable ((sameBody env merchantId key).env cs r w) :=
  fun _ _ _ => inferInstanceAs (Decidable True)

/-- The saved response of the key is for its hash. -/
def SavedMade (env : CreateEnv) (merchantId : Uuid) (key : String) (w : World) : Prop :=
  ∀ row, Idempotency.find w.db merchantId key = some row → ∀ r, row.responseBody = .invoice r →
    Made env w r.id row.requestHash

/-- So is the response of a call, from its `INSERT` on. -/
def CallMade (env : CreateEnv) (merchantId : Uuid) (key : String) (w : World) : Call → Prop
  | .running args _ (.checkKey k) => args.key? = some k
  | .running args _ (.findByKey k) => args.key? = some k
  | .running args _ (.saveKey k r) => args.key? = some k ∧
    (args.merchantId = merchantId → args.key = some key →
      Made env w r.id (env.hashBody args.input))
  | .returned args (.invoice r) => args.merchantId = merchantId → args.key = some key →
    Made env w r.id (env.hashBody args.input)
  | _ => True

/-- What was made from a body stays that. -/
def Stays (env : CreateEnv) (w w' : World) : Prop :=
  ∀ id hash, Made env w id hash → Made env w' id hash

theorem CallMade.stays (h : CallMade env merchantId key w c) (hstays : Stays env w w') :
    CallMade env merchantId key w' c := by
  cases c with
  | running args tx pc =>
    cases pc with
    | saveKey k r => exact ⟨h.1, fun hm hk => hstays _ _ (h.2 hm hk)⟩
    | _ => exact h
  | returned args response =>
    cases response with
    | invoice r => exact fun hm hk => hstays _ _ (h hm hk)
    | dispute d => trivial
  | _ => trivial

theorem SavedMade.stays (h : SavedMade env merchantId key w) (hstays : Stays env w w')
    (hfind : Idempotency.find w'.db merchantId key = Idempotency.find w.db merchantId key) :
    SavedMade env merchantId key w' := by
  intro row hrow r hr
  rw [hfind] at hrow
  exact hstays _ _ (h row hrow r hr)

theorem callMade_of_entered {args : Args} {tx : Option Tx} (h : Entered args tx c) :
    CallMade env merchantId key w c := by
  cases h with
  | keyed hkey => exact hkey
  | plain _ _ => trivial
  | threw => trivial

theorem callMade_nextInput {tx : Tx} {m : Uuid} :
    CallMade env merchantId key w (nextInput m tx) :=
  nextInput_of m tx trivial fun _ _ _ => callMade_of_entered

theorem callMade_finish {args : Args} {tx : Option Tx} {response : Response}
    (h : ∀ r, tx = none → response = .invoice r → args.merchantId = merchantId →
      args.key = some key → Made env w r.id (env.hashBody args.input)) :
    CallMade env merchantId key w (finish args tx response) := by
  cases tx with
  | none =>
    cases response with
    | invoice r => exact h r rfl rfl
    | dispute d => trivial
  | some tx => exact callMade_nextInput

/-- **A statement of a call** answers with an invoice of its body. -/
theorem made_leads {now : Timestamp} {args : Args} {tx : Option Tx} {pc : Pc} {next : Next}
    {db : Db} (h : Leads env now args w.db pc next db)
    (hsame : findsOther env merchantId key w (.running args tx pc) = false)
    (hstays : Stays env w { w with db, numbers := w.numbers ++ next.numbers })
    (hw : SavedMade env merchantId key w)
    (hc : CallMade env merchantId key w (.running args tx pc)) :
    SavedMade env merchantId key { w with db, numbers := w.numbers ++ next.numbers } ∧
      CallMade env merchantId key { w with db, numbers := w.numbers ++ next.numbers }
        (next.call args tx) := by
  constructor
  · rcases (leads_cases h).2 with hkeys | ⟨k, r, rfl, rfl⟩
    · refine hw.stays hstays ?_
      rw [Idempotency.find, hkeys]
      rfl
    · intro row hfind r' hr'
      rcases find_of_save hfind with hfind | ⟨hm, hk, rfl⟩
      · exact hstays _ _ (hw row hfind r' hr')
      · cases hr'
        subst hk
        exact hstays _ _ (hc.2 hm (key_of_key? hc.1))
  · cases h with
    | replayed hcheck =>
      refine callMade_finish fun r _ hr hm hk => ?_
      obtain ⟨row, hfind, hresponse, hhash⟩ := find_of_check hcheck
      cases hk.symm.trans (key_of_key? hc)
      subst hm
      exact hhash ▸ hstays _ _ (hw row hfind r (hresponse.trans hr))
    | unused hcheck => exact hc
    | @found k r hfind =>
      refine callMade_finish fun r' htx hr' hm hk => hstays _ _ ?_
      cases hr'
      cases hk.symm.trans (key_of_key? hc)
      subst hm
      subst htx
      refine ⟨⟨r, (Table.find?_some hfind).1, rfl⟩, ?_⟩
      by_contra hother
      have hfinds := findsOther_eq_true.mpr ⟨args, r, rfl, rfl, hfind, by simpa using hother⟩
      exact Bool.noConfusion (hsame.symm.trans hfinds)
    | @saved k r =>
      refine callMade_finish fun r' _ hr' hm hk => ?_
      cases hr'
      exact hstays _ _ (hc.2 hm hk)
    | _ => trivial

/-- **A step of a call** answers with an invoice of its body. -/
theorem made_moves (h : Moves env others i w c w' c')
    (hsame : (sameBody env merchantId key).call others i w c)
    (hw : SavedMade env merchantId key w) (hc : CallMade env merchantId key w c) :
    SavedMade env merchantId key w' ∧ CallMade env merchantId key w' c' := by
  have hstays : Stays env w w' := fun _ _ hmade => hmade.moves h
  cases h with
  | started _ => exact ⟨hw, callMade_of_entered (entered_enter _ _)⟩
  | startedBulk _ => exact ⟨hw, callMade_nextInput⟩
  | stopped hstop =>
    rcases hstop with rfl | ⟨e, rfl⟩
    · exact ⟨hw, trivial⟩
    · exact ⟨hw, trivial⟩
  | ran hleads => exact made_leads hleads hsame hstays hw hc
  | @inserted now id w args q check muxedId r invoices hrow hfree hins =>
    refine ⟨hw.stays hstays rfl, ?_⟩
    obtain ⟨hid, -, -, -⟩ := key_of_rowOf hrow
    have hmade : Made env { w with
        db := { w.db with invoices }
        made := w.made ++ [(id, args.input)] } r.id (env.hashBody args.input) := by
      refine ⟨⟨r, (Table.mem_of_insert? hins r).mpr (.inr rfl), rfl⟩, ?_⟩
      rw [hid, hasHash, bodyOf_self]
      exact beq_self_eq_true _
    split
    · next k hk => exact ⟨hk, fun _ _ => hmade⟩
    · exact fun _ _ => hmade
  | pended _ _ _ => exact ⟨hw.stays hstays rfl, callMade_nextInput⟩
  | committed _ => exact ⟨hw.stays hstays rfl, trivial⟩

/-- **The responses of a key are for their body**, in every guarded run. -/
theorem made_local (env : CreateEnv) (merchantId : Uuid) (key : String) :
    (program env).Local (sameBody env merchantId key) (SavedMade env merchantId key)
      (CallMade env merchantId key) fun _ _ => True where
  symm _ _ _ := trivial
  seq hexec hsame hw hc _ := made_moves (moves_of_exec hexec) hsame hw hc
  free := by
    intro cs i w c w' c' hexec _ _ _ o _ ho _
    exact ⟨ho.stays fun _ _ hmade => hmade.moves (moves_of_exec hexec), trivial⟩
  env := by
    intro cs r w w' henv _ hw hcs
    obtain ⟨db, hdb, rfl⟩ := Option.map_eq_some_iff.mp henv
    have hstays : Stays env w { w with db } := fun _ _ hmade => hmade.request hdb
    refine ⟨hw.stays hstays ?_, fun o ho => (hcs o ho).stays hstays⟩
    cases r with
    | register id name createdAt =>
      obtain ⟨merchants, -, rfl⟩ := Option.map_eq_some_iff.mp hdb
      rfl
    | _ =>
      cases hdb
      rfl

/-! ## Conflicts -/

/-- No call has returned an invoice under the key that was made from a body with another
hash. -/
def Conflicts (env : CreateEnv) (merchantId : Uuid) (key : String)
    (s : Program.Sys World Call n) : Prop :=
  ∀ j args r, s.calls j = .returned args (.invoice r) → args.merchantId = merchantId →
    args.key = some key → hasHash env s.db r.id (env.hashBody args.input) = true

/-- A call that finds an invoice of another body returns it. -/
theorem not_conflicts {s s' : Program.Sys World Call n} {a : Program.Label Input Request n}
    (hcalls : ∀ k, CallMade env merchantId key s.db (s.calls k))
    (hother : ¬ (sameBody env merchantId key).admits s a)
    (hstep : ((program env).interleave n).step s a = some s') :
    ¬ Conflicts env merchantId key s' := by
  cases a with
  | env r => exact absurd trivial hother
  | call k i =>
    have hcall : (i.runs && findsOther env merchantId key s.db (s.calls k)) = true :=
      (Bool.not_eq_false _).mp hother
    obtain ⟨hruns, hfinds⟩ := Bool.and_eq_true_iff.mp hcall
    obtain ⟨args, r, hpc, hm, hfind, hhash⟩ := findsOther_eq_true.mp hfinds
    cases i with
    | exec now id =>
      obtain ⟨w, c, hexec, rfl⟩ := (program env).step_call.mp hstep
      have hc := hcalls k
      rw [hpc] at hexec hc
      have hkey : args.key = some key := key_of_key? hc
      subst hm
      simp only [program, Pc.run, Pc.exec, hfind, Next.call, finish, Option.some.injEq,
        Prod.mk.injEq] at hexec
      obtain ⟨rfl, rfl⟩ := hexec
      intro h
      have hself := h k args r (Function.update_self _ _ _) rfl hkey
      exact Bool.noConfusion (hself.symm.trans hhash)
    | _ => cases hruns

/-- **With another body, a key is a conflict**, in every state of exactly those runs in which
no call looks the invoice of the key up while that was made from another body. -/
theorem conflicts_iff {db : Db} {t : Program.Sys World Call n}
    {as : List (Program.Label Input Request n)}
    (hunused : Idempotency.find db merchantId key = none)
    (hrun : ((program env).interleave n).run (idle db n) as = some t) :
    ((program env).interleave n).Guarded (sameBody env merchantId key).admits (idle db n) as ↔
      ∀ bs cs u, as = bs ++ cs → ((program env).interleave n).run (idle db n) bs = some u →
        Conflicts env merchantId key u := by
  refine ((program env).interleave n).guarded_iff
    (I := Program.Inv (SavedMade env merchantId key) (CallMade env merchantId key)
      fun _ _ => True) ?_ ?_ ?_ ?_ hrun
  · intro s a s' hinv hsame hstep
    exact (made_local env merchantId key).inv_step hinv hsame hstep
  · intro s hinv j args r hj hm hk
    have hc := hinv.calls j
    rw [hj] at hc
    exact (hc hm hk).2
  · intro s a s' hinv hother hstep
    exact not_conflicts hinv.calls hother hstep
  · refine ⟨fun row hfind => ?_, fun _ => trivial, fun _ _ _ => trivial⟩
    cases hunused.symm.trans hfind

end

/-! ## A call that crashes before it saves its response -/

/-- A hash that depends on the amount of the body. -/
def hashEnv : CreateEnv := { testEnv with
  hashBody := fun input => match input.amountUsdc with
    | some (.text amount) => amount
    | _ => "" }

/-- Merchant 1 asks for an invoice of 20 USDC under the key `"k"`. -/
def otherArgs : Args := ⟨1, { tenUsdc with amountUsdc := some (.text "20") }, some "k"⟩

/-- A response for 10 USDC is saved, and the key is used for 20 USDC. -/
def usedTwice : List (Program.Label Input Request 2) :=
  .call 0 (.create keyedArgs) :: statements 0 7 11 ++ .call 1 (.create otherArgs) :: statements 1 8 1

/-- Has the second call failed with a conflict? -/
def isConflict (s : Program.Sys World Call 2) : Bool :=
  s.calls 1 == .threw (.conflict "Idempotency key already used with a different request body")

theorem conflicts_iff_usedTwice : ∃ t,
    ((program hashEnv).interleave 2).run (idle testDb 2) usedTwice = some t ∧
    isConflict t = true ∧ Conflicts hashEnv 1 "k" t := by
  obtain ⟨t, hrun, hconflict⟩ := Lts.exists_of_leadsTo _ (fun s => isConflict s = true)
    (idle testDb 2) usedTwice
    (show ((program hashEnv).interleave 2).leadsTo _ _ _ = true by decide +kernel)
  have hg : ((program hashEnv).interleave 2).Guarded (sameBody hashEnv 1 "k").admits
      (idle testDb 2) usedTwice := by decide +kernel
  exact ⟨t, hrun, hconflict,
    (conflicts_iff rfl hrun).mp hg usedTwice [] t (List.append_nil _).symm hrun⟩

/-- The first call crashes after its `INSERT`; the second one has another body. -/
def crashedAndReused : List (Program.Label Input Request 2) :=
  .call 0 (.create keyedArgs) :: statements 0 7 10 ++
    .call 0 .crash :: .call 1 (.create otherArgs) :: statements 1 8 2

/-- Has the second call returned an invoice of another body? -/
def returnedOther (s : Program.Sys World Call 2) : Bool :=
  match s.calls 1 with
  | .returned args (.invoice r) =>
    args == otherArgs && !hasHash hashEnv s.db r.id (hashEnv.hashBody args.input)
  | _ => false

/-- **The invoice of 10 USDC is returned for 20 USDC.** -/
theorem other_body_returned : Idempotency.find testDb 1 "k" = none ∧ ∃ t,
    ((program hashEnv).interleave 2).run (idle testDb 2) crashedAndReused = some t ∧
    ¬ Conflicts hashEnv 1 "k" t := by
  refine ⟨rfl, ?_⟩
  obtain ⟨t, hrun, hreturned⟩ := Lts.exists_of_leadsTo _ (fun s => returnedOther s = true)
    (idle testDb 2) crashedAndReused
    (show ((program hashEnv).interleave 2).leadsTo _ _ _ = true by decide +kernel)
  refine ⟨t, hrun, fun h => ?_⟩
  unfold returnedOther at hreturned
  split at hreturned
  · next args r hcall =>
    simp only [Bool.and_eq_true, beq_iff_eq, Bool.not_eq_true'] at hreturned
    obtain ⟨rfl, hother⟩ := hreturned
    exact absurd ((h 1 otherArgs r hcall rfl rfl).symm.trans hother) nofun
  · cases hreturned

end Stargate.CreateCalls
