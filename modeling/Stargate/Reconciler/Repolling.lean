import Stargate.Base.Sessions
import Stargate.Reconciler.SorobanIndexer

/-!
# Overlapping polls of the Soroban indexer (`index_contract_events`)

The loop over the events of an answer, one statement after the other: the `SELECT` of the token,
a `SELECT` for each topic that may be a muxed id, the `SELECT` of the merchant, the `INSERT`.
Several indexers run side by side, their answers overlap, and any statement may fail.

- `indexers`: a call is in the middle of its page, or waits for the next answer;
- `exec_cases`: what a statement does;
- `Session.Consistent`: the events that a call has passed are stored;
- `idempotent`: one row for each token, no row changed, and after calls that returned `Ok` the
  tokens of all their pages.
-/

namespace Stargate.Soroban

open Base Program

/-! ## The statements -/

/-- What the statements read and write. -/
structure Store where
  db : Db
  stored : Table ContractEvent

/-- The row of an event, once its topics are resolved. -/
def SorobanEvent.rowWith (event : SorobanEvent) (invoiceId merchantId : Option Uuid) :
    ContractEvent where
  contractId := event.contractId
  ledgerSequence := asI64 event.ledger
  pagingToken := event.pagingToken
  txHash := event.txHash
  eventType := event.eventType
  topics := event.topic
  value := event.value
  invoiceId
  merchantId

/-- The next statement for an event. -/
inductive Stage where
  | selectToken
  | selectTopic (muxedId : Int) (topics : List Json)
  | selectMerchant (invoiceId : Uuid)
  | insert (invoiceId merchantId : Option Uuid)

/-- `try_resolve_invoice` up to its next statement. -/
def resolve : List Json → Stage
  | [] => .insert none none
  | .string text :: topics =>
    match parseI64 text with
    | some muxedId => .selectTopic muxedId topics
    | none => resolve topics
  | _ :: topics => resolve topics

/-- Where an indexer stands: between two calls, or at an event of the page of a call, with the
events after it. -/
inductive At where
  | idle
  | event (page : List SorobanEvent) (event : SorobanEvent) (rest : List SorobanEvent)
      (stage : Stage)

/-- An indexer: the pages that its calls have received, and those of the calls that returned
`Ok`. -/
structure Session where
  received : List (List SorobanEvent)
  returned : List (List SorobanEvent)
  pc : At

/-- The loop at its next event, or the `Ok` after it. -/
def Session.loop (c : Session) (page : List SorobanEvent) : List SorobanEvent → Session
  | [] => { c with returned := page :: c.returned, pc := .idle }
  | event :: rest => { c with pc := .event page event rest .selectToken }

inductive Input where
  /-- A call receives its page. -/
  | receive (page : List SorobanEvent)
  | statement
  /-- The statement fails, and the call returns the error. -/
  | fail
  /-- The statement has its effect, and the connection fails after it. -/
  | lost

/-- One statement of a call. The `SELECT` of a token that is stored cannot be decoded, and the
call returns the error. -/
def statement (w : Store) (c : Session) (page : List SorobanEvent) (event : SorobanEvent)
    (rest : List SorobanEvent) : Stage → Store × Session
  | .selectToken =>
    if w.stored.rows.any fun r => r.pagingToken == event.pagingToken then
      (w, { c with pc := .idle })
    else (w, { c with pc := .event page event rest (resolve event.topic) })
  | .selectTopic muxedId topics =>
    match w.db.invoices.find? fun i => i.muxedId == muxedId with
    | some i => (w, { c with pc := .event page event rest (.selectMerchant i.id) })
    | none => (w, { c with pc := .event page event rest (resolve topics) })
  | .selectMerchant invoiceId =>
    let merchantId := (w.db.invoices.find? fun i => i.id == invoiceId).map Invoice.merchantId
    (w, { c with pc := .event page event rest (.insert (some invoiceId) merchantId) })
  | .insert invoiceId merchantId =>
    ({ w with stored := insertIgnore w.stored (event.rowWith invoiceId merchantId) },
      c.loop page rest)

/-- The indexers. What else the platform does to its tables is the environment. -/
def indexers : Program Store Session Input Db where
  exec _ i w c :=
    match c.pc, i with
    | .idle, .receive page =>
      some (w, ({ c with received := page :: c.received } : Session).loop page page)
    | .event page event rest stage, .statement => some (statement w c page event rest stage)
    | .event _ _ _ _, .fail => some (w, { c with pc := .idle })
    | .event page event rest stage, .lost =>
      some ((statement w c page event rest stage).1, { c with pc := .idle })
    | _, _ => none
  env db w := some { w with db }

/-! ## What a statement does -/

section Statement

variable {w w' : Store} {c c' : Session} {page rest : List SorobanEvent} {event : SorobanEvent}
  {stage : Stage} {stored stored' : Table ContractEvent}

/-- The token is stored. -/
def HasToken (stored : Table ContractEvent) (token : String) : Prop :=
  ∃ r ∈ stored, r.pagingToken = token

theorem of_rowWith (event : SorobanEvent) (invoiceId merchantId : Option Uuid) :
    (event.rowWith invoiceId merchantId).Of event where
  contractId := by simp only [SorobanEvent.rowWith]
  ledger := by simp only [SorobanEvent.rowWith]
  pagingToken := by simp only [SorobanEvent.rowWith]
  txHash := by simp only [SorobanEvent.rowWith]
  eventType := by simp only [SorobanEvent.rowWith]
  topics := by simp only [SorobanEvent.rowWith]
  value := by simp only [SorobanEvent.rowWith]

/-- The rows after an `INSERT`: those before it, and perhaps the new one. -/
theorem rows_insertIgnore (stored : Table ContractEvent) (r : ContractEvent) :
    (insertIgnore stored r).rows = stored.rows ∨
      (insertIgnore stored r).rows = stored.rows ++ [r] := by
  unfold insertIgnore
  cases h : stored.insert? r with
  | none => exact .inl rfl
  | some stored' => exact .inr (Table.insert?_eq_some.mp h).2

/-- After an `INSERT` the token is stored, by the new row or by the one that it conflicts with. -/
theorem hasToken_insertIgnore (stored : Table ContractEvent) (r : ContractEvent) :
    HasToken (insertIgnore stored r) r.pagingToken := by
  unfold insertIgnore
  cases h : stored.insert? r with
  | some stored' => exact ⟨r, (Table.mem_of_insert? h r).mpr (.inr rfl), rfl⟩
  | none =>
    unfold Table.insert? at h
    split at h
    · cases h
    · next hclash =>
      push Not at hclash
      obtain ⟨a, ha, hconflict⟩ := hclash
      exact ⟨a, ha, hconflict⟩

theorem HasToken.mono {token : String} (h : HasToken stored token)
    (hle : stored.rows <+: stored'.rows) : HasToken stored' token := by
  obtain ⟨r, hr, htoken⟩ := h
  exact ⟨r, hle.subset hr, htoken⟩

/-- What a step of an indexer does. -/
inductive Effect (w : Store) (c : Session) : Store → Session → Prop
  | receive (page : List SorobanEvent) (hpc : c.pc = .idle) :
    Effect w c w (({ c with received := page :: c.received } : Session).loop page page)
  /-- Another statement for the same event, or an error without a new row. -/
  | quiet {page rest : List SorobanEvent} {event : SorobanEvent} {stage : Stage} {pc : At}
      (hpc : c.pc = .event page event rest stage)
      (hnext : pc = .idle ∨ ∃ stage', pc = .event page event rest stage') :
    Effect w c w { c with pc }
  /-- The row is there: the loop goes on, or the call returns an error. -/
  | insert {page rest : List SorobanEvent} {event : SorobanEvent} {stage : Stage}
      {r : ContractEvent} {c' : Session} (hpc : c.pc = .event page event rest stage)
      (hr : r.Of event) (hnext : c' = c.loop page rest ∨ c' = { c with pc := .idle }) :
    Effect w c { w with stored := insertIgnore w.stored r } c'

theorem effect_statement (hpc : c.pc = .event page event rest stage) :
    Effect w c (statement w c page event rest stage).1 (statement w c page event rest stage).2 ∧
    Effect w c (statement w c page event rest stage).1 { c with pc := .idle } := by
  have herror : Effect w c w { c with pc := .idle } := .quiet hpc (.inl rfl)
  cases stage with
  | selectToken =>
    simp only [statement]
    split
    · exact ⟨herror, herror⟩
    · exact ⟨.quiet hpc (.inr ⟨_, rfl⟩), herror⟩
  | selectTopic muxedId topics =>
    simp only [statement]
    cases w.db.invoices.find? fun i => i.muxedId == muxedId with
    | some i => exact ⟨.quiet hpc (.inr ⟨_, rfl⟩), herror⟩
    | none => exact ⟨.quiet hpc (.inr ⟨_, rfl⟩), herror⟩
  | selectMerchant invoiceId => exact ⟨.quiet hpc (.inr ⟨_, rfl⟩), herror⟩
  | insert invoiceId merchantId =>
    have hof := of_rowWith event invoiceId merchantId
    exact ⟨.insert hpc hof (.inl rfl), .insert hpc hof (.inr rfl)⟩

/-- **The effects of all steps.** -/
theorem exec_cases {cs : List Session} {i : Input}
    (h : indexers.exec cs i w c = some (w', c')) : Effect w c w' c' := by
  simp only [indexers] at h
  split at h
  · next page hpc =>
    cases h
    exact .receive page hpc
  · next page event rest stage hpc =>
    have heq : statement w c page event rest stage = (w', c') := Option.some.inj h
    have heffect := (effect_statement (w := w) hpc).1
    rw [heq] at heffect
    exact heffect
  · next hpc =>
    cases h
    exact .quiet hpc (.inl rfl)
  · next page event rest stage hpc =>
    cases h
    exact (effect_statement hpc).2
  · cases h

/-! ## Every session -/

/-- The events that the calls have passed are stored: those of the pages of calls that returned
`Ok`, and those before the next one of the page at hand. -/
structure Session.Consistent (stored : Table ContractEvent) (c : Session) : Prop where
  returned : ∀ page ∈ c.returned, ∀ e ∈ page, HasToken stored e.pagingToken
  current : ∀ page event rest stage, c.pc = .event page event rest stage →
    page ∈ c.received ∧ ∃ passed, page = passed ++ event :: rest ∧
      ∀ e ∈ passed, HasToken stored e.pagingToken

theorem Session.Consistent.mono (h : c.Consistent stored) (hle : stored.rows <+: stored'.rows) :
    c.Consistent stored' where
  returned page hpage e he := (h.returned page hpage e he).mono hle
  current page event rest stage hpc := by
    obtain ⟨hreceived, passed, hsplit, hstored⟩ := h.current page event rest stage hpc
    exact ⟨hreceived, passed, hsplit, fun e he => (hstored e he).mono hle⟩

/-- The loop may go on where all that it has passed is stored. -/
theorem consistent_loop (passed : List SorobanEvent) (h : c.Consistent stored)
    (hpage : page ∈ c.received) (hsplit : page = passed ++ rest)
    (hpassed : ∀ e ∈ passed, HasToken stored e.pagingToken) :
    (c.loop page rest).Consistent stored := by
  cases rest with
  | nil =>
    rw [List.append_nil] at hsplit
    subst hsplit
    constructor
    · intro page' hpage'
      rcases List.mem_cons.mp hpage' with rfl | hpage'
      · exact hpassed
      · exact h.returned page' hpage'
    · intro _ _ _ _ hpc
      cases hpc
  | cons event rest =>
    constructor
    · exact h.returned
    · intro _ _ _ _ hpc
      cases hpc
      exact ⟨hpage, passed, hsplit, hpassed⟩

/-- The rest of the page, once the event at hand is stored. -/
theorem consistent_next (h : c.Consistent stored) (hpc : c.pc = .event page event rest stage)
    (hle : stored.rows <+: stored'.rows) (htoken : HasToken stored' event.pagingToken) :
    (c.loop page rest).Consistent stored' := by
  obtain ⟨hreceived, passed, hsplit, hpassed⟩ := h.current page event rest stage hpc
  have hsplit' : page = (passed ++ [event]) ++ rest := by
    rw [hsplit, List.append_assoc, List.singleton_append]
  refine consistent_loop _ (h.mono hle) hreceived hsplit' fun e he => ?_
  rcases List.mem_append.mp he with he | he
  · exact (hpassed e he).mono hle
  · rw [List.mem_singleton.mp he]
    exact htoken

theorem consistent_idle (h : c.Consistent stored) :
    ({ c with pc := .idle } : Session).Consistent stored where
  returned := h.returned
  current _ _ _ _ hpc := nomatch hpc

theorem prefix_insertIgnore (stored : Table ContractEvent) (r : ContractEvent) :
    stored.rows <+: (insertIgnore stored r).rows := by
  rcases rows_insertIgnore stored r with h | h
  · exact ⟨[], by rw [List.append_nil, h]⟩
  · exact ⟨[r], h.symm⟩

/-- Rows are only added. -/
theorem Effect.prefix_rows (h : Effect w c w' c') : w.stored.rows <+: w'.stored.rows := by
  cases h with
  | receive page hpc => exact List.prefix_rfl
  | quiet hpc hnext => exact List.prefix_rfl
  | insert hpc hr hnext => exact prefix_insertIgnore _ _

theorem received_loop (c : Session) (page rest : List SorobanEvent) :
    (c.loop page rest).received = c.received := by
  cases rest with
  | nil => rfl
  | cons event rest => rfl

theorem Effect.received (h : Effect w c w' c') : ∀ page ∈ c.received, page ∈ c'.received := by
  intro page hpage
  cases h with
  | receive page' hpc =>
    rw [received_loop]
    exact List.mem_cons_of_mem _ hpage
  | quiet hpc hnext => exact hpage
  | insert hpc hr hnext =>
    rcases hnext with rfl | rfl
    · rwa [received_loop]
    · exact hpage

theorem Effect.consistent (h : Effect w c w' c') (hc : c.Consistent w.stored) :
    c'.Consistent w'.stored := by
  cases h with
  | receive page hpc =>
    refine consistent_loop [] ⟨hc.returned, fun _ _ _ _ hpc' => ?_⟩
      List.mem_cons_self rfl nofun
    exact nomatch hpc.symm.trans hpc'
  | quiet hpc hnext =>
    refine ⟨hc.returned, fun page' event' rest' stage' hpc' => ?_⟩
    rcases hnext with rfl | ⟨stage'', rfl⟩
    · cases hpc'
    · cases hpc'
      exact hc.current _ _ _ _ hpc
  | @insert page rest event stage r _ hpc hr hnext =>
    have hle := prefix_insertIgnore w.stored r
    rcases hnext with rfl | rfl
    · refine consistent_next hc hpc hle ?_
      rw [← hr.pagingToken]
      exact hasToken_insertIgnore _ _
    · exact consistent_idle (hc.mono hle)

/-- A new row is that of an event on a page. -/
theorem Effect.origin (h : Effect w c w' c') (hc : c.Consistent w.stored) {r : ContractEvent}
    (hr : r ∈ w'.stored) : r ∈ w.stored ∨ ∃ page ∈ c'.received, ∃ e ∈ page, r.Of e := by
  have hgrow := h.received
  cases h with
  | receive page hpc => exact .inl hr
  | quiet hpc hnext => exact .inl hr
  | @insert page rest event stage r' _ hpc hof hnext =>
    obtain ⟨hreceived, passed, hsplit, -⟩ := hc.current _ _ _ _ hpc
    have hpage := hgrow page hreceived
    rcases rows_insertIgnore w.stored r' with h | h
    · exact .inl (show r ∈ w.stored.rows from h ▸ hr)
    · have hr : r ∈ (insertIgnore w.stored r').rows := hr
      rw [h, List.mem_append, List.mem_singleton] at hr
      rcases hr with hr | rfl
      · exact .inl hr
      · refine .inr ⟨page, hpage, event, ?_, hof⟩
        rw [hsplit]
        exact List.mem_append_right _ List.mem_cons_self

end Statement

/-! ## Every run -/

section Runs

variable {n : Nat} {s t : Sys Store Session n} {as : List (Label Input Db n)}

/-- What holds after every step from `s` on. -/
structure Inv (s t : Sys Store Session n) : Prop where
  prefix_rows : s.db.stored.rows <+: t.db.stored.rows
  consistent : ∀ k, (t.calls k).Consistent t.db.stored
  origin : ∀ r ∈ t.db.stored, r ∈ s.db.stored ∨
    ∃ k, ∃ page ∈ (t.calls k).received, ∃ e ∈ page, r.Of e

theorem inv_step {u v : Sys Store Session n} {a : Label Input Db n} (h : Inv s u)
    (hstep : (indexers.interleave n).step u a = some v) : Inv s v := by
  cases a with
  | env db =>
    obtain ⟨db', henv, rfl⟩ := indexers.step_env.mp hstep
    cases henv
    exact ⟨h.prefix_rows, h.consistent, h.origin⟩
  | call k i =>
    obtain ⟨w, c, hexec, rfl⟩ := indexers.step_call.mp hstep
    have heffect := exec_cases hexec
    have hle := heffect.prefix_rows
    constructor
    · show s.db.stored.rows <+: w.stored.rows
      exact h.prefix_rows.trans hle
    · show ∀ j, (Function.update u.calls k c j).Consistent w.stored
      exact forall_update (P := fun _ (c : Session) => c.Consistent w.stored)
        (heffect.consistent (h.consistent k)) fun j _ => (h.consistent j).mono hle
    · intro r hr
      show r ∈ s.db.stored ∨ ∃ j, ∃ page ∈ (Function.update u.calls k c j).received, _
      rcases heffect.origin (h.consistent k) hr with hr | hpage
      · rcases h.origin r hr with hr | ⟨j, page, hpage, e, he, hof⟩
        · exact .inl hr
        · refine .inr ⟨j, page, ?_, e, he, hof⟩
          by_cases hjk : j = k
          · subst hjk
            rw [Function.update_self]
            exact heffect.received page hpage
          · rwa [Function.update_of_ne hjk]
      · refine .inr ⟨k, ?_⟩
        rwa [Function.update_self]

/-- Before the first call. -/
def Session.fresh : Session := ⟨[], [], .idle⟩

theorem inv_start (hstart : ∀ k, s.calls k = .fresh) : Inv s s := by
  refine ⟨List.prefix_rfl, fun k => ?_, fun r hr => .inl hr⟩
  rw [hstart k]
  exact ⟨nofun, nofun⟩

/-- All calls that have received a page returned `Ok`. -/
def AllOk (t : Sys Store Session n) : Prop := ∀ k, (t.calls k).returned = (t.calls k).received

/-- **Polling again changes nothing.** Over every run of any number of indexers: no two rows
have one token, no row is changed or removed, and when all calls have returned `Ok`, the tokens
are those from before and those of all pages. -/
theorem idempotent (hstart : ∀ k, s.calls k = .fresh)
    (hrun : (indexers.interleave n).run s as = some t) :
    (t.db.stored.rows.map ContractEvent.pagingToken).Nodup ∧
    (∀ bs cs u, as = bs ++ cs → (indexers.interleave n).run s bs = some u →
      u.db.stored.rows <+: t.db.stored.rows) ∧
    (AllOk t → ∀ token, HasToken t.db.stored token ↔ HasToken s.db.stored token ∨
      ∃ k, ∃ page ∈ (t.calls k).received, ∃ e ∈ page, e.pagingToken = token) := by
  have hinv : Inv s t := (indexers.interleave n).inv_of_run (fun _ _ _ => inv_step)
    (inv_start hstart) hrun
  refine ⟨List.pairwise_map.mpr t.db.stored.unique, ?_, fun hok token => ⟨?_, ?_⟩⟩
  · rintro bs cs u rfl hu
    obtain ⟨u', hu', hrest⟩ := (indexers.interleave n).run_append.mp hrun
    cases hu.symm.trans hu'
    exact (indexers.interleave n).inv_of_run
      (I := fun v => u.db.stored.rows <+: v.db.stored.rows)
      (fun v a v' hv hstep => by
        cases a with
        | env db =>
          obtain ⟨db', henv, rfl⟩ := indexers.step_env.mp hstep
          cases henv
          exact hv
        | call k i =>
          obtain ⟨w, c, hexec, rfl⟩ := indexers.step_call.mp hstep
          exact hv.trans (exec_cases hexec).prefix_rows)
      List.prefix_rfl hrest
  · rintro ⟨r, hr, htoken⟩
    rcases hinv.origin r hr with hr | ⟨k, page, hpage, e, he, hof⟩
    · exact .inl ⟨r, hr, htoken⟩
    · exact .inr ⟨k, page, hpage, e, he, hof.pagingToken.symm.trans htoken⟩
  · rintro (h | ⟨k, page, hpage, e, he, rfl⟩)
    · exact h.mono hinv.prefix_rows
    · rw [← hok k] at hpage
      exact (hinv.consistent k).returned page hpage e he

end Runs

/-! ## Calls by themselves -/

section Alone

variable {c : Session} {page rest : List SorobanEvent} {event : SorobanEvent}

/-- An indexer that runs alone. -/
def alone (w : Store) (c : Session) : Sys Store Session 1 := ⟨w, fun _ => c⟩

/-- `m` statements of it. -/
def Leads (w : Store) (c : Session) (w' : Store) (c' : Session) : Prop :=
  ∃ m, (indexers.interleave 1).run (alone w c) (List.replicate m (.call 0 .statement))
    = some (alone w' c')

theorem Leads.refl (w : Store) (c : Session) : Leads w c w c := ⟨0, rfl⟩

theorem Leads.trans {w w' w'' : Store} {c' c'' : Session} (h : Leads w c w' c')
    (h' : Leads w' c' w'' c'') : Leads w c w'' c'' := by
  obtain ⟨m, hrun⟩ := h
  obtain ⟨m', hrun'⟩ := h'
  refine ⟨m + m', ?_⟩
  rw [List.replicate_add]
  exact (indexers.interleave 1).run_append.mpr ⟨_, hrun, hrun'⟩

/-- One statement, and those after it. -/
theorem leads_statement {w w' : Store} {c' : Session} {stage : Stage}
    (hpc : c.pc = .event page event rest stage)
    (h : Leads (statement w c page event rest stage).1 (statement w c page event rest stage).2
      w' c') : Leads w c w' c' := by
  obtain ⟨m, hrun⟩ := h
  have hexec : indexers.exec ((alone w c).others 0) .statement w c
      = some (statement w c page event rest stage) := by
    simp only [indexers, hpc]
  have hcalls : Function.update (fun _ : Fin 1 => c) 0 (statement w c page event rest stage).2
      = fun _ => (statement w c page event rest stage).2 := by
    funext k
    rw [Subsingleton.elim k 0, Function.update_self]
  refine ⟨m + 1, (indexers.interleave 1).run_cons.mpr ⟨_, indexers.step_call.mpr
    ⟨_, _, hexec, rfl⟩, ?_⟩⟩
  show (indexers.interleave 1).run
    ⟨_, Function.update (fun _ : Fin 1 => c) 0 (statement w c page event rest stage).2⟩ _ = _
  rw [hcalls]
  exact hrun

/-- The `SELECT`s on the topics find what `try_resolve_invoice` returns. -/
theorem leads_resolve (w : Store) (topics : List Json) :
    Leads w { c with pc := .event page event rest (resolve topics) } w
      { c with pc := .event page event rest (.insert (tryResolveInvoice w.db topics)
        ((tryResolveInvoice w.db topics).bind fun id =>
          (w.db.invoices.find? fun i => i.id == id).map Invoice.merchantId)) } := by
  induction topics with
  | nil => exact .refl _ _
  | cons topic topics ih =>
    cases topic with
    | string text =>
      simp only [resolve, tryResolveInvoice]
      cases parseI64 text with
      | none => exact ih
      | some muxedId =>
        refine leads_statement rfl ?_
        simp only [statement, Option.bind_some]
        cases w.db.invoices.find? fun i => i.muxedId == muxedId with
        | some i => exact leads_statement rfl (.refl _ _)
        | none => exact ih
    | _ => exact ih

/-- The loop takes the place of what the indexer was at. -/
theorem loop_pc (c : Session) (pc : At) :
    ({ c with pc } : Session).loop page rest = c.loop page rest := by
  cases rest with
  | nil => rfl
  | cons event rest => rfl

/-- What a call does with the rest of its page, as `store` has it: the table after it, and
whether the call comes to its end. -/
def indexEvents (db : Db) : Table ContractEvent → List SorobanEvent → Table ContractEvent × Bool
  | stored, [] => (stored, true)
  | stored, event :: events =>
    match store db stored event with
    | some stored => indexEvents db stored events
    | none => (stored, false)

/-- The indexer after its call. -/
def Session.after (c : Session) (page : List SorobanEvent) (ok : Bool) : Session :=
  { c with returned := if ok then page :: c.returned else c.returned, pc := .idle }

/-- **The statements for one event do what `store` says.** -/
theorem leads_event (w : Store) (hpc : c.pc = .event page event rest .selectToken) :
    match store w.db w.stored event with
    | some stored => Leads w c { w with stored } (c.loop page rest)
    | none => Leads w c w { c with pc := .idle } := by
  unfold store
  by_cases hany : (w.stored.rows.any fun r => r.pagingToken == event.pagingToken) = true
  · rw [if_pos hany]
    refine leads_statement hpc ?_
    simp only [statement]
    rw [if_pos hany]
    exact .refl _ _
  · rw [if_neg hany]
    refine leads_statement hpc ?_
    simp only [statement]
    rw [if_neg hany]
    have hrow : event.row w.db = event.rowWith (tryResolveInvoice w.db event.topic)
        ((tryResolveInvoice w.db event.topic).bind fun id =>
          (w.db.invoices.find? fun i => i.id == id).map Invoice.merchantId) := by
      simp only [SorobanEvent.row, SorobanEvent.rowWith]
    refine (leads_resolve w event.topic).trans (leads_statement rfl ?_)
    rw [hrow]
    simp only [statement, loop_pc]
    exact .refl _ _

/-- A call that nothing interrupts stores the events of its page one after the other, and returns
`Ok`, unless one of them is stored already. -/
theorem leads_page (w : Store) (events : List SorobanEvent) :
    Leads w (c.loop page events) { w with stored := (indexEvents w.db w.stored events).1 }
      (c.after page (indexEvents w.db w.stored events).2) := by
  induction events generalizing w c with
  | nil => exact .refl _ _
  | cons event events ih =>
    have hevent := leads_event (c := c.loop page (event :: events)) w rfl
    rw [indexEvents]
    cases hs : store w.db w.stored event with
    | none =>
      simp only [hs] at hevent
      exact hevent
    | some stored =>
      simp only [hs] at hevent
      refine hevent.trans ?_
      show Leads _ (({ c with pc := _ } : Session).loop page events) _ _
      rw [loop_pc]
      exact ih { w with stored }

end Alone

/-! ## Overlapping pages -/

/-- The first statements of two calls on one event, the second of which finds it stored by the
first at its `INSERT`. -/
def overlapping : List (Label Input Db 2) :=
  [.call 0 (.receive [testEvent 0]), .call 1 (.receive [testEvent 0, testEvent 1]),
    .call 0 .statement, .call 1 .statement, .call 0 .statement, .call 1 .statement,
    .call 1 .statement, .call 1 .statement]

/-- Two indexers before their first calls. -/
def twoIndexers : Sys Store Session 2 := ⟨⟨{}, .empty⟩, fun _ => .fresh⟩

theorem idempotent_overlapping : (∀ k, twoIndexers.calls k = .fresh) ∧
    ∃ t, (indexers.interleave 2).run twoIndexers overlapping = some t ∧ AllOk t ∧
      t.db.stored.rows.map ContractEvent.pagingToken = ["0", "1"] ∧
      (t.db.stored.rows.map ContractEvent.pagingToken).Nodup ∧
      (∀ bs cs u, overlapping = bs ++ cs → (indexers.interleave 2).run twoIndexers bs = some u →
        u.db.stored.rows <+: t.db.stored.rows) ∧
      (AllOk t → ∀ token, HasToken t.db.stored token ↔ HasToken twoIndexers.db.stored token ∨
        ∃ k, ∃ page ∈ (t.calls k).received, ∃ e ∈ page, e.pagingToken = token) := by
  have hrun : ∃ t, (indexers.interleave 2).run twoIndexers overlapping = some t ∧ AllOk t ∧
      t.db.stored.rows.map ContractEvent.pagingToken = ["0", "1"] := by
    refine ⟨_, rfl, ?_, by decide +kernel⟩
    exact Fin.cons rfl (Fin.cons rfl nofun)
  obtain ⟨t, hrun, hok, htokens⟩ := hrun
  exact ⟨fun _ => rfl, t, hrun, hok, htokens, idempotent (fun _ => rfl) hrun⟩

end Stargate.Soroban
