import Stargate.Invoices.CreateCalls

/-!
# Failures in `createBulk`

One call, without concurrent requests, in which any statement may fail: because of what it
reads, or for no reason of its own, before its effect on the database or after it. The
`INSERT`s are rolled back with the transaction, but the statements on the pool have
committed by then.

- `Step`, `Bulk`: the call, with its failures;
- `Stage`: what holds of the database and the transaction between two statements;
- `numbered_leads`: statements on the pool write two columns of the merchant;
- `stage_step`, `stage_of_bulk`: one step, and a whole run;
- `bulk_atomic`: all inputs, or none.
-/

namespace Stargate.CreateCalls

open Base Invoices

/-! ## Failures -/

/-- What a call that runs alone can do next. -/
inductive Step (env : CreateEnv) : World × Call → World × Call → Prop
  | statement {now : Timestamp} {id : Uuid} {w : World} {c : Call} {s' : World × Call}
      (hexec : (program env).exec [] (.exec now id) w c = some s') : Step env (w, c) s'
  /-- A lookup fails, or the database refuses a statement. -/
  | refused {w : World} {c : Call} (e : ApiError) (hbusy : c.resting = false) :
      Step env (w, c) (w, .threw e)
  /-- A statement on the pool has committed, but its answer is lost. -/
  | lost {now : Timestamp} {id : Uuid} {w w' : World} {args : Args} {tx : Option Tx} {pc : Pc}
      {c' : Call} (e : ApiError)
      (hexec : (program env).exec [] (.exec now id) w (.running args tx pc) = some (w', c')) :
      Step env (w, .running args tx pc) (w', .threw e)
  | crashed {w : World} {c : Call} (hbusy : c.resting = false) : Step env (w, c) (w, .crashed)

/-- The states of a `createBulk`, from where it is called. -/
def Bulk (env : CreateEnv) (start : Timestamp) (w₀ : World) (merchantId : Uuid)
    (inputs : List CreateInput) (s : World × Call) : Prop :=
  ∃ s₁, (program env).exec [] (.createBulk merchantId inputs start) w₀ .idle = some s₁
    ∧ Relation.ReflTransGen (Step env) s₁ s

/-! ## Between two statements -/

/-- The amounts are those of the request. -/
def QuoteFor (input : CreateInput) (q : Quote) : Prop :=
  parseCreate input = .ok q.dto ∧ toUnits q.dto.amount = .ok q.amount

/-- The row of an input. -/
def RowFor (env : CreateEnv) (start : Timestamp) (merchantId : Uuid) (input : CreateInput)
    (r : Invoice) : Prop :=
  ∃ now id q muxedId, QuoteFor input q ∧ q.merchant.id = merchantId
    ∧ rowOf env now id ⟨merchantId, input, none⟩ (some ⟨start, [], []⟩) q muxedId = some r

/-- The statement is one of a `create` of this input, without a key. -/
def Pc.For (input : CreateInput) : Pc → Prop
  | .checkKey _ | .findByKey _ | .saveKey _ _ => False
  | .findOne dto | .toUsdc dto _ => parseCreate input = .ok dto
  | .sumDay p | .sumMonth p _ | .getRate p _ => parseCreate input = .ok p.dto
  | .selectBase q _ | .countMerchants q _ | .updateBase q _ _ | .nextSequence q _ _ =>
    QuoteFor input q

/-- The next statement is one of this input too. -/
def Next.For (input : CreateInput) : Next → Prop
  | .goto pc => pc.For input
  | .insert q _ _ => QuoteFor input q
  | .done _ => False

section Stage

variable (env : CreateEnv) (start : Timestamp) (db₀ : Db) (merchantId : Uuid)
  (inputs : List CreateInput)

/-- The transaction has the rows of the inputs before these. -/
structure Tx.Holds (rest : List CreateInput) (tx : Tx) (before : List CreateInput) : Prop where
  began : tx.start = start
  split : inputs = before ++ rest
  rows : List.Forall₂ (RowFor env start merchantId) before (tx.rows.map Prod.snd)

/-- How far the call is: it has changed no more than numbers, until it commits. -/
inductive Stage : Db → Call → Prop
  | running {db : Db} {before : List CreateInput} {input : CreateInput} {tx : Tx} {pc : Pc}
      (hdb : Numbered db₀ db)
      (htx : tx.Holds env start merchantId inputs (input :: tx.rest) before)
      (hpc : pc.For input) (howned : pc.OwnedBy merchantId) :
      Stage db (.running ⟨merchantId, input, none⟩ (some tx) pc)
  | inserting {db : Db} {before : List CreateInput} {input : CreateInput} {tx : Tx} {q : Quote}
      {check : Checked} {muxedId : Int} (hdb : Numbered db₀ db)
      (htx : tx.Holds env start merchantId inputs (input :: tx.rest) before)
      (hq : QuoteFor input q) (howned : q.merchant.id = merchantId) :
      Stage db (.inserting ⟨merchantId, input, none⟩ (some tx) q check muxedId)
  | committing {db : Db} {tx : Tx} (hdb : Numbered db₀ db)
      (hrows : List.Forall₂ (RowFor env start merchantId) inputs (tx.rows.map Prod.snd)) :
      Stage db (.committing merchantId tx)
  | returned {db : Db} {rows : List Invoice}
      (hdb : Numbered db₀ { db with invoices := db₀.invoices })
      (hinvoices : db.invoices.rows = db₀.invoices.rows ++ rows)
      (hrows : List.Forall₂ (RowFor env start merchantId) inputs rows) :
      Stage db (.returnedBulk merchantId rows)
  | threw {db : Db} {e : ApiError} (hdb : Numbered db₀ db) : Stage db (.threw e)
  | crashed {db : Db} (hdb : Numbered db₀ db) : Stage db .crashed

end Stage

section Steps

variable {env : CreateEnv} {start : Timestamp} {db₀ db db' : Db} {merchantId : Uuid}
  {inputs before : List CreateInput} {tx : Tx} {input : CreateInput} {pc : Pc}

/-- `create` is called for the next input, or the transaction is committed. -/
theorem stage_nextInput (hdb : Numbered db₀ db)
    (htx : tx.Holds env start merchantId inputs tx.rest before) :
    Stage env start db₀ merchantId inputs db (nextInput merchantId tx) := by
  unfold nextInput
  split
  · next hrest =>
    have hall := htx.split
    rw [hrest, List.append_nil] at hall
    exact .committing hdb (hall ▸ htx.rows)
  · next input rest hrest =>
    have hkey : (⟨merchantId, input, none⟩ : Args).key? = none := rfl
    unfold enter
    rw [hkey]
    dsimp only
    split
    · next dto hparse =>
      have hholds :
          ({ tx with rest } : Tx).Holds env start merchantId inputs (input :: rest) before :=
        ⟨htx.began, hrest ▸ htx.split, htx.rows⟩
      exact .running hdb hholds hparse trivial
    · exact .threw hdb

/-- **Only numbers are written on the pool**, for a request without a key. -/
theorem numbered_leads {now : Timestamp} {args : Args} {next : Next}
    (h : Leads env now args db pc next db') (hpc : pc.For input) : Numbered db db' := by
  rcases writes_leads h with hnumbered | ⟨key, r, rfl, -⟩
  · exact hnumbered
  · exact hpc.elim

theorem for_leads {now : Timestamp} {args : Args} {next : Next}
    (h : Leads env now args db pc next db') (hpc : pc.For input) : next.For input := by
  cases h with
  -- the statements about idempotency keys
  | replayed _ | unused _ | found _ | notFound _ _ | saved => exact hpc.elim
  | quoted hq =>
    have hquote := quoteOf_amounts hq
    exact ⟨hquote.dto ▸ hpc, hquote.dto ▸ hquote.amount⟩
  | merchant _ | priced _ | day _ | month _ | based _ | unbased _ | counted _ | updated _
  | numbered _ _ => exact hpc

theorem stage_next {now : Timestamp} {next : Next} (hdb : Numbered db₀ db)
    (htx : tx.Holds env start merchantId inputs (input :: tx.rest) before) (hpc : pc.For input)
    (howned : pc.OwnedBy merchantId)
    (h : Leads env now ⟨merchantId, input, none⟩ db pc next db') :
    Stage env start db₀ merchantId inputs db' (next.call ⟨merchantId, input, none⟩ (some tx)) := by
  have hdb' := hdb.trans (numbered_leads h hpc)
  have hfor := for_leads h hpc
  have howned' : Owned (next.call ⟨merchantId, input, none⟩ (some tx)) := owned_leads h howned
  cases next with
  | goto pc' => exact .running hdb' htx hfor howned'
  | insert q check muxedId => exact .inserting hdb' htx hfor howned'
  | done _ => exact hfor.elim

theorem invoices_of_numbered (h : Numbered db db') : db'.invoices = db.invoices := by rw [h.rest]

theorem idempotencyKeys_of_numbered (h : Numbered db db') :
    db'.idempotencyKeys = db.idempotencyKeys := by rw [h.rest]

theorem Stage.numbered {c : Call} (h : Stage env start db₀ merchantId inputs db c)
    (hbusy : c.resting = false) : Numbered db₀ db := by
  cases h with
  | running hdb _ _ _ | inserting hdb _ _ _ | committing hdb _ | threw hdb | crashed hdb =>
    exact hdb
  | returned _ _ _ => cases hbusy

theorem busy_of_exec {now : Timestamp} {id : Uuid} {w : World} {c : Call} {s' : World × Call}
    (h : (program env).exec [] (.exec now id) w c = some s') : c.resting = false := by
  cases c with
  | running _ _ _ | inserting _ _ _ _ _ | committing _ _ => rfl
  | _ => cases h

/-- A row is added to the transaction. -/
theorem holds_append {now : Timestamp} {id : Uuid} {q : Quote} {check : Checked} {muxedId : Int}
    {r : Invoice} (htx : tx.Holds env start merchantId inputs (input :: tx.rest) before)
    (hq : QuoteFor input q) (howned : q.merchant.id = merchantId)
    (hrow : rowOf env now id ⟨merchantId, input, none⟩ (some tx) q muxedId = some r) :
    ({ tx with rows := tx.rows ++ [(check, r)] } : Tx).Holds env start merchantId inputs tx.rest
      (before ++ [input]) where
  began := htx.began
  split := by rw [htx.split, List.append_assoc, List.singleton_append]
  rows := by
    have hfor : RowFor env start merchantId input r := by
      refine ⟨now, id, q, muxedId, hq, howned, ?_⟩
      rw [← hrow, ← htx.began]
      rfl
    rw [List.map_append, List.map_singleton]
    exact List.rel_append htx.rows (.cons hfor .nil)

/-- A statement that succeeds or fails by itself. -/
theorem stage_exec {now : Timestamp} {id : Uuid} {w w' : World} {c c' : Call}
    (h : Stage env start db₀ merchantId inputs w.db c)
    (hexec : (program env).exec [] (.exec now id) w c = some (w', c')) :
    Stage env start db₀ merchantId inputs w'.db c' := by
  have hbusy := busy_of_exec hexec
  cases moves_of_exec hexec with
  | stopped hstop =>
    rcases hstop with rfl | ⟨e, rfl⟩
    · exact .crashed (h.numbered hbusy)
    · exact .threw (h.numbered hbusy)
  | ran hleads =>
    cases h with
    | running hdb htx hpc howned => exact stage_next hdb htx hpc howned hleads
  -- `create` inserts on the pool, and createBulk in its transaction
  | inserted _ _ _ => cases h
  | pended hrow _ _ =>
    cases h with
    | inserting hdb htx hq howned => exact stage_nextInput hdb (holds_append htx hq howned hrow)
  | committed hcommit =>
    cases h with
    | committing hdb hrows =>
      -- the rows of the transaction are appended, all at once
      have hdb' : Numbered db₀ { w.db with invoices := db₀.invoices } :=
        ⟨by rw [hdb.rest], hdb.rows⟩
      have hinvoices := rows_of_commit hcommit
      rw [invoices_of_numbered hdb] at hinvoices
      exact .returned hdb' hinvoices hrows

/-- A statement whose answer is lost has had its effect. -/
theorem numbered_of_exec {now : Timestamp} {id : Uuid} {w w' : World} {args : Args}
    {tx : Option Tx} {c' : Call}
    (h : Stage env start db₀ merchantId inputs w.db (.running args tx pc))
    (hexec : (program env).exec [] (.exec now id) w (.running args tx pc) = some (w', c')) :
    Numbered db₀ w'.db := by
  cases h with
  | running hdb _ hpc _ =>
    cases moves_of_exec hexec with
    | stopped _ => exact hdb
    | ran hleads => exact hdb.trans (numbered_leads hleads hpc)

/-- **One step**, whatever fails. -/
theorem stage_step {s s' : World × Call} (h : Stage env start db₀ merchantId inputs s.1.db s.2)
    (hstep : Step env s s') : Stage env start db₀ merchantId inputs s'.1.db s'.2 := by
  cases hstep with
  | statement hexec => exact stage_exec h hexec
  | refused e hbusy => exact .threw (h.numbered hbusy)
  | lost e hexec => exact .threw (numbered_of_exec h hexec)
  | crashed hbusy => exact .crashed (h.numbered hbusy)

/-- **The whole call.** -/
theorem stage_of_bulk {w₀ : World} {s : World × Call}
    (h : Bulk env start w₀ merchantId inputs s) :
    Stage env start w₀.db merchantId inputs s.1.db s.2 := by
  obtain ⟨s₁, hcall, hrun⟩ := h
  -- on the statements of the call, from the first `create` on
  induction hrun with
  | refl =>
    have hdb : Numbered w₀.db w₀.db := .refl w₀.db
    simp only [program, Call.resting, if_true] at hcall
    split at hcall
    · cases hcall
      exact .threw hdb
    · cases hcall
      exact stage_nextInput hdb ⟨rfl, rfl, .nil⟩
  | tail _ hstep ih => exact stage_step ih hstep

end Steps

/-! ## The end of a call -/

/-- How many statements may follow one of an input. -/
def Pc.left : Pc → Nat
  | .checkKey _ => 13
  | .findByKey _ => 12
  | .findOne _ => 11
  | .toUsdc .. => 10
  | .sumDay _ => 9
  | .sumMonth .. => 8
  | .getRate .. => 7
  | .selectBase .. => 6
  | .countMerchants .. => 5
  | .updateBase .. => 4
  | .nextSequence .. => 3
  | .saveKey .. => 2

def Tx.left (tx : Tx) : Nat := 14 * tx.rest.length + 1

/-- How many statements may follow. -/
def Call.left : Call → Nat
  | .running _ tx pc => tx.elim 0 Tx.left + pc.left
  | .inserting _ tx _ _ _ => tx.elim 0 Tx.left + 2
  | .committing _ _ => 1
  | _ => 0

section Ends

variable {env : CreateEnv} {start now : Timestamp} {id merchantId : Uuid} {db₀ : Db}
  {inputs : List CreateInput} {w w' : World} {c c' : Call}

theorem Pc.left_pos (pc : Pc) : 0 < pc.left := by cases pc <;> simp only [Pc.left] <;> omega

theorem Pc.left_le (pc : Pc) : pc.left ≤ 13 := by cases pc <;> simp only [Pc.left] <;> omega

theorem left_enter_le (args : Args) (tx : Option Tx) :
    (enter args tx).left ≤ tx.elim 0 Tx.left + 13 := by
  unfold enter
  split
  · exact Nat.add_le_add_left (Pc.left_le _) _
  · split
    · exact Nat.add_le_add_left (Pc.left_le _) _
    · exact Nat.zero_le _

theorem left_nextInput_le (merchantId : Uuid) (tx : Tx) :
    (nextInput merchantId tx).left ≤ tx.left := by
  unfold nextInput
  split
  · exact Nat.le_add_left 1 _
  · next input rest hrest =>
    refine (left_enter_le _ _).trans ?_
    rw [Tx.left, hrest, List.length_cons, Option.elim_some, Tx.left]
    dsimp only
    omega

/-- Every statement leaves fewer of them. -/
theorem left_exec_lt (h : Stage env start db₀ merchantId inputs w.db c)
    (hexec : (program env).exec [] (.exec now id) w c = some (w', c')) : c'.left < c.left := by
  cases moves_of_exec hexec with
  | stopped hstop =>
    have hbusy := busy_of_exec hexec
    have hpos : 0 < c.left := by
      cases c with
      | running _ _ pc => exact Nat.add_pos_right _ pc.left_pos
      | inserting _ _ _ _ _ => exact Nat.add_pos_right _ (by decide)
      | committing _ _ => exact Nat.one_pos
      | _ => cases hbusy
    rcases hstop with rfl | ⟨e, rfl⟩
    · exact hpos
    · exact hpos
  | ran hleads =>
    cases h with
    | running _ _ hpc _ =>
      cases hleads with
      | replayed _ | unused _ | found _ | notFound _ _ | saved => exact hpc.elim
      | numbered _ _ | merchant _ | priced _ | day _ | month _ | quoted _ | based _ | unbased _
      | counted _ | updated _ =>
        simp only [Next.call, Call.left, Pc.left]
        omega
  | inserted _ _ _ => cases h
  | pended _ _ _ => exact (left_nextInput_le _ _).trans_lt (Nat.lt_add_of_pos_right (by decide))
  | committed _ => exact Nat.one_pos

/-- Alone, a statement never waits. -/
theorem exists_exec (env : CreateEnv) (now : Timestamp) (id : Uuid) (w : World)
    (hbusy : c.resting = false) :
    ∃ w' c', (program env).exec [] (.exec now id) w c = some (w', c') := by
  cases c with
  | running args tx pc => exact ⟨_, _, rfl⟩
  | inserting args tx q check muxedId =>
    dsimp only [program]
    unfold insertRow
    split
    · exact ⟨_, _, rfl⟩
    split
    · exact ⟨_, _, rfl⟩
    rw [List.any_nil, if_neg Bool.false_ne_true]
    dsimp only
    split
    · split
      · exact ⟨_, _, rfl⟩
      · exact ⟨_, _, rfl⟩
    · split
      · exact ⟨_, _, rfl⟩
      · exact ⟨_, _, rfl⟩
  | committing merchantId tx => exact ⟨_, _, rfl⟩
  | _ => cases hbusy

/-- **Every call ends.** -/
theorem ends (now : Timestamp) (id : Uuid) {s : World × Call}
    (h : Stage env start db₀ merchantId inputs s.1.db s.2) :
    ∃ s', Alone env now id s s' ∧ s'.2.resting = true := by
  induction hleft : s.2.left using Nat.strong_induction_on generalizing s with
  | _ n ih =>
    cases hbusy : s.2.resting with
    | true => exact ⟨s, .refl, hbusy⟩
    | false =>
      obtain ⟨w', c', hexec⟩ := exists_exec env now id s.1 hbusy
      have hlt := left_exec_lt h hexec
      obtain ⟨s', hrun, hrest⟩ := ih _ (hleft ▸ hlt) (s := (w', c')) (stage_exec h hexec) rfl
      exact ⟨s', .head hexec hrun, hrest⟩

end Ends

/-! ## All or nothing -/

section Atomic

variable {env : CreateEnv} {start : Timestamp} {w₀ : World} {merchantId : Uuid}
  {inputs : List CreateInput} {s : World × Call}

theorem nodup_muxedId {t : Table Invoice} {before rows : List Invoice}
    (h : t.rows = before ++ rows) : (rows.map Invoice.muxedId).Nodup := by
  have hunique : rows.Pairwise fun a b => ¬ Keyed.Conflict a b :=
    t.unique.sublist (h ▸ List.sublist_append_right before rows)
  exact List.pairwise_map.mpr (hunique.imp fun hfree heq => hfree (.inr (.inl heq)))

/-- **Bulk creation is atomic**, wherever a statement fails. -/
theorem bulk_atomic (h : Bulk env start w₀ merchantId inputs s) :
    (∀ e, s.2 = .threw e →
      s.1.db.invoices = w₀.db.invoices ∧ s.1.db.idempotencyKeys = w₀.db.idempotencyKeys
        ∧ Numbered w₀.db s.1.db)
    ∧ (∀ id rows, s.2 = .returnedBulk id rows →
      s.1.db.invoices.rows = w₀.db.invoices.rows ++ rows ∧ rows.length = inputs.length
        ∧ List.Forall₂ (RowFor env start merchantId) inputs rows
        ∧ (rows.map Invoice.muxedId).Nodup)
    ∧ ∀ now id, ∃ s', Alone env now id s s' ∧ s'.2.resting = true := by
  have hstage := stage_of_bulk h
  refine ⟨fun e he => ?_, fun id rows hrows => ?_, fun now id => ends now id hstage⟩
  · rw [he] at hstage
    cases hstage with
    | threw hdb => exact ⟨invoices_of_numbered hdb, idempotencyKeys_of_numbered hdb, hdb⟩
  · rw [hrows] at hstage
    cases hstage with
    | returned hdb hinvoices hrows =>
      exact ⟨hinvoices, hrows.length_eq.symm, hrows, nodup_muxedId hinvoices⟩

/-- Some statements; each has its own random id. -/
def runStatements (env : CreateEnv) (now : Timestamp) : Nat → World × Call → World × Call
  | 0, s => s
  | n + 1, s =>
    match (program env).exec [] (.exec now n) s.1 s.2 with
    | some s' => runStatements env now n s'
    | none => s

theorem reflTransGen_runStatements (env : CreateEnv) (now : Timestamp) (n : Nat)
    (s : World × Call) :
    Relation.ReflTransGen (Step env) s (runStatements env now n s) := by
  induction n generalizing s with
  | zero => exact .refl
  | succ n ih =>
    unfold runStatements
    split
    · next s' hexec => exact .head (.statement hexec) (ih s')
    · exact .refl

/-- Two inputs of 10 USDC, after all statements. -/
def bulkOfTwo : World × Call :=
  runStatements testEnv 0 30 (⟨testDb, [], []⟩, nextInput 1 ⟨0, [], [tenUsdc, tenUsdc]⟩)

theorem bulk_bulkOfTwo : Bulk testEnv 0 ⟨testDb, [], []⟩ 1 [tenUsdc, tenUsdc] bulkOfTwo :=
  ⟨_, rfl, reflTransGen_runStatements testEnv 0 30 _⟩

theorem bulk_atomic_two : bulkOfTwo.1.db.invoices.rows.length = 2 ∧
    (∀ e, bulkOfTwo.2 = .threw e →
      bulkOfTwo.1.db.invoices = testDb.invoices
        ∧ bulkOfTwo.1.db.idempotencyKeys = testDb.idempotencyKeys
        ∧ Numbered testDb bulkOfTwo.1.db)
    ∧ (∀ id rows, bulkOfTwo.2 = .returnedBulk id rows →
      bulkOfTwo.1.db.invoices.rows = testDb.invoices.rows ++ rows ∧ rows.length = 2
        ∧ List.Forall₂ (RowFor testEnv 0 1) [tenUsdc, tenUsdc] rows
        ∧ (rows.map Invoice.muxedId).Nodup)
    ∧ ∀ now id, ∃ s', Alone testEnv now id bulkOfTwo s' ∧ s'.2.resting = true :=
  ⟨by decide +kernel, bulk_atomic bulk_bulkOfTwo⟩

end Atomic

end Stargate.CreateCalls
