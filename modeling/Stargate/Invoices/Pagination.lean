import Mathlib.Data.List.Sort
import Stargate.Invoices.Units

/-!
# Listing invoices (`InvoicesService.list`)

A page of a merchant's invoices, newest first, and the cursor of the next page.
The cursor joins the ISO time and the id of the last invoice with a colon, the
next call splits it at every colon, and an ISO time has colons of its own: what
is read back as the id is the minute (`cursorFilter_nextCursor`).

- `Traversal`: the calls of a client that follows `nextCursor` until it is null;
- `Complete`: what such a client relies on, while invoices are inserted;
- `complete_iff`: it holds exactly where the first page is the only one.
-/

namespace Stargate.Invoices

open Base

/-! ## UUID text -/

/-- The text of a `UUID` column: groups of 8, 4, 4, 4 and 12 hexadecimal digits. -/
def uuidText (u : Uuid) : List Char :=
  let ds := padStart 32 '0' (Nat.toDigits 16 u)
  ds.take 8 ++ '-' :: (ds.drop 8).take 4 ++ '-' :: (ds.drop 12).take 4
    ++ '-' :: (ds.drop 16).take 4 ++ '-' :: ds.drop 20

/-- Skip a hyphen, if there is one. -/
def skipHyphen : List Char → List Char
  | '-' :: cs => cs
  | cs => cs

/-- Read `n` bytes of a UUID. A hyphen may follow every second byte but the last. -/
def uuidBytes : Nat → Uuid → List Char → Option (Uuid × List Char)
  | 0, u, cs => some (u, cs)
  | n + 1, u, a :: b :: cs => do
    let x ← hexValue? a
    let y ← hexValue? b
    uuidBytes n (256 * u + 16 * x + y) (if n % 2 = 0 ∧ 0 < n then skipHyphen cs else cs)
  | _ + 1, _, _ => none

/-- `text::uuid`, with or without braces; `none` is the "invalid input syntax" error. -/
def uuid? : List Char → Option Uuid
  | '{' :: cs =>
    match uuidBytes 16 0 cs with
    | some (u, ['}']) => some u
    | _ => none
  | cs =>
    match uuidBytes 16 0 cs with
    | some (u, []) => some u
    | _ => none

example : uuid? (uuidText 0x1f9a77e0b2c34d5e8f60718293a4b5c6)
    = some 0x1f9a77e0b2c34d5e8f60718293a4b5c6 := by decide +kernel

theorem length_skipHyphen_le (cs : List Char) : (skipHyphen cs).length ≤ cs.length := by
  unfold skipHyphen
  split
  · simp
  · exact Nat.le_refl _

/-- Every byte takes two characters. -/
theorem length_of_uuidBytes {n : Nat} {u v : Uuid} {cs rest : List Char}
    (h : uuidBytes n u cs = some (v, rest)) : 2 * n + rest.length ≤ cs.length := by
  induction n generalizing u cs with
  | zero =>
    cases h
    simp
  | succ n ih =>
    match cs, h with
    | a :: b :: cs, h =>
      simp only [uuidBytes, Option.bind_eq_bind, Option.bind_eq_some_iff] at h
      obtain ⟨x, -, y, -, h⟩ := h
      have hrest := ih h
      have hskip := length_skipHyphen_le cs
      split at hrest <;> simp only [List.length_cons] <;> omega

/-- A UUID has thirty-two digits. -/
theorem length_of_uuid? {cs : List Char} {u : Uuid} (h : uuid? cs = some u) : 32 ≤ cs.length := by
  unfold uuid? at h
  split at h
  · split at h
    · next hbytes =>
      have := length_of_uuidBytes hbytes
      simp only [List.length_cons]
      omega
    · cases h
  · split at h
    · next hbytes =>
      have := length_of_uuidBytes hbytes
      omega
    · cases h

/-! ## The query -/

/-- What `list` reads of a query: `Number(query.limit)` if there is a limit, and the texts
of `query.status` and `query.cursor`. -/
structure ListQuery where
  limit : Option JsNumber
  status : Option String
  cursor : Option String

/-- `Math.min(Math.max(Number(query.limit ?? 20), 1), 100)`. -/
def pageLimit (limit : Option JsNumber) : JsNumber := ((limit.getD (.finite 20)).max 1).min 100

/-- The `bigint` parameter `limit + 1` of `LIMIT $2`; `none` is the error on text that is
not a whole number. -/
def rowLimit? (limit : ℚ) : Option Nat :=
  let sum := toBinary64 (limit + 1)
  if sum.den = 1 then some sum.num.toNat else none

/-- `status=$n`, where a status is given. -/
def hasStatus (status : Option String) (i : Invoice) : Bool :=
  match status with
  | none => true
  | some "" => true
  | some s => i.status.code == s

/-- The first two parts of `cursor.split(':')`. -/
def splitCursor (cursor : String) : List Char × Option (List Char) :=
  let cs := cursor.toList
  (before ':' cs, if ':' ∈ cs then some (before ':' (after ':' cs)) else none)

/-- `(created_at, id) < ($3, $4)`. A missing id is `NULL`: then no invoice of the same time
compares. -/
def precedes (createdAt : Int) (id : Option Uuid) (i : Invoice) : Bool :=
  (i.createdAt : Int) < createdAt || ((i.createdAt : Int) == createdAt && id.any (i.id < ·))

section List

/- The input of `timestamptz` in the time zone of the session, to microseconds since 1970. -/
variable (timestamptz : List Char → Option Int)

/-- The condition `cursorSql`; `none` is the error on text that is no time or no UUID. -/
def cursorFilter (cursor : Option String) : Option (Invoice → Bool) :=
  match cursor with
  | none => some fun _ => true
  | some "" => some fun _ => true
  | some cursor => do
    let (createdAt, id) := splitCursor cursor
    let createdAt ← timestamptz createdAt
    match id with
    | none => some (precedes createdAt none)
    | some text =>
      let id ← uuid? text
      some (precedes createdAt (some id))

/-! ## A page -/

/-- The merchant's invoices with a status. -/
def selected (db : Db) (merchantId : Uuid) (status : Option String) : List Invoice :=
  db.invoices.rows.filter fun i => i.merchantId == merchantId && hasStatus status i

/-- `ORDER BY created_at DESC, id DESC`. -/
def Newer (a b : Invoice) : Prop :=
  b.createdAt < a.createdAt ∨ (b.createdAt = a.createdAt ∧ b.id ≤ a.id)

instance : DecidableRel Newer := fun _ _ => inferInstanceAs (Decidable (_ ∨ _ ∧ _))

structure Page where
  limit : ℚ
  items : List Invoice
  nextCursor : Option String
  deriving DecidableEq

/-- The last invoice of a page as a cursor. A `Date` has milliseconds, and none where the
time is out of its range. -/
def nextCursor (last : Invoice) : Option String :=
  (toISOString (last.createdAt / 1000)).map fun time =>
    String.ofList (time ++ ':' :: uuidText last.id)

/-- `list(merchantId, query)`. -/
def list (db : Db) (merchantId : Uuid) (query : ListQuery) : Except ApiError Page :=
  match pageLimit query.limit with
  | .finite limit =>
    match rowLimit? limit, cursorFilter timestamptz query.cursor with
    | some n, some p =>
      let rows := (((selected db merchantId query.status).filter p).insertionSort Newer).take n
      if limit < rows.length then
        let items := rows.take ⌊limit⌋.toNat
        match items.getLast?.bind nextCursor with
        | some cursor => .ok { limit, items, nextCursor := some cursor }
        | none => .error .library
      else .ok { limit, items := rows, nextCursor := none }
    | _, _ => .error .database
  -- `NaN` is not a `bigint` either
  | _ => .error .database

/-! ## What a client relies on -/

/-- The pages that a client collects which follows `nextCursor` from the `k`-th call until it
is null. `dbs k` is what the `k`-th call reads. -/
inductive Traversal (merchantId : Uuid) (limit : Option JsNumber) (status : Option String)
    (dbs : Nat → Db) : Nat → Option String → List (List Invoice) → Prop
  | last {k : Nat} {cursor : Option String} {page : Page}
      (hpage : list timestamptz (dbs k) merchantId { limit, status, cursor } = .ok page)
      (hcursor : page.nextCursor = none) :
      Traversal merchantId limit status dbs k cursor [page.items]
  | next {k : Nat} {cursor : Option String} {page : Page} {c : String} {pages : List (List Invoice)}
      (hpage : list timestamptz (dbs k) merchantId { limit, status, cursor } = .ok page)
      (hcursor : page.nextCursor = some c)
      (hrest : Traversal merchantId limit status dbs (k + 1) (some c) pages) :
      Traversal merchantId limit status dbs k cursor (page.items :: pages)

/-- What may happen between two calls: an invoice keeps its merchant, its time and its
status, and the invoices inserted are newer than those of their merchant. -/
structure NewerInserted (db db' : Db) : Prop where
  kept : ∀ i ∈ db.invoices, ∃ i' ∈ db'.invoices, i'.id = i.id ∧ i'.merchantId = i.merchantId ∧
    i'.createdAt = i.createdAt ∧ i'.status = i.status
  newer : ∀ i' ∈ db'.invoices, (∃ i ∈ db.invoices, i.id = i'.id) ∨
    ∀ i ∈ db.invoices, i.merchantId = i'.merchantId → i.createdAt < i'.createdAt

/-- The pages hold every selected invoice, in order and none twice. -/
structure Exhaustive (db : Db) (merchantId : Uuid) (status : Option String)
    (pages : List (List Invoice)) : Prop where
  covers : ∀ i ∈ selected db merchantId status, ∃ i' ∈ pages.flatten, i'.id = i.id
  ordered : pages.flatten.Pairwise Newer
  once : (pages.flatten.map Invoice.id).Nodup

/-- Pagination is complete: from these invoices on, a client gets to the end and has seen
every one that was there at its first call. -/
def Complete (db : Db) (merchantId : Uuid) (limit : Option JsNumber) (status : Option String) :
    Prop :=
  ∀ dbs : Nat → Db, dbs 0 = db → (∀ k, NewerInserted (dbs k) (dbs (k + 1))) →
    ∃ pages, Traversal timestamptz merchantId limit status dbs 0 none pages ∧
      Exhaustive db merchantId status pages

end List

theorem NewerInserted.refl (db : Db) : NewerInserted db db where
  kept i hi := ⟨i, hi, rfl, rfl, rfl, rfl⟩
  newer i hi := .inl ⟨i, hi, rfl⟩

/-! ## The order of a page -/

theorem Newer.trans {a b c : Invoice} (h₁ : Newer a b) (h₂ : Newer b c) : Newer a c := by
  rcases h₁ with h₁ | ⟨h₁, hid₁⟩
  · rcases h₂ with h₂ | ⟨h₂, -⟩
    · exact .inl (Nat.lt_trans h₂ h₁)
    · exact .inl (h₂ ▸ h₁)
  · rcases h₂ with h₂ | ⟨h₂, hid₂⟩
    · exact .inl (h₁ ▸ h₂)
    · exact .inr ⟨h₂.trans h₁, Nat.le_trans hid₂ hid₁⟩

theorem Newer.total (a b : Invoice) : Newer a b ∨ Newer b a := by
  rcases Nat.lt_trichotomy a.createdAt b.createdAt with h | h | h
  · exact .inr (.inl h)
  · rcases Nat.le_total a.id b.id with hid | hid
    · exact .inr (.inr ⟨h, hid⟩)
    · exact .inl (.inr ⟨h.symm, hid⟩)
  · exact .inl (.inl h)

instance : IsTrans Invoice Newer := ⟨fun _ _ _ => Newer.trans⟩

instance : Std.Total Newer := ⟨Newer.total⟩

theorem nodup_selected (db : Db) (merchantId : Uuid) (status : Option String) :
    ((selected db merchantId status).map Invoice.id).Nodup := by
  refine List.Pairwise.map Invoice.id ?_ (db.invoices.unique.sublist List.filter_sublist)
  intro a b h hid
  exact h (.inl hid)

/-! ## The cursor -/

variable {timestamptz : List Char → Option Int}

/-- The time of a cursor has a colon, so the part that is read as an id is the minute. -/
theorem splitCursor_nextCursor {last : Invoice} {cursor : String}
    (h : nextCursor last = some cursor) :
    ∃ start, splitCursor cursor
      = (start, some (zeroPadded 2 (minute (last.createdAt / 1000)))) := by
  obtain ⟨time, htime, rfl⟩ := Option.map_eq_some_iff.mp h
  obtain ⟨start, rest, rfl, hstart⟩ := toISOString_parts htime
  refine ⟨start, ?_⟩
  have hmin := not_mem_zeroPadded (c := ':') rfl 2 (minute (last.createdAt / 1000))
  simp only [splitCursor, String.toList_ofList, List.append_assoc, List.cons_append]
  rw [before_append hstart, after_append hstart, before_append hmin, if_pos (by simp)]

/-- **No cursor that `list` returns is accepted by `list`.** -/
theorem cursorFilter_nextCursor {last : Invoice} {cursor : String}
    (h : nextCursor last = some cursor) : cursorFilter timestamptz (some cursor) = none := by
  obtain ⟨start, hsplit⟩ := splitCursor_nextCursor h
  have hid : uuid? (zeroPadded 2 (minute (last.createdAt / 1000))) = none := by
    rw [Option.eq_none_iff_forall_ne_some]
    intro u hu
    have hlen := length_of_uuid? hu
    have hminute : minute (last.createdAt / 1000) < 60 := Nat.mod_lt _ (by decide)
    rw [length_zeroPadded (by decide) (hminute.trans (by decide))] at hlen
    omega
  unfold cursorFilter
  split
  · next heq => cases heq
  · next heq =>
    obtain rfl := Option.some.inj heq
    cases hsplit
  · next heq =>
    obtain rfl := Option.some.inj heq
    rw [hsplit]
    simp only [hid, Option.bind_eq_bind, Option.bind_none]
    exact Option.bind_fun_none _

/-! ## A page, by cases -/

/-- Adding one in doubles does not lose the one. -/
theorem lt_of_rowLimit? {limit : ℚ} {n : Nat} (h₁ : 1 ≤ limit) (h₂ : limit ≤ 100)
    (h : rowLimit? limit = some n) : limit < n := by
  have hulp : (2 : ℚ) ^ ulpExponent (limit + 1) ≤ 2 ^ (-24 : Int) :=
    zpow_le_zpow_right₀ (by norm_num) (ulpExponent_le (by linarith) (by norm_num; linarith))
  have herr := (abs_le.mp (abs_toBinary64_sub_le (limit + 1))).1
  have hlt : limit < toBinary64 (limit + 1) := by
    norm_num at hulp
    linarith
  simp only [rowLimit?] at h
  split at h
  · next hden =>
    obtain rfl := Option.some.inj h
    have hnum : ((toBinary64 (limit + 1)).num : ℚ) = toBinary64 (limit + 1) :=
      Rat.coe_int_num_of_den_eq_one hden
    have hle : (toBinary64 (limit + 1)).num ≤ ((toBinary64 (limit + 1)).num.toNat : Int) :=
      Int.self_le_toNat _
    calc limit < toBinary64 (limit + 1) := hlt
      _ = ((toBinary64 (limit + 1)).num : ℚ) := hnum.symm
      _ ≤ (((toBinary64 (limit + 1)).num.toNat : Int) : ℚ) := by exact_mod_cast hle
      _ = ((toBinary64 (limit + 1)).num.toNat : ℚ) := by norm_cast
  · cases h

section List

variable {db : Db} {merchantId : Uuid} {query : ListQuery} {page : Page}

/-- What a call that succeeds returns: the rows it asked for if they fit on a page, or as many
of them as fit and a cursor. -/
theorem list_cases (h : list timestamptz db merchantId query = .ok page) :
    ∃ limit n p rows, pageLimit query.limit = .finite limit ∧ rowLimit? limit = some n ∧
      cursorFilter timestamptz query.cursor = some p ∧
      rows = (((selected db merchantId query.status).filter p).insertionSort Newer).take n ∧
      ((rows.length : ℚ) ≤ limit ∧ page = { limit, items := rows, nextCursor := none } ∨
        limit < rows.length ∧ ∃ last cursor, nextCursor last = some cursor ∧
          page.nextCursor = some cursor) := by
  unfold list at h
  split at h
  · next limit hlimit =>
    split at h
    · next n p hn hp =>
      refine ⟨limit, n, p, _, hlimit, hn, hp, rfl, ?_⟩
      dsimp only at h
      split at h
      · next hmore =>
        split at h
        · next cursor hcursor =>
          obtain ⟨last, -, hlast⟩ := Option.bind_eq_some_iff.mp hcursor
          exact .inr ⟨hmore, last, cursor, hlast, by rw [← Except.ok.inj h]⟩
        · cases h
      · next hmore => exact .inl ⟨not_lt.mp hmore, (Except.ok.inj h).symm⟩
    · cases h
  · cases h

/-- The call that a cursor is meant for fails. -/
theorem list_nextCursor_ne_ok (h : list timestamptz db merchantId query = .ok page)
    {cursor : String} (hcursor : page.nextCursor = some cursor) {query' : ListQuery}
    (hquery : query'.cursor = some cursor) (db' : Db) (page' : Page) :
    list timestamptz db' merchantId query' ≠ .ok page' := by
  intro h'
  obtain ⟨_, _, p, _, _, _, hp, _⟩ := list_cases h'
  obtain ⟨_, _, _, _, _, _, _, _, ⟨_, rfl⟩ | ⟨_, last, c, hlast, hc⟩⟩ := list_cases h
  · cases hcursor
  · obtain rfl : c = cursor := Option.some.inj (hc.symm.trans hcursor)
    rw [hquery, cursorFilter_nextCursor hlast] at hp
    cases hp

/-- The first call, where everything fits on one page. -/
theorem list_of_length_le {limit : Option JsNumber} {status : Option String} {l : ℚ} {n : Nat}
    (hlimit : pageLimit limit = .finite l) (hn : rowLimit? l = some n)
    (hlen : ((selected db merchantId status).length : ℚ) ≤ l) :
    list timestamptz db merchantId { limit, status, cursor := none }
      = .ok { limit := l, items := (selected db merchantId status).insertionSort Newer,
              nextCursor := none } := by
  have hbounds := JsNumber.le_of_clamp (by norm_num) hlimit
  have hlt := lt_of_rowLimit? hbounds.1 hbounds.2 hn
  have hle : (selected db merchantId status).length ≤ n := by
    exact_mod_cast hlen.trans hlt.le
  have htake : ((selected db merchantId status).insertionSort Newer).take n
      = (selected db merchantId status).insertionSort Newer :=
    List.take_of_length_le (by rwa [List.length_insertionSort])
  have hfilter : (selected db merchantId status).filter (fun _ => true)
      = selected db merchantId status := List.filter_true _
  simp only [list, hlimit, hn, cursorFilter, hfilter, htake, List.length_insertionSort]
  rw [if_neg (not_lt.mpr hlen)]

/-- **Pagination is complete exactly where there is nothing to paginate**: the limit is one
that the database takes, and the invoices fit on its first page. -/
theorem complete_iff (timestamptz : List Char → Option Int) (db : Db) (merchantId : Uuid)
    (limit : Option JsNumber) (status : Option String) :
    Complete timestamptz db merchantId limit status ↔
      ∃ l n, pageLimit limit = .finite l ∧ rowLimit? l = some n ∧
        ((selected db merchantId status).length : ℚ) ≤ l := by
  constructor
  · intro h
    obtain ⟨pages, htraversal, -⟩ := h (fun _ => db) rfl fun _ => .refl db
    cases htraversal with
    | last hpage hcursor =>
      obtain ⟨l, n, p, rows, hlimit, hn, hp, hrows, hcase⟩ := list_cases hpage
      obtain ⟨hle, -⟩ | ⟨-, -, c, -, hc⟩ := hcase
      · refine ⟨l, n, hlimit, hn, ?_⟩
        obtain rfl : (fun _ => true) = p := Option.some.inj hp
        have hbounds := JsNumber.le_of_clamp (by norm_num) hlimit
        have hlt := lt_of_rowLimit? hbounds.1 hbounds.2 hn
        rw [hrows, List.length_take, List.length_insertionSort, List.filter_true] at hle
        -- the database was asked for more rows than fit
        rcases le_total n (selected db merchantId status).length with hlen | hlen
        · rw [min_eq_left hlen] at hle
          exact absurd hlt (not_lt.mpr hle)
        · rwa [min_eq_right hlen] at hle
      · rw [hcursor] at hc
        cases hc
    | next hpage hcursor hrest =>
      cases hrest with
      | last hpage' => exact absurd hpage' (list_nextCursor_ne_ok hpage hcursor rfl _ _)
      | next hpage' => exact absurd hpage' (list_nextCursor_ne_ok hpage hcursor rfl _ _)
  · rintro ⟨l, n, hlimit, hn, hlen⟩ dbs rfl -
    have hpage : list timestamptz (dbs 0) merchantId { limit, status, cursor := none } = .ok _ :=
      list_of_length_le hlimit hn hlen
    refine ⟨_, .last hpage rfl, ?_, ?_, ?_⟩
    · intro i hi
      exact ⟨i, by simpa using hi, rfl⟩
    · simpa using List.pairwise_insertionSort Newer _
    · have hperm := List.perm_insertionSort Newer (selected (dbs 0) merchantId status)
      simpa using (hperm.map Invoice.id).nodup_iff.mpr (nodup_selected _ _ _)

end List

/-! ## Three invoices, two on a page -/

/-- An invoice of a merchant, created some minutes after noon. -/
def createdAtNoon (id : Uuid) (minutes : Nat) : Invoice where
  id := id
  merchantId := 1
  amountUsdc := ⟨50000000, by decide⟩
  grossUsdc := ⟨50000000, by decide⟩
  feeUsdc := ⟨0, Numeric.inRange_zero⟩
  netUsdc := ⟨50000000, by decide⟩
  description := none
  status := .pending
  muxedId := id
  muxedAddress := "MA"
  memo := none
  expiresAt := 1735736400000000 + 60000000 * minutes
  paidAt := none
  createdAt := 1735732800000000 + 60000000 * minutes
  amountPaidUsdc := ⟨0, Numeric.inRange_zero⟩
  amountRemainingUsdc := ⟨50000000, by decide⟩
  partialPaymentsEnabled := false
  idempotencyKey := none
  currency := .usdc
  grossUsdcEquiv := ⟨50000000, by decide⟩

/-- One invoice a minute. -/
def threeInvoices : Db where
  invoices := ⟨[createdAtNoon 10 0, createdAtNoon 11 1, createdAtNoon 12 2], by decide⟩

/-- The hour of these invoices, read in UTC. -/
def utcNoon (text : List Char) : Option Int :=
  if text = "2025-01-01T12".toList then some 1735732800000000 else none

/-- The second page of three invoices is refused: the id of its cursor is read as `01`. -/
theorem three_invoices_incomplete :
    list utcNoon threeInvoices 1 { limit := some (.finite 2), status := none, cursor := none }
      = .ok { limit := 2, items := [createdAtNoon 12 2, createdAtNoon 11 1],
              nextCursor := some "2025-01-01T12:01:00.000Z:00000000-0000-0000-0000-00000000000b" } ∧
    list utcNoon threeInvoices 1
        { limit := some (.finite 2), status := none,
          cursor := some "2025-01-01T12:01:00.000Z:00000000-0000-0000-0000-00000000000b" }
      = .error .database ∧
    ¬ Complete utcNoon threeInvoices 1 (some (.finite 2)) none := by
  have hfirst : list utcNoon threeInvoices 1
      { limit := some (.finite 2), status := none, cursor := none }
      = .ok { limit := 2, items := [createdAtNoon 12 2, createdAtNoon 11 1],
              nextCursor :=
                some "2025-01-01T12:01:00.000Z:00000000-0000-0000-0000-00000000000b" } := by
    decide +kernel
  have hsecond : list utcNoon threeInvoices 1
      { limit := some (.finite 2), status := none,
        cursor := some "2025-01-01T12:01:00.000Z:00000000-0000-0000-0000-00000000000b" }
      = .error .database := by
    decide +kernel
  refine ⟨hfirst, hsecond, fun h => ?_⟩
  obtain ⟨pages, htraversal, -⟩ := h (fun _ => threeInvoices) rfl fun _ => .refl _
  cases htraversal with
  | last hpage hcursor =>
    rw [← Except.ok.inj (hfirst.symm.trans hpage)] at hcursor
    cases hcursor
  | next hpage hcursor hrest =>
    rw [← Except.ok.inj (hfirst.symm.trans hpage)] at hcursor
    obtain rfl := Option.some.inj hcursor
    cases hrest with
    | last hpage' => cases hsecond.symm.trans hpage'
    | next hpage' => cases hsecond.symm.trans hpage'

end Stargate.Invoices
