import Stargate.Base.NumberText
import Stargate.Base.OffsetPages
import Stargate.Invoices.Pagination

/-!
# Lists by page number

`GET /audit-logs`, `GET /soroban-events` and `GET /payment-links/analytics` take `page` and
`limit` and read the page with `LIMIT` and `OFFSET`, newest rows first. Nothing orders rows of
the same time.

- `queryPage`: the two numbers, the query, and the count of all rows that it returns with each;
- `Asks`: a request for one page of a certain size;
- `collected_perm_iff`, `mem_collected`, `nodup_collected_iff`: what a client gets that asks
  for one page after the other.
-/

namespace Stargate.OffsetLists

open Base Invoices

/-! ## A request -/

/-- What the services read of a query. -/
structure PageQuery where
  page : Option String
  limit : Option String

/-- `Number(text)`, where there is one. -/
def number (text : Option String) : Option JsNumber := text.map fun t => .ofText t.toList

/-- `Math.max(Number(query.page ?? 1), 1)`. -/
def pageNumber (q : PageQuery) : JsNumber := ((number q.page).getD (.finite 1)).max 1

/-- `Math.min(Math.max(Number(query.limit ?? 20), 1), 100)`. -/
def pageSize (q : PageQuery) : JsNumber := pageLimit (number q.limit)

/-- `(page - 1) * limit`, where `limit` is a positive number or `NaN`. -/
def offset : JsNumber → JsNumber → JsNumber
  | .finite page, .finite limit =>
    match JsNumber.ofRat (page - 1) with
    | .finite d => JsNumber.ofRat (d * limit)
    | x => x
  | .infinity negative, .finite _ => .infinity negative
  | _, _ => .nan

/-- The `bigint` parameter that a number is sent as, by its text; `none` is the error on text
that is no whole number or out of range. The numbers here have no sign. -/
def bigint? (x : JsNumber) : Option Nat := (digits? x.text).filter (· < 2 ^ 63)

/-- What a query returns: each row with `COUNT(*) OVER() AS total`. -/
structure Queried (ρ : Type) where
  page : JsNumber
  limit : JsNumber
  rows : List (ρ × Nat)

/-- `Number(result.rows[0]?.total ?? 0)`. -/
def Queried.total {ρ : Type} (result : Queried ρ) : Nat := result.rows.head?.elim 0 Prod.snd

/-- `SELECT ..., COUNT(*) OVER() AS total ... LIMIT limit OFFSET offset`, where `rows` are all
the rows in the order of the query. -/
def queryPage {ρ : Type} (rows : List ρ) (q : PageQuery) : Except ApiError (Queried ρ) :=
  match bigint? (pageSize q), bigint? (offset (pageNumber q) (pageSize q)) with
  | some limit, some offset => .ok
    { page := pageNumber q
      limit := pageSize q
      rows := (window limit offset rows).map fun r => (r, rows.length) }
  | _, _ => .error .database

/-- The query asks for the page after the first `k` pages of `n` rows. -/
structure Asks (q : PageQuery) (k n : Nat) : Prop where
  page : pageNumber q = .finite (k + 1)
  limit : pageSize q = .finite n

instance (q : PageQuery) (k n : Nat) : Decidable (Asks q k n) :=
  decidable_of_iff (pageNumber q = .finite (k + 1) ∧ pageSize q = .finite n)
    ⟨fun h => ⟨h.1, h.2⟩, fun h => ⟨h.1, h.2⟩⟩

example : Asks ⟨none, none⟩ 0 20 := by decide +kernel
example : Asks ⟨some "-3", some "1e3"⟩ 0 100 := by decide +kernel

section Page

variable {ρ : Type} {q : PageQuery} {k n : Nat}

theorem Asks.pos (h : Asks q k n) : 0 < n := by
  have hle := (JsNumber.le_of_clamp (by norm_num) h.limit).1
  exact_mod_cast hle

theorem Asks.le (h : Asks q k n) : n ≤ 100 := by
  have hle := (JsNumber.le_of_clamp (by norm_num) h.limit).2
  exact_mod_cast hle

theorem ofRat_natCast {i : Nat} (h : i < 2 ^ 53) : JsNumber.ofRat i = .finite i := by
  have habs : |(i : ℚ)| < 2 ^ 1024 := by
    rw [Nat.abs_cast]
    calc (i : ℚ) < 2 ^ 53 := by exact_mod_cast h
      _ ≤ 2 ^ 1024 := pow_le_pow_right₀ (by norm_num) (by norm_num)
  rw [JsNumber.ofRat, toBinary64_natCast h]
  exact if_neg (not_le.mpr habs)

theorem bigint?_natCast {i : Nat} (h : i < 10 ^ 15) : bigint? (.finite i) = some i := by
  have hdigits : digits? (Nat.toDigits 10 i) = some i := by
    rw [digits?_of_isDigit Nat.toDigits_ne_nil isDigit_toDigits, Nat.ofDigitChars_ten_toDigits]
  have hlt : i < 2 ^ 63 := h.trans (by norm_num)
  rw [bigint?, JsNumber.text, doubleText_natCast (by omega), hdigits, Option.filter_some,
    if_pos (decide_eq_true hlt)]

/-- The offset is exact as far as the numbers are printed digit by digit. -/
theorem offset_natCast (hk : k < 2 ^ 53) (hkn : k * n < 2 ^ 53) :
    offset (.finite (k + 1)) (.finite n) = .finite (k * n : Nat) := by
  have hsub : JsNumber.ofRat ((k : ℚ) + 1 - 1) = .finite k := by
    rw [add_sub_cancel_right, ofRat_natCast hk]
  simp only [offset, hsub]
  rw [← Nat.cast_mul, ofRat_natCast hkn]

/-- **The page that is asked for.** -/
theorem queryPage_of_asks (h : Asks q k n) (hkn : k * n < 10 ^ 15) (rows : List ρ) :
    queryPage rows q = .ok
      { page := .finite (k + 1), limit := .finite n,
        rows := (window n (k * n) rows).map fun r => (r, rows.length) } := by
  have hk : k < 2 ^ 53 :=
    (Nat.le_mul_of_pos_right k h.pos).trans_lt (hkn.trans (by norm_num))
  have hn : n < 10 ^ 15 := h.le.trans_lt (by norm_num)
  rw [queryPage, h.page, h.limit, offset_natCast hk (hkn.trans (by norm_num)), bigint?_natCast hn,
    bigint?_natCast hkn]

end Page

/-! ## A client

It asks for the pages one after the other: `q k` is its `k`-th query, `rows k` are the rows
that this query finds, and `order k` is how the database happens to order them. -/

section Client

variable {ρ κ : Type} [LinearOrder κ] {key : ρ → κ} {q : Nat → PageQuery} {n m : Nat}

/-- The rows of an answer. -/
def answered : Except ApiError (Queried ρ) → List ρ
  | .ok result => result.rows.map Prod.fst
  | .error _ => []

/-- The rows of the first answers. -/
def collected (answers : Nat → Except ApiError (Queried ρ)) : Nat → List ρ
  | 0 => []
  | m + 1 => collected answers m ++ answered (answers m)

theorem answered_queryPage {q : PageQuery} {k : Nat} (h : Asks q k n) (hkn : k * n < 10 ^ 15)
    (rows : List ρ) : answered (queryPage rows q) = window n (k * n) rows := by
  rw [queryPage_of_asks h hkn, answered, List.map_map]
  exact List.map_id _

theorem collected_eq {lists : Nat → List ρ} (hasks : ∀ k < m, Asks (q k) k n)
    (hm : m * n < 10 ^ 15) :
    collected (fun k => queryPage (lists k) (q k)) m = collect n lists m := by
  induction m with
  | zero => rfl
  | succ m ih =>
    have hmn : m * n < 10 ^ 15 := (Nat.mul_le_mul_right n (Nat.le_succ m)).trans_lt hm
    rw [collected, ih (fun k hk => hasks k (Nat.lt_succ_of_lt hk)) hmn,
      answered_queryPage (hasks m (Nat.lt_succ_self m)) hmn, collect]

/-- Of a table that nobody writes, the pages are complete for every order of the database
exactly where none of them ends between two rows of the same key. -/
theorem collected_perm_iff {rows : List ρ} (hrows : rows.Nodup)
    (hasks : ∀ k < m, Asks (q k) k n) (hcover : rows.length ≤ m * n) (hm : m * n < 10 ^ 15) :
    (∀ order : Nat → List ρ → List ρ, (∀ k rows, ListedBy key rows (order k rows)) →
        (collected (fun k => queryPage (order k rows) (q k)) m).Perm rows) ↔
      ∀ x k, ¬ Straddles key rows x (k * n) := by
  rw [← collect_perm_iff hrows hcover]
  constructor
  · intro hall lists hlists
    classical
    -- an order that treats these rows as the list says
    have horder : ∀ k rows', ListedBy key rows'
        (if rows' = rows then lists k else listDesc key rows') := by
      intro k rows'
      split
      · next h => exact h ▸ hlists k
      · exact listedBy_listDesc key rows'
    have hperm := hall (fun k rows' => if rows' = rows then lists k else listDesc key rows') horder
    rw [collected_eq hasks hm] at hperm
    simpa using hperm
  · intro hall order horder
    rw [collected_eq hasks hm]
    exact hall _ fun k => horder k rows

variable {rows : Nat → List ρ} {order : Nat → List ρ → List ρ}

/-- What a client relies on whose rows have keys of their own, while rows are added: the answers
are full up to the last one. -/
structure Walk (key : ρ → κ) (q : Nat → PageQuery) (n m : Nat) (rows : Nat → List ρ)
    (order : Nat → List ρ → List ρ) : Prop where
  asks : ∀ k ≤ m, Asks (q k) k n
  small : (m + 1) * n < 10 ^ 15
  ordered : ∀ k rows, ListedBy key rows (order k rows)
  grows : ∀ k, (rows k).Subperm (rows (k + 1))
  keys : ∀ k, ((rows k).map key).Nodup
  full : ∀ k < m, (answered (queryPage (order k (rows k)) (q k))).length = n
  last : (answered (queryPage (order m (rows m)) (q m))).length < n

namespace Walk

variable (h : Walk key q n m rows order)
include h

theorem sublist (k : Nat) : (order k (rows k)).Sublist (order (k + 1) (rows (k + 1))) :=
  (h.ordered k (rows k)).sublist (h.ordered (k + 1) (rows (k + 1))) (h.grows k) (h.keys (k + 1))

theorem answer {k : Nat} (hk : k ≤ m) :
    answered (queryPage (order k (rows k)) (q k)) = window n (k * n) (order k (rows k)) := by
  have hkn : k * n < 10 ^ 15 :=
    (Nat.mul_le_mul_right n (hk.trans (Nat.le_succ m))).trans_lt h.small
  exact answered_queryPage (h.asks k hk) hkn _

theorem short : (window n (m * n) (order m (rows m))).length < n := h.answer le_rfl ▸ h.last

theorem collected_eq : collected (fun k => queryPage (order k (rows k)) (q k)) (m + 1)
    = collect n (fun k => order k (rows k)) (m + 1) :=
  OffsetLists.collected_eq (fun k hk => h.asks k (Nat.le_of_lt_succ hk)) h.small

theorem full_length {k : Nat} (hk : k < m) : (k + 1) * n ≤ (order k (rows k)).length := by
  have hfull := h.full k hk
  have hpos := (h.asks k hk.le).pos
  rw [h.answer hk.le, window, List.length_take, List.length_drop] at hfull
  rw [Nat.succ_mul]
  omega

/-- **No row is missed** that the first query could find. -/
theorem mem_collected {r : ρ} (hr : r ∈ rows 0) :
    r ∈ collected (fun k => queryPage (order k (rows k)) (q k)) (m + 1) := by
  rw [h.collected_eq]
  exact mem_collect_of_sublist h.sublist h.short ((h.ordered 0 (rows 0)).perm.mem_iff.mpr hr)

/-- **No row comes twice** exactly where the rows added between two queries are older than what
the first of them returned. -/
theorem nodup_collected_iff :
    (collected (fun k => queryPage (order k (rows k)) (q k)) (m + 1)).Nodup ↔
      ∀ k < m, ∀ r ∈ rows (k + 1), r ∉ rows k →
        ∀ a ∈ answered (queryPage (order k (rows k)) (q k)), key r < key a := by
  have hn : 0 < n := (h.asks m le_rfl).pos
  have hnodup : (order m (rows m)).Nodup :=
    (h.ordered m (rows m)).perm.nodup_iff.mpr (List.Nodup.of_map key (h.keys m))
  rw [h.collected_eq,
    nodup_collect_iff h.sublist hn (fun k hk => h.full_length hk) h.short hnodup]
  refine forall_congr' fun k => forall_congr' fun hk => ?_
  obtain ⟨i, hi⟩ : ∃ i, (k + 1) * n = i + 1 :=
    Nat.exists_eq_succ_of_ne_zero (Nat.mul_pos k.succ_pos hn).ne'
  have hlen : i < (order k (rows k)).length := by
    have := h.full_length hk
    omega
  rw [hi, (h.ordered k (rows k)).take_eq_iff (h.ordered (k + 1) (rows (k + 1))) (h.grows k)
    (h.keys (k + 1)) hlen]
  refine forall_congr' fun r => forall_congr' fun _ => forall_congr' fun _ => ?_
  rw [h.answer hk.le]
  exact ((h.ordered k (rows k)).lt_window_iff hn (by rw [← hi, Nat.succ_mul]) hlen (key r)).symm

end Walk

end Client

end Stargate.OffsetLists
