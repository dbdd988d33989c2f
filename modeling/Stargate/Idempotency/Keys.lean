import Stargate.Invoices.Units

/-!
# `IdempotencyService`

One table for all endpoints: a row holds the hash of the request body and the
response, under the merchant and the key.
-/

namespace Stargate.Idempotency

open Base

/-- The row of a key. -/
def find (db : Db) (merchantId : Uuid) (key : String) : Option IdempotencyKey :=
  db.idempotencyKeys.find? fun k => k.merchantId == merchantId && k.key == key

/-- `check(merchantId, key, bodyHash)`. -/
def check (db : Db) (merchantId : Uuid) (key bodyHash : String) :
    Except ApiError (Option Response) :=
  match find db merchantId key with
  | none => .ok none
  | some row =>
    if row.requestHash ≠ bodyHash then
      .error (.conflict "Idempotency key already used with a different request body")
    else .ok (some row.responseBody)

/-- `save(merchantId, key, bodyHash, response)`: `ON CONFLICT DO NOTHING`. -/
def save (db : Db) (merchantId : Uuid) (key bodyHash : String) (response : Response) : Db :=
  match db.idempotencyKeys.insert? ⟨merchantId, key, bodyHash, response⟩ with
  | some idempotencyKeys => { db with idempotencyKeys }
  | none => db

/-- The response to a call whose key has a row. -/
def replayed (row : IdempotencyKey) (bodyHash : String) : Except ApiError Response :=
  if row.requestHash ≠ bodyHash then
    .error (.conflict "Idempotency key already used with a different request body")
  else .ok row.responseBody

section

variable {db : Db} {merchantId : Uuid} {key hash : String} {response : Response}
  {row : IdempotencyKey}

theorem check_of_find (h : find db merchantId key = some row) :
    check db merchantId key hash = (replayed row hash).map some := by
  simp only [check, h, replayed]
  split <;> rfl

theorem check_of_not_found (h : find db merchantId key = none) :
    check db merchantId key hash = .ok none := by
  rw [check, h]

/-- To save a response writes its key only. -/
theorem save_eq (db : Db) (merchantId : Uuid) (key hash : String) (response : Response) :
    ∃ idempotencyKeys, save db merchantId key hash response = { db with idempotencyKeys } := by
  unfold save
  split
  · exact ⟨_, rfl⟩
  · exact ⟨_, rfl⟩

/-- A response is saved under a key that is free. -/
theorem save_of_not_found (h : find db merchantId key = none) :
    ∃ keys, db.idempotencyKeys.insert? ⟨merchantId, key, hash, response⟩ = some keys ∧
      save db merchantId key hash response = { db with idempotencyKeys := keys } := by
  have hfree : ∀ row ∈ db.idempotencyKeys.rows,
      ¬ Keyed.Conflict row ⟨merchantId, key, hash, response⟩ := by
    intro row hrow hc
    have hno := List.find?_eq_none.mp h row hrow
    obtain ⟨hm, hk⟩ := Prod.mk.inj hc
    simp [hm, hk] at hno
  unfold save Table.insert?
  rw [dif_pos hfree]
  exact ⟨_, rfl, rfl⟩

theorem find_save (h : find db merchantId key = none) :
    find (save db merchantId key hash response) merchantId key
      = some ⟨merchantId, key, hash, response⟩ := by
  obtain ⟨keys, hins, hsave⟩ := save_of_not_found h
  rw [hsave, find, Table.find?, (Table.insert?_eq_some.mp hins).2, List.find?_append]
  rw [show db.idempotencyKeys.rows.find? _ = none from h]
  simp

end

end Stargate.Idempotency
