import Hakawi.Library.Shelf
import Hakawi.Payments.Repository

/-!
# The library event handler

A completed purchase grants ownership and its settled refund revokes it; rental
events put an entry on the shelf or take one off. Both directions go by the
reader and the book of the payment, and by nothing that tells grants apart.
-/

namespace Library

open Common Payments

section Handlers
variable (ledger : Ledger) (shelf : Shelf)

def handlePaymentCompleted (paymentId : Nat) : Except Failure Shelf :=
  match ledger.findById paymentId with
  | none => .error (.notFound s!"Payment {paymentId} not found while granting entitlement")
  | some payment =>
    if payment.metaString "type" ≠ some "purchase" then .ok shelf
    else match payment.metaBookId with
      | none => .ok shelf
      | some bookId =>
        match shelf.findByUserAndBook payment.userId bookId with
        | some _ => .ok shelf
        | none => .ok (shelf.grant payment.userId bookId none .owned).2

def handleRefundCompleted (paymentId : Nat) : Except Failure Shelf :=
  match ledger.findById paymentId with
  | none => .error (.notFound s!"Payment {paymentId} not found while revoking an entitlement")
  | some payment =>
    if payment.metaString "type" ≠ some "purchase" then .ok shelf
    else match payment.metaBookId with
      | none => .ok shelf
      | some bookId => (shelf.removeBookForRefund payment.userId bookId).map Prod.snd

end Handlers

section Specs
variable {ledger : Ledger} {shelf : Shelf} {id : Nat} {payment : Payment}

theorem handlePaymentCompleted_other (found : ledger.findById id = some payment)
    (h : payment.pairFor "purchase" = none) :
    handlePaymentCompleted ledger shelf id = .ok shelf := by
  simp only [handlePaymentCompleted, found]
  by_cases type : payment.metaString "type" = some "purchase"
  · rw [Payment.pairFor, if_pos type, Option.map_eq_none_iff] at h
    simp [type, h]
  · simp [type]

theorem handlePaymentCompleted_grants (shelf : Shelf) {pair : String × String}
    (found : ledger.findById id = some payment) (h : payment.pairFor "purchase" = some pair) :
    ∃ after, handlePaymentCompleted ledger shelf id = .ok after ∧
      Shelf.Grants pair none .owned shelf after := by
  obtain ⟨type, book, reader⟩ := Payment.pairFor_eq_some.mp h
  simp only [handlePaymentCompleted, found, type, book, reader, ne_eq, not_true_eq_false, if_false]
  cases hf : shelf.findByUserAndBook pair.1 pair.2 with
  | some item =>
    obtain ⟨hm, hp⟩ := Shelf.findByUserAndBook_some hf
    exact ⟨shelf, rfl, .held item hm (Or.inl hp) rfl⟩
  | none => exact ⟨_, rfl, Shelf.grant_grants hf nofun⟩

theorem handleRefundCompleted_other (found : ledger.findById id = some payment)
    (h : payment.pairFor "purchase" = none) :
    handleRefundCompleted ledger shelf id = .ok shelf := by
  simp only [handleRefundCompleted, found]
  by_cases type : payment.metaString "type" = some "purchase"
  · rw [Payment.pairFor, if_pos type, Option.map_eq_none_iff] at h
    simp [type, h]
  · simp [type]

theorem handleRefundCompleted_keeps {pair : String × String} (sound : shelf.Sound)
    (found : ledger.findById id = some payment) (h : payment.pairFor "purchase" = some pair) :
    ∃ after, handleRefundCompleted ledger shelf id = .ok after ∧
      Shelf.Keeps (·.pair ≠ pair) shelf after := by
  obtain ⟨type, book, reader⟩ := Payment.pairFor_eq_some.mp h
  obtain ⟨result, he, keeps⟩ := Shelf.removeBookForRefund_keeps sound pair.1 pair.2
  refine ⟨result.2, ?_, keeps⟩
  simp [handleRefundCompleted, found, type, book, reader, he, Except.map]

end Specs
end Library
