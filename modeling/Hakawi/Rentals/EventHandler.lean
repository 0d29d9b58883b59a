import Hakawi.Library.Shelf
import Hakawi.Payments.Repository
import Hakawi.Rentals.Repository

/-!
# The rentals event handler

A completed payment grants or extends a rental and a settled refund expires one.
The payment is read back from the ledger; the rental it is about is found by
reader and book, since nothing records which payment a rental came from.
-/

namespace Rentals

open Common Payments
open Library (RentalEvent)

section Handlers
variable (ledger : Ledger) (tables : RentalsTables)

/-- `meta.durationDays`, when it is a positive number. -/
def metaDays (payment : Payment) (key : String) : Option Rat :=
  (payment.metaNumber key).filter (0 < ·)

/-- Decided along the text, not over all characters. -/
instance (priority := high) decidableForallChar (p : Char → Prop) [DecidablePred p]
    (text : List Char) : Decidable (∀ c ∈ text, p c) :=
  List.decidableBAll p text

/-- The id that a text names, if it is one. -/
def readId (text : String) : Option Nat :=
  if text.toList ≠ [] ∧ ∀ c ∈ text.toList, c.isDigit = true then
    some (Nat.ofDigitChars 10 text.toList 0)
  else none

/-- Moves the end date of a rental by what was paid for. -/
def applyExtension (payment : Payment) : RentalsTables × List RentalEvent :=
  match (payment.metaString "rentalId").bind readId, metaDays payment "extensionDays" with
  | some rentalId, some extensionDays =>
    match tables.findById rentalId with
    | none => (tables, [])
    | some rental =>
      if rental.deletedAt.isSome ∨ rental.userId ≠ payment.userId ∨
          rental.extendedCount ≥ rental.maxExtensions then (tables, [])
      else
        let newEndDate := addDays rental.endDate extensionDays
        let recorded := tables.createExtension rentalId rental.endDate newEndDate extensionDays
        (recorded.update rentalId
          { endDate := some newEndDate, extendedCount := some (rental.extendedCount + 1) },
          [.extended rentalId])
  | _, _ => (tables, [])

/-- Grants the rental, unless the newest row of the pair still says `active`. -/
def grantRental (now : Int) (payment : Payment) : RentalsTables × List RentalEvent :=
  match payment.metaBookId, metaDays payment "durationDays" with
  | some bookId, some durationDays =>
    if (tables.findByUserAndBook payment.userId bookId).map Rental.status = some .active then
      (tables, [])
    else
      let created := tables.create now payment.userId bookId durationDays
      (created.2, [.created created.1.id payment.userId bookId])
  | _, _ => (tables, [])

def handlePaymentCompleted (now : Int) (paymentId : Nat) :
    Except Failure (RentalsTables × List RentalEvent) :=
  match ledger.findById paymentId with
  | none => .error (.notFound s!"Payment {paymentId} not found while granting a rental")
  | some payment =>
    if payment.metaString "type" = some "rental_extension" then
      .ok (applyExtension tables payment)
    else if payment.metaString "type" = some "rental" then
      .ok (grantRental tables now payment)
    else .ok (tables, [])

/-- Expires the newest rental of the pair, unless it has ended already. -/
def revokeRental (payment : Payment) : RentalsTables × List RentalEvent :=
  match payment.metaBookId with
  | none => (tables, [])
  | some bookId =>
    match tables.findByUserAndBook payment.userId bookId with
    | none => (tables, [])
    | some rental =>
      if rental.deletedAt.isSome ∨ rental.status = .expired ∨ rental.status = .returned then
        (tables, [])
      else (tables.update rental.id { status := some .expired }, [.expired rental.id])

def handleRefundCompleted (paymentId : Nat) : Except Failure (RentalsTables × List RentalEvent) :=
  match ledger.findById paymentId with
  | none => .error (.notFound s!"Payment {paymentId} not found while revoking a rental")
  | some payment =>
    if payment.metaString "type" = some "rental" then .ok (revokeRental tables payment)
    else .ok (tables, [])

end Handlers

section Endings
variable (tables : RentalsTables)

def returnRental (now : Int) (id : Nat) (userId : String) :
    Except Failure (RentalsTables × List RentalEvent) := do
  let rental ← tables.ownRental id userId
  if rental.status = .returned then
    throw (.forbidden "Rental has already been returned")
  else
    return (tables.update id { status := some .returned, returnedAt := some (some now) },
      [.returned id])

def checkAndExpireOverdue (now : Int) : RentalsTables × List RentalEvent :=
  ((tables.findOverdue now).foldl
    (fun swept rental => swept.update rental.id { status := some .expired }) tables,
    (tables.findOverdue now).map fun rental => .expired rental.id)

end Endings

section Specs
variable {ledger : Ledger} {tables : RentalsTables} {now : Int} {id : Nat} {payment : Payment}
  {result : RentalsTables × List RentalEvent}

theorem applyExtension_events (payment : Payment) :
    (applyExtension tables payment).1.rentals.next = tables.rentals.next ∧
      ∀ event ∈ (applyExtension tables payment).2, event.ending = none ∧
        ∀ rentalId userId bookId, event ≠ .created rentalId userId bookId := by
  unfold applyExtension
  split
  · split
    · exact ⟨rfl, nofun⟩
    · split
      · exact ⟨rfl, nofun⟩
      · refine ⟨rfl, fun event he => ?_⟩
        rw [List.mem_singleton.mp he]
        exact ⟨rfl, nofun⟩
  · exact ⟨rfl, nofun⟩

theorem handlePaymentCompleted_rental (found : ledger.findById id = some payment)
    (type : payment.metaString "type" = some "rental") :
    handlePaymentCompleted ledger tables now id = .ok (grantRental tables now payment) := by
  have other : payment.metaString "type" ≠ some "rental_extension" := by
    rw [type]
    decide
  simp only [handlePaymentCompleted, found]
  rw [if_neg other, if_pos type]

/-- A rental payment is granted a new row, unless the pair's newest row is active. -/
theorem grantRental_cases (tables : RentalsTables) (now : Int) {pair : String × String} {days : Rat}
    (sale : payment.pairFor "rental" = some pair)
    (usable : metaDays payment "durationDays" = some days) :
    ((tables.findByUserAndBook pair.1 pair.2).map Rental.status = some .active ∧
        grantRental tables now payment = (tables, [])) ∨
      ((tables.findByUserAndBook pair.1 pair.2).map Rental.status ≠ some .active ∧
        grantRental tables now payment = ((tables.create now pair.1 pair.2 days).2,
          [.created tables.rentals.next pair.1 pair.2])) := by
  obtain ⟨-, book, reader⟩ := Payment.pairFor_eq_some.mp sale
  simp only [grantRental, book, usable, reader]
  by_cases held : (tables.findByUserAndBook pair.1 pair.2).map Rental.status = some .active
  · exact Or.inl ⟨held, if_pos held⟩
  · exact Or.inr ⟨held, if_neg held⟩

/-- A completed payment creates one rental at most, and ends none. -/
theorem handlePaymentCompleted_events
    (h : handlePaymentCompleted ledger tables now id = .ok result) :
    tables.rentals.next ≤ result.1.rentals.next ∧ ∀ event ∈ result.2, event.ending = none ∧
      ∀ rentalId userId bookId, event = .created rentalId userId bookId →
        rentalId = tables.rentals.next ∧ tables.rentals.next < result.1.rentals.next := by
  unfold handlePaymentCompleted at h
  split at h
  · cases h
  · rename_i payment found
    split at h
    · obtain rfl := Except.ok.inj h
      obtain ⟨next, events⟩ := applyExtension_events payment
      refine ⟨next.ge, fun event he => ⟨(events event he).1, fun rentalId userId bookId e => ?_⟩⟩
      exact absurd e ((events event he).2 rentalId userId bookId)
    · split at h
      · obtain rfl := Except.ok.inj h
        unfold grantRental
        split
        · split
          · exact ⟨le_refl _, nofun⟩
          · refine ⟨Nat.le_succ _, fun event he => ?_⟩
            rw [List.mem_singleton.mp he]
            refine ⟨rfl, fun rentalId userId bookId e => ?_⟩
            cases e
            exact ⟨rfl, Nat.lt_succ_self _⟩
        · exact ⟨le_refl _, nofun⟩
      · obtain rfl := Except.ok.inj h
        exact ⟨le_refl _, nofun⟩

/-- A settled refund of a rental ends the pair's newest rental, if it has not ended. -/
theorem handleRefundCompleted_events (tables : RentalsTables)
    (found : ledger.findById id = some payment) :
    ∃ result, handleRefundCompleted ledger tables id = .ok result ∧
      result.1.rentals.next = tables.rentals.next ∧ ∀ event ∈ result.2, ∃ pair rental,
        payment.pairFor "rental" = some pair ∧
          tables.findByUserAndBook pair.1 pair.2 = some rental ∧
          rental.status ≠ .expired ∧ rental.status ≠ .returned ∧ event = .expired rental.id := by
  simp only [handleRefundCompleted, found]
  by_cases type : payment.metaString "type" = some "rental"
  · refine ⟨revokeRental tables payment, if_pos type, ?_⟩
    unfold revokeRental
    split
    · exact ⟨rfl, nofun⟩
    · rename_i bookId book
      split
      · exact ⟨rfl, nofun⟩
      · rename_i rental newest
        split
        · exact ⟨rfl, nofun⟩
        · rename_i running
          refine ⟨rfl, fun event he => ⟨(payment.userId, bookId), rental, ?_, newest, ?_, ?_, ?_⟩⟩
          · exact Payment.pairFor_eq_some.mpr ⟨type, book, rfl⟩
          · exact fun e => running (Or.inr (Or.inl e))
          · exact fun e => running (Or.inr (Or.inr e))
          · exact List.mem_singleton.mp he
  · exact ⟨(tables, []), if_neg type, rfl, nofun⟩

theorem returnRental_eq {userId : String} (h : returnRental tables now id userId = .ok result) :
    result = (tables.update id { status := some .returned, returnedAt := some (some now) },
      [.returned id]) := by
  unfold returnRental at h
  cases own : tables.ownRental id userId with
  | error e => simp [own, bind, Except.bind] at h
  | ok rental =>
    simp only [own, bind, Except.bind] at h
    split at h
    · cases h
    · exact (Except.ok.inj h).symm

theorem returnRental_events {userId : String}
    (h : returnRental tables now id userId = .ok result) :
    result.1.rentals.next = tables.rentals.next ∧ result.2 = [.returned id] := by
  rw [returnRental_eq h]
  exact ⟨rfl, rfl⟩

/-- A completed payment does nothing, moves a rental's end date, or creates a rental for
a pair whose newest one is not active. -/
theorem handlePaymentCompleted_cases (h : handlePaymentCompleted ledger tables now id = .ok result) :
    result = (tables, []) ∨
      (∃ rentalId endDate count extended, result = (extended, [.extended rentalId]) ∧
        ∀ userId bookId, extended.findByUserAndBook userId bookId =
          (tables.update rentalId { endDate := some endDate, extendedCount := some count }
            ).findByUserAndBook userId bookId) ∨
      ∃ userId bookId days,
        (tables.findByUserAndBook userId bookId).map Rental.status ≠ some .active ∧
          result = ((tables.create now userId bookId days).2,
            [.created tables.rentals.next userId bookId]) := by
  unfold handlePaymentCompleted at h
  split at h
  · cases h
  · split at h
    · obtain rfl := Except.ok.inj h
      unfold applyExtension
      split
      · split
        · exact Or.inl rfl
        · split
          · exact Or.inl rfl
          · exact Or.inr (Or.inl ⟨_, _, _, _, rfl, fun _ _ => rfl⟩)
      · exact Or.inl rfl
    · split at h
      · obtain rfl := Except.ok.inj h
        unfold grantRental
        split
        · split
          · exact Or.inl rfl
          · rename_i free
            exact Or.inr (Or.inr ⟨_, _, _, free, rfl⟩)
        · exact Or.inl rfl
      · obtain rfl := Except.ok.inj h
        exact Or.inl rfl

/-- A settled refund does nothing, or expires a rental. -/
theorem handleRefundCompleted_cases (h : handleRefundCompleted ledger tables id = .ok result) :
    result = (tables, []) ∨ ∃ rentalId,
      result = (tables.update rentalId { status := some .expired }, [.expired rentalId]) := by
  unfold handleRefundCompleted at h
  split at h
  · cases h
  · split at h
    · obtain rfl := Except.ok.inj h
      unfold revokeRental
      split
      · exact Or.inl rfl
      · split
        · exact Or.inl rfl
        · split
          · exact Or.inl rfl
          · exact Or.inr ⟨_, rfl⟩
    · exact Or.inl (Except.ok.inj h).symm

theorem checkAndExpireOverdue_next (tables : RentalsTables) (now : Int) :
    (checkAndExpireOverdue tables now).1.rentals.next = tables.rentals.next := by
  simp only [checkAndExpireOverdue]
  generalize tables.findOverdue now = overdue
  induction overdue generalizing tables with
  | nil => rfl
  | cons rental rest ih => exact ih _

/-- The sweep leaves a newest rental alone that it does not list. -/
theorem checkAndExpireOverdue_spares {userId bookId : String} {rental : Rental}
    (newest : tables.findByUserAndBook userId bookId = some rental)
    (spared : ∀ overdue ∈ tables.findOverdue now, overdue.id ≠ rental.id) :
    (checkAndExpireOverdue tables now).1.findByUserAndBook userId bookId = some rental := by
  simp only [checkAndExpireOverdue]
  generalize tables.findOverdue now = overdue at spared
  induction overdue generalizing tables with
  | nil => exact newest
  | cons listed rest ih =>
    have other := spared listed List.mem_cons_self
    exact ih (RentalsTables.findByUserAndBook_update_ne newest (Ne.symm other))
      fun r hr => spared r (List.mem_cons_of_mem _ hr)

end Specs
end Rentals
