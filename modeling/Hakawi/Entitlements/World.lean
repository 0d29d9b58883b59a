import Hakawi.Library.EventHandler
import Hakawi.Payments.Settlement
import Hakawi.Rentals.EventHandler

/-!
# Checkouts, payments and what they entitle to

The books, payments, rentals and library modules on one state. A request runs to
its end, and so does every handler of every event it emits; an exception of a
handler stays with that handler. Every request comes later than the one before.
-/

namespace Entitlements

open Common Payments Rentals Library

structure Book where
  id : String
  ownerId : Option String
  isFree : Bool
  price : Option Int
  deletedAt : Option Int
  deriving DecidableEq

structure World where
  books : List Book
  ledger : Ledger
  rentals : RentalsTables
  shelf : Shelf
  now : Int

/-- Nothing has been bought yet. -/
def World.opening (books : List Book) (now : Int) : World :=
  ⟨books, .empty, .empty, .empty, now⟩

/-- What a listener leaves behind: its exception reaches nobody. -/
def settledOr {α : Type} (before : α) : Except Failure α → α
  | .ok after => after
  | .error _ => before

/-- The library's listeners, one event after the other. -/
def hearRentalEvents (shelf : Shelf) (events : List RentalEvent) : Shelf :=
  events.foldl (fun shelf event => settledOr shelf (shelf.handleRentalEvent event)) shelf

namespace World
variable (world : World)

/-- What the rentals module did, and what the library makes of its announcements. -/
def afterRentals (result : RentalsTables × List RentalEvent) : World :=
  { world with rentals := result.1, shelf := hearRentalEvents world.shelf result.2 }

/-- What the rentals module does about a completed payment. -/
def completion (paymentId : Nat) : RentalsTables × List RentalEvent :=
  settledOr (world.rentals, [])
    (Rentals.handlePaymentCompleted world.ledger world.rentals world.now paymentId)

/-- Both listeners of `payment.completed`. -/
def onPaymentCompleted (paymentId : Nat) : World :=
  let rented := world.afterRentals (world.completion paymentId)
  { rented with
    shelf := settledOr rented.shelf
      (Library.handlePaymentCompleted rented.ledger rented.shelf paymentId) }

/-- What the rentals module does about a refund that settled. -/
def revocation (paymentId : Nat) : RentalsTables × List RentalEvent :=
  settledOr (world.rentals, [])
    (Rentals.handleRefundCompleted world.ledger world.rentals paymentId)

/-- Both listeners of `refund.completed`. -/
def onRefundCompleted (paymentId : Nat) : World :=
  let revoked := world.afterRentals (world.revocation paymentId)
  { revoked with
    shelf := settledOr revoked.shelf
      (Library.handleRefundCompleted revoked.ledger revoked.shelf paymentId) }

/-- A book that is for sale to this reader. -/
def bookForSale (userId bookId : String) (action freeMessage : String) : Except Failure Book :=
  match world.books.find? (·.id = bookId) with
  | none => .error (.notFound "Book not found")
  | some book =>
    if book.deletedAt.isSome then .error (.notFound "Book not found")
    else if book.ownerId = some userId then
      .error (.forbidden ("Cannot " ++ action ++ " your own book"))
    else if book.isFree then .error (.badRequest freeMessage)
    else .ok book

/-- The message of a checkout that the shelf refuses. -/
def alreadyHeld (item : LibraryItem) : Failure :=
  .conflict (if item.status = .owned then "You already own this book"
    else "You already have this book on rental")

def paymentMethodField (paymentMethod : Option String) : List (String × Json) :=
  match paymentMethod with
  | none => []
  | some choice => [("paymentMethod", .str choice)]

/-- Opens the payment of a checkout, or refuses it before anything is written. -/
def checkout (platform : Platform) (userId : String) (gateway : Except Failure String)
    (priced : Except Failure (Int × Json)) : Except Failure PaymobCheckoutResponse × World :=
  match priced with
  | .error error => (.error error, world)
  | .ok (amount, metadata) =>
    let opened := paymobInitializePayment platform world.ledger userId amount RENTAL_CURRENCY
      metadata gateway
    (opened.1, { world with ledger := opened.2 })

def purchase (platform : Platform) (userId bookId : String) (paymentMethod : Option String)
    (gateway : Except Failure String) : Except Failure PaymobCheckoutResponse × World :=
  world.checkout platform userId gateway do
    let book ← world.bookForSale userId bookId "purchase" "This book is free, no purchase needed"
    match world.shelf.findByUserAndBook userId bookId with
    | some existing => throw (alreadyHeld existing)
    | none =>
      return (book.price.getD 0, .obj ([("bookId", .str bookId), ("type", .str "purchase")] ++
        paymentMethodField paymentMethod))

def rent (platform : Platform) (userId bookId : String) (durationDays : Int)
    (paymentMethod : Option String) (gateway : Except Failure String) :
    Except Failure PaymobCheckoutResponse × World :=
  world.checkout platform userId gateway do
    let _book ← world.bookForSale userId bookId "rent"
      "This book is free. Add it to your library instead of renting it."
    if durationDays ∉ RENTAL_DURATION_DAYS then
      throw (.badRequest "Invalid rental duration. Allowed values: 1, 3, 7, 14, 30, 90 days")
    match world.shelf.findByUserAndBook userId bookId with
    | some existing => throw (alreadyHeld existing)
    | none =>
      return (rentalPriceForDays durationDays, .obj ([("bookId", .str bookId),
        ("type", .str "rental"), ("durationDays", .int durationDays)] ++
          paymentMethodField paymentMethod))

def extendRental (platform : Platform) (id : Nat) (extensionDays : Int) (userId : String)
    (paymentMethod : Option String) (gateway : Except Failure String) :
    Except Failure PaymobCheckoutResponse × World :=
  world.checkout platform userId gateway do
    let rental ← world.rentals.extendableRental id extensionDays userId
    return (rentalPriceForDays extensionDays, .obj ([("rentalId", .str (toString id)),
      ("bookId", .str rental.bookId), ("type", .str "rental_extension"),
      ("extensionDays", .int extensionDays)] ++ paymentMethodField paymentMethod))

/-- A payment takes a status. The listeners hear of one that completes. -/
def reportPayment (id : Nat) (status : PaymentStatus) (ids : PaymentPatch) : World :=
  match world.ledger.changeStatus id status ids with
  | .error _ => world
  | .ok ledger =>
    if status = .completed then { world with ledger }.onPaymentCompleted id
    else { world with ledger }

def completePayment (id : Nat) (ids : PaymentPatch) : World :=
  world.reportPayment id .completed ids

/-- A refund request. The listeners hear of one that settles. -/
def refundPayment (input : RefundInput) (outcome : RefundOutcome) (answer : RefundPatch) : World :=
  match world.ledger.requestRefund input outcome answer with
  | .error _ => world
  | .ok (result, ledger) =>
    if result = .processed then { world with ledger }.onRefundCompleted input.paymentId
    else { world with ledger }

def returnRental (id : Nat) (userId : String) : World :=
  match Rentals.returnRental world.rentals world.now id userId with
  | .error _ => world
  | .ok result => world.afterRentals result

def checkAndExpireOverdue : World :=
  world.afterRentals (Rentals.checkAndExpireOverdue world.rentals world.now)

end World

inductive Request where
  | purchase (userId bookId : String) (paymentMethod : Option String)
      (gateway : Except Failure String)
  | rent (userId bookId : String) (durationDays : Int) (paymentMethod : Option String)
      (gateway : Except Failure String)
  | extendRental (rentalId : Nat) (extensionDays : Int) (userId : String)
      (paymentMethod : Option String) (gateway : Except Failure String)
  | report (paymentId : Nat) (status : PaymentStatus) (ids : PaymentPatch)
  | refund (input : RefundInput) (outcome : RefundOutcome) (answer : RefundPatch)
  | returnRental (rentalId : Nat) (userId : String)
  | sweep

namespace World
variable (platform : Platform)

def handle (world : World) : Request → World
  | .purchase userId bookId paymentMethod gateway =>
    (world.purchase platform userId bookId paymentMethod gateway).2
  | .rent userId bookId durationDays paymentMethod gateway =>
    (world.rent platform userId bookId durationDays paymentMethod gateway).2
  | .extendRental rentalId extensionDays userId paymentMethod gateway =>
    (world.extendRental platform rentalId extensionDays userId paymentMethod gateway).2
  | .report paymentId status ids => world.reportPayment paymentId status ids
  | .refund input outcome answer => world.refundPayment input outcome answer
  | .returnRental rentalId userId => world.returnRental rentalId userId
  | .sweep => world.checkAndExpireOverdue

/-- Time passes. -/
def later (world : World) (elapsed : Nat) : World := { world with now := world.now + elapsed + 1 }

/-- A request arrives after some time. -/
def step (world : World) (turn : Nat × Request) : World :=
  (world.later turn.1).handle platform turn.2

/-- A rental is offered for one of the durations on the list. -/
def Offer (metadata : Json) : Prop :=
  metadata.stringField? "type" = some "rental" →
    ∃ days ∈ RENTAL_DURATION_DAYS, metadata.numberField? "durationDays" = some (days : Rat)

/-- What a request can do. -/
inductive Effect (world : World) : Request → World → Prop where
  | refused (request : Request) : Effect world request world
  | opened (request : Request) (userId : String) (metadata : Json) (ledger : Ledger)
      (opens : Opens userId metadata world.ledger ledger) (offer : Offer metadata) :
      Effect world request { world with ledger }
  | reported (id : Nat) (status : PaymentStatus) (ids : PaymentPatch) (ledger : Ledger)
      (changes : world.ledger.changeStatus id status ids = .ok ledger)
      (uncompleted : status ≠ .completed) :
      Effect world (.report id status ids) { world with ledger }
  | completed (id : Nat) (ids : PaymentPatch) (ledger : Ledger)
      (completes : world.ledger.complete id ids = .ok ledger) :
      Effect world (.report id .completed ids) ({ world with ledger }.onPaymentCompleted id)
  | unsettled (input : RefundInput) (outcome result : RefundOutcome) (answer : RefundPatch)
      (ledger : Ledger) (requests : world.ledger.requestRefund input outcome answer =
        .ok (result, ledger)) (unprocessed : result ≠ .processed) :
      Effect world (.refund input outcome answer) { world with ledger }
  | refunded (input : RefundInput) (outcome : RefundOutcome) (answer : RefundPatch)
      (ledger : Ledger) (requests : world.ledger.requestRefund input outcome answer =
        .ok (.processed, ledger)) :
      Effect world (.refund input outcome answer)
        ({ world with ledger }.onRefundCompleted input.paymentId)
  | returned (id : Nat) (userId : String) (result : RentalsTables × List RentalEvent)
      (returns : Rentals.returnRental world.rentals world.now id userId = .ok result) :
      Effect world (.returnRental id userId) (world.afterRentals result)
  | swept : Effect world .sweep world.checkAndExpireOverdue

section Checkouts
variable {platform} {world : World} {userId : String} {gateway : Except Failure String}
  {request : Request}

theorem checkout_effect {priced : Except Failure (Int × Json)}
    (offer : ∀ amount metadata, priced = .ok (amount, metadata) → Offer metadata) :
    Effect world request (world.checkout platform userId gateway priced).2 := by
  unfold checkout
  cases priced with
  | error e => exact .refused request
  | ok charge =>
    obtain ⟨amount, metadata⟩ := charge
    exact .opened request userId metadata _ (paymobInitializePayment_opens ..)
      (offer amount metadata rfl)

theorem offer_of_type {metadata : Json} {type : String}
    (h : metadata.stringField? "type" = some type) (other : type ≠ "rental") : Offer metadata := by
  intro rental
  rw [h] at rental
  exact absurd (Option.some.inj rental) other

theorem purchase_effect {bookId : String} {paymentMethod : Option String} :
    Effect world request (world.purchase platform userId bookId paymentMethod gateway).2 := by
  unfold purchase
  refine checkout_effect fun amount metadata h => ?_
  cases hb : world.bookForSale userId bookId "purchase" "This book is free, no purchase needed" with
  | error e => simp [hb, bind, Except.bind] at h
  | ok book =>
    cases hf : world.shelf.findByUserAndBook userId bookId with
    | some existing => simp [hb, hf, bind, Except.bind, throw, throwThe, MonadExceptOf.throw] at h
    | none =>
      simp only [hb, hf, bind, Except.bind, pure, Except.pure, Except.ok.injEq,
        Prod.mk.injEq] at h
      obtain ⟨-, rfl⟩ := h
      exact offer_of_type rfl (by decide)

theorem rent_effect {bookId : String} {durationDays : Int} {paymentMethod : Option String} :
    Effect world request
      (world.rent platform userId bookId durationDays paymentMethod gateway).2 := by
  unfold rent
  refine checkout_effect fun amount metadata h => ?_
  cases hb : world.bookForSale userId bookId "rent"
      "This book is free. Add it to your library instead of renting it." with
  | error e => simp [hb, bind, Except.bind] at h
  | ok book =>
    by_cases hd : durationDays ∈ RENTAL_DURATION_DAYS
    · cases hf : world.shelf.findByUserAndBook userId bookId with
      | some existing =>
        simp [hb, hf, hd, bind, Except.bind, throw, throwThe, MonadExceptOf.throw] at h
      | none =>
        simp only [hb, hf, hd, not_true_eq_false, if_false, bind, Except.bind, pure, Except.pure,
          Except.ok.injEq, Prod.mk.injEq] at h
        obtain ⟨-, rfl⟩ := h
        exact fun _ => ⟨durationDays, hd, rfl⟩
    · simp [hb, hd, bind, Except.bind, throw, throwThe, MonadExceptOf.throw] at h

theorem extendRental_effect {id : Nat} {extensionDays : Int} {paymentMethod : Option String} :
    Effect world request
      (world.extendRental platform id extensionDays userId paymentMethod gateway).2 := by
  unfold extendRental
  refine checkout_effect fun amount metadata h => ?_
  cases hb : world.rentals.extendableRental id extensionDays userId with
  | error e => simp [hb, bind, Except.bind] at h
  | ok rental =>
    simp only [hb, bind, Except.bind, pure, Except.pure, Except.ok.injEq, Prod.mk.injEq] at h
    obtain ⟨-, rfl⟩ := h
    exact offer_of_type rfl (by decide)

end Checkouts

theorem completePayment_eq {world : World} {id : Nat} {ids : PaymentPatch} {ledger : Ledger}
    (h : world.ledger.complete id ids = .ok ledger) :
    world.completePayment id ids = { world with ledger }.onPaymentCompleted id := by
  rw [Ledger.complete] at h
  simp only [completePayment, reportPayment, h, if_true]

theorem handle_effect (world : World) (request : Request) :
    Effect world request (world.handle platform request) := by
  cases request with
  | purchase userId bookId paymentMethod gateway => exact purchase_effect
  | rent userId bookId durationDays paymentMethod gateway => exact rent_effect
  | extendRental rentalId extensionDays userId paymentMethod gateway => exact extendRental_effect
  | report id status ids =>
    simp only [handle, reportPayment]
    cases h : world.ledger.changeStatus id status ids with
    | error e => exact .refused _
    | ok ledger =>
      by_cases completed : status = .completed
      · subst completed
        exact .completed id ids ledger h
      · simp only [if_neg completed]
        exact .reported id status ids ledger h completed
  | refund input outcome answer =>
    simp only [handle, refundPayment]
    cases h : world.ledger.requestRefund input outcome answer with
    | error e => exact .refused _
    | ok requested =>
      obtain ⟨result, ledger⟩ := requested
      by_cases settled : result = .processed
      · subst settled
        exact .refunded input outcome answer ledger h
      · simp only [if_neg settled]
        exact .unsettled input outcome result answer ledger h settled
  | returnRental id userId =>
    simp only [handle, returnRental]
    cases h : Rentals.returnRental world.rentals world.now id userId with
    | error e => exact .refused _
    | ok result => exact .returned id userId result h
  | sweep => exact .swept

end World

/-- A book for sale, and one reader's checkouts of it. -/
def novel : Book := ⟨"novel", none, false, some 5000, none⟩

def buyNovel : Request := .purchase "reader" "novel" none (.ok "order")

def rentNovel (days : Int) : Request := .rent "reader" "novel" days none (.ok "order")

end Entitlements
