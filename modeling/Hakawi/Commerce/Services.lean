import Hakawi.Commerce.Calls
import Hakawi.Rentals.Stepwise

/-!
# Payments, rentals and the access to books

The operations of the payments and the rentals service, the handlers of payments that completed
and of refunds that settled, and what the books service decides about a reader's access.
-/

namespace Commerce
open Html Common Effects Caching Payments Rentals Library

def PAYMENT_CACHE_TTL_SECONDS : Int := 300

def RENTAL_CACHE_NAMESPACE : Units := units "rental"

def RENTALS_CACHE_TAG : Units := units "rentals"

def RENTAL_CACHE_TTL_SECONDS : Int := 300

def BOOK_CACHE_NAMESPACE : Units := units "book"

def BOOKS_CACHE_TAG : Units := units "books"

structure CreatePayment where
  userId : String
  amount : Rat
  currency : Option String := none
  paymentMethod : String
  metadata : Option Json := none

namespace PaymentsService
variable (texts : RowTexts) (platform : Platform) (config : PaymobConfig)

def invalidatePaymentCache (id : Nat) : Method Unit :=
  payments texts (Payments.invalidatePaymentCache id)

def failPaymentAfterGatewayError (paymentId : Nat) : Method Unit := do
  let _ ← query (.updatePayment paymentId { status := some .failed })
  invalidatePaymentCache texts paymentId
  emit (.payment (.failed paymentId))

def checkoutUnavailable (error : Failure) : Failure :=
  .serviceUnavailable
    ("The payment gateway is unavailable, so no checkout URL was created: " ++ error.message)

def registerPaymobCheckout (payment : Payment) (amountCents : Int) (currency : String) :
    Method (Option Payment × PaymobCheckoutResponse) := do
  let orderId ← tryCatch (createCheckout amountCents currency payment.id) fun error => do
    failPaymentAfterGatewayError texts payment.id
    throw (checkoutUnavailable error)
  let updated ← query (.updatePayment payment.id
    { paymobOrderId := some orderId, status := some .processing })
  invalidatePaymentCache texts payment.id
  return (updated, ⟨payment.id, orderId⟩)

/-- The payment as it is inserted. -/
def insertPayment (input : CreatePayment) : Method Payment := do
  let currency ← validateCurrency platform (some (input.currency.getD "EGP"))
  let amount ← validateAmount input.amount
  let payment ← query (.createPayment
    { userId := input.userId, amount, currency, status := .pending, metadata := input.metadata })
  emit (.payment (.created payment.id))
  return payment

def createPayment (input : CreatePayment) (initializeGateway : Bool) : Method (Option Payment) := do
  let payment ← insertPayment platform input
  if initializeGateway = false then return some payment
  else if input.paymentMethod ≠ "paymob" then
    throw (.badRequest ("initializeGateway is only supported for the paymob payment method, " ++
      s!"received \"{input.paymentMethod}\""))
  else
    let initialized ← registerPaymobCheckout texts payment payment.amount payment.currency
    return initialized.1

def paymobInitializePayment (userId : String) (amount : Rat) (currency : String) (metadata : Json) :
    Method PaymobCheckoutResponse := do
  let payment ← insertPayment platform
    { userId, amount, currency := some currency, paymentMethod := "paymob"
      metadata := some metadata }
  let validatedCurrency ← validateCurrency platform (some payment.currency)
  let initialized ← registerPaymobCheckout texts payment payment.amount validatedCurrency
  return initialized.2

def loadPayment (id : Nat) : Method Payment := do
  existingPayment (← query (.findPayment id))

def findById (id : Nat) : Method Payment :=
  getOrSet (paymentJson texts) (units PAYMENT_CACHE_NAMESPACE) (texts.ids.print id)
    PAYMENT_CACHE_TTL_SECONDS (units PAYMENTS_CACHE_TAG) (loadPayment id)

def createTransaction (paymentId : Nat) (type : String) (status : PaymentStatus) (amount : Int)
    (gatewayResponse : Option String) : Method PaymentTransaction := do
  let payment ← loadPayment paymentId
  query (.createTransaction
    { paymentId, type, status, amount, currency := payment.currency, gatewayResponse })

end PaymentsService

/-- What is asked of the payments service. -/
inductive PaymentsRequest where
  | createPayment (input : CreatePayment) (initializeGateway : Bool)
  | getAdminStats
  | findById (id : Nat)
  | findByOrderId (orderId : String)
  | findAll (params : PaymentFilter)
  | updateStatus (id : Nat) (status : PaymentStatus)
  | createTransaction (paymentId : Nat) (type : String) (status : PaymentStatus) (amount : Int)
      (gatewayResponse : Option String)
  | createRefund (paymentId : Nat) (amount : Rat) (reason : Option String)
  | paymobInitializePayment (userId : String) (amount : Rat) (currency : String) (metadata : Json)
  | getRefunds (paymentId : Nat)
  | handlePaymobWebhook (rawBody : String) (signature : Option String)

namespace PaymentsRequest

abbrev Answer : PaymentsRequest → Type
  | createPayment _ _ => Option Payment
  | getAdminStats => AdminStats
  | findById _ => Payment
  | findByOrderId _ => Option Payment
  | findAll _ => List Payment × Nat
  | updateStatus _ _ => Option Payment
  | createTransaction _ _ _ _ _ => PaymentTransaction
  | createRefund _ _ _ => Option Refund
  | paymobInitializePayment _ _ _ _ => PaymobCheckoutResponse
  | getRefunds _ => List Refund
  | handlePaymobWebhook _ _ => String

variable (texts : RowTexts) (platform : Platform) (config : PaymobConfig)

def run : (request : PaymentsRequest) → Method request.Answer
  | createPayment input initializeGateway =>
    PaymentsService.createPayment texts platform input initializeGateway
  | getAdminStats => query .paymentStats
  | findById id => PaymentsService.findById texts id
  | findByOrderId orderId => query (.findPaymentByOrderId orderId)
  | findAll params => query (.findPayments params)
  | updateStatus id status => payments texts (Payments.updateStatus id status)
  | createTransaction paymentId type status amount gatewayResponse =>
    PaymentsService.createTransaction paymentId type status amount gatewayResponse
  | createRefund paymentId amount reason =>
    payments texts (Payments.createRefund platform config paymentId amount reason)
  | paymobInitializePayment userId amount currency metadata =>
    PaymentsService.paymobInitializePayment texts platform userId amount currency metadata
  | getRefunds paymentId => query (.findRefundsByPayment paymentId)
  | handlePaymobWebhook rawBody signature =>
    payments texts (Payments.handlePaymobWebhook platform config rawBody signature)

end PaymentsRequest

def invalidateRentalCache (texts : RowTexts) (id : Nat) : Method Unit :=
  cache (TaggedCacheService.invalidateKey RENTAL_CACHE_NAMESPACE (texts.ids.print id)
    [RENTALS_CACHE_TAG] : CacheCalls Rental Unit)

namespace RentalsService
variable (texts : RowTexts) (platform : Platform)

/-- The rental, if it is there and, where a reader is given, the reader's. -/
def visibleRental (found : Option Rental) (userId : Option String) : Except Failure Rental :=
  match found with
  | none => .error (.notFound "Rental not found")
  | some rental =>
    if rental.deletedAt.isSome then .error (.notFound "Rental not found")
    else if ∃ reader ∈ userId.filter (· ≠ ""), rental.userId ≠ reader then
      .error (.forbidden "You do not have access to this rental")
    else .ok rental

def loadRental (id : Nat) (userId : Option String) : Method Rental := do
  visibleRental (← query (.findRental id)) userId

def findById (id : Nat) (userId : Option String) : Method Rental := do
  let rental ← getOrSet (rentalJson texts) RENTAL_CACHE_NAMESPACE (texts.ids.print id)
    RENTAL_CACHE_TTL_SECONDS RENTALS_CACHE_TAG (loadRental id userId)
  if ∃ reader ∈ userId.filter (· ≠ ""), rental.userId ≠ reader then
    throw (.forbidden "You do not have access to this rental")
  else return rental

def findActiveRentalForBook (userId bookId : String) : Method (Option Rental) := do
  match ← query (.findRentalByUserAndBook userId bookId) with
  | none => return none
  | some rental =>
    if rental.deletedAt.isSome then return none
    else if rental.status ≠ .active then return none
    else
      let time ← now
      if rental.endDate ≤ time then return none else return some rental

/-- The checks of `extendRental` on the rental it has found. -/
def extendable (found : Option Rental) (extensionDays : Int) (userId : String) :
    Except Failure Rental := do
  let rental ← Stepwise.ownRental found userId
  if rental.status ≠ .active then
    throw (.forbidden "Cannot extend a non-active rental")
  else if rental.extendedCount ≥ rental.maxExtensions then
    throw (.forbidden "Maximum extensions reached for this rental")
  else if extensionDays ∉ RENTAL_DURATION_DAYS then
    throw (.badRequest
      "Invalid extension duration. Allowed values: 1, 3, 7, 14, 30, 90 days")
  else return rental

def extendRental (id : Nat) (extensionDays : Int) (userId : String)
    (paymentMethod : Option String) : Method PaymobCheckoutResponse := do
  let rental ← extendable (← query (.findRental id)) extensionDays userId
  PaymentsService.paymobInitializePayment texts platform userId (rentalPriceForDays extensionDays)
    RENTAL_CURRENCY (.obj ([("rentalId", .str (toString id)), ("bookId", .str rental.bookId),
      ("type", .str "rental_extension"), ("extensionDays", .int extensionDays)] ++
        Entitlements.World.paymentMethodField paymentMethod))

def returnRental (id : Nat) (userId : String) : Method (Option Rental) := do
  let rental ← Stepwise.ownRental (← query (.findRental id)) userId
  if rental.status = .returned then throw (.forbidden "Rental has already been returned")
  else
    let returnedAt ← now
    let updated ← query (.updateRental id
      { status := some .returned, returnedAt := some (some returnedAt) })
    invalidateRentalCache texts id
    emit (.rental (.returned id))
    return updated

def expire (rental : Rental) : Method Unit := do
  let _ ← query (.updateRental rental.id { status := some .expired })
  invalidateRentalCache texts rental.id
  emit (.rental (.expired rental.id))

def checkAndExpireOverdue : Method Unit := do
  let time ← now
  let overdueRentals ← query (.findOverdue time)
  forM overdueRentals (expire texts)

end RentalsService

namespace RentalsEventHandler
variable (texts : RowTexts)

/-- Moves the end date, and leaves the cached copy of the rental alone. -/
def applyExtension (payment : Payment) : Method Unit :=
  match (payment.metaString "rentalId").bind readId, metaDays payment "extensionDays" with
  | some rentalId, some extensionDays => do
    match ← query (.findRental rentalId) with
    | none => return ()
    | some rental =>
      if rental.deletedAt.isSome ∨ rental.userId ≠ payment.userId ∨
          rental.extendedCount ≥ rental.maxExtensions then return ()
      else
        let newEndDate := addDays rental.endDate extensionDays
        query (.createExtension rentalId rental.endDate newEndDate extensionDays)
        let _ ← query (.updateRental rentalId
          { endDate := some newEndDate, extendedCount := some (rental.extendedCount + 1) })
        emit (.rental (.extended rentalId))
  | _, _ => return ()

def grantRental (payment : Payment) : Method Unit :=
  match payment.metaBookId, metaDays payment "durationDays" with
  | some bookId, some durationDays => do
    let existing ← query (.findRentalByUserAndBook payment.userId bookId)
    if existing.map Rental.status = some .active then return ()
    else
      let time ← now
      let rental ← query (.createRental time payment.userId bookId durationDays)
      emit (.rental (.created rental.id payment.userId bookId))
  | _, _ => return ()

def handlePaymentCompleted (paymentId : Nat) : Method Unit := do
  match ← query (.findPayment paymentId) with
  | none => throw (.notFound s!"Payment {paymentId} not found while granting a rental")
  | some payment =>
    if payment.metaString "type" = some "rental_extension" then applyExtension payment
    else if payment.metaString "type" = some "rental" then grantRental payment
    else return ()

def revokeRental (payment : Payment) : Method Unit :=
  match payment.metaBookId with
  | none => return ()
  | some bookId => do
    match ← query (.findRentalByUserAndBook payment.userId bookId) with
    | none => return ()
    | some rental =>
      if rental.deletedAt.isSome ∨ rental.status = .expired ∨ rental.status = .returned then
        return ()
      else RentalsService.expire texts rental

def handleRefundCompleted (paymentId : Nat) : Method Unit := do
  match ← query (.findPayment paymentId) with
  | none => throw (.notFound s!"Payment {paymentId} not found while revoking a rental")
  | some payment =>
    if payment.metaString "type" = some "rental" then revokeRental texts payment else return ()

end RentalsEventHandler

namespace BooksService
variable (texts : RowTexts) (platform : Platform)

def invalidateBookCache (id : String) (isbn : Option String) : Method Unit := do
  cache (TaggedCacheService.invalidateKey BOOK_CACHE_NAMESPACE (units id) [BOOKS_CACHE_TAG] :
    CacheCalls Unit Unit)
  match isbn.filter (· ≠ "") with
  | none => return ()
  | some isbn => cache (TaggedCacheService.invalidateKey BOOK_CACHE_NAMESPACE
      (units "isbn:" ++ units isbn) [BOOKS_CACHE_TAG] : CacheCalls Unit Unit)

/-- A book that is there. -/
def existingBook (found : Option BookRow) : Except Failure BookRow :=
  match found with
  | none => .error (.notFound "Book not found")
  | some book => if book.deletedAt.isSome then .error (.notFound "Book not found") else .ok book

/-- A book that is for sale to this reader. -/
def bookForSale (found : Option BookRow) (userId action freeMessage : String) :
    Except Failure BookRow := do
  let book ← existingBook found
  if book.ownerId = some userId then throw (.forbidden ("Cannot " ++ action ++ " your own book"))
  else if book.isFree then throw (.badRequest freeMessage)
  else return book

def purchase (userId bookId : String) (paymentMethod : Option String) :
    Method PaymobCheckoutResponse := do
  let book ← bookForSale (← query (.findBook bookId)) userId "purchase"
    "This book is free, no purchase needed"
  match ← query (.findItemByUserAndBook userId bookId) with
  | some existing => throw (Entitlements.World.alreadyHeld existing)
  | none =>
    query (.incrementViewCount bookId)
    invalidateBookCache bookId book.isbn
    PaymentsService.paymobInitializePayment texts platform userId (book.price.getD 0) "EGP"
      (.obj ([("bookId", .str bookId), ("type", .str "purchase")] ++
        Entitlements.World.paymentMethodField paymentMethod))

def rent (userId bookId : String) (durationDays : Int) (paymentMethod : Option String) :
    Method PaymobCheckoutResponse := do
  let book ← bookForSale (← query (.findBook bookId)) userId "rent"
    "This book is free. Add it to your library instead of renting it."
  if durationDays ∉ RENTAL_DURATION_DAYS then
    throw (.badRequest "Invalid rental duration. Allowed values: 1, 3, 7, 14, 30, 90 days")
  else match ← query (.findItemByUserAndBook userId bookId) with
    | some existing => throw (Entitlements.World.alreadyHeld existing)
    | none =>
      query (.incrementViewCount bookId)
      invalidateBookCache bookId book.isbn
      PaymentsService.paymobInitializePayment texts platform userId
        (rentalPriceForDays durationDays) RENTAL_CURRENCY (.obj ([("bookId", .str bookId),
          ("type", .str "rental"), ("durationDays", .int durationDays)] ++
            Entitlements.World.paymentMethodField paymentMethod))

def assertReadAccess (book : BookRow) (userId : String) : Method Unit := do
  if book.isFree then return ()
  else
    let entry ← query (.findItemByUserAndBook userId book.id)
    if entry.map LibraryItem.status = some .owned then return ()
    else match ← RentalsService.findActiveRentalForBook userId book.id with
      | some _ => return ()
      | none => throw (.forbidden
          "You do not have access to this book. Purchase it or rent it to add it to your library.")

def recordDownload (id userId : String) : Method BookRow := do
  let book ← existingBook (← query (.findBook id))
  assertReadAccess book userId
  query (.incrementDownloadCount id)
  invalidateBookCache id book.isbn
  return book

end BooksService
end Commerce
