import Hakawi.Payments.PaymobClient

/-!
# The payments service

`createRefund`, `updateStatus` and `handlePaymobWebhook`, each a program over
the calls of the service. Log lines are left out.
-/

namespace Payments

open Common Effects

def PAYMENT_CACHE_NAMESPACE : String := "payment"
def PAYMENTS_CACHE_TAG : String := "payments"

def invalidatePaymentCache (id : Nat) : Handler Unit := do
  call (.invalidateKey PAYMENT_CACHE_NAMESPACE id)
  call (.invalidateTags [PAYMENTS_CACHE_TAG])

def validateStatusTransition (currentStatus newStatus : PaymentStatus) : Except Failure Unit :=
  if newStatus ∈ PAYMENT_TRANSITIONS currentStatus then .ok ()
  else .error (.badRequest
    s!"Invalid payment status transition from {currentStatus} to {newStatus}")

section Validation
variable (platform : Platform)

/-- The fingerprints of the two digests are compared, not the digests. -/
def validateWebhookSignature (rawBody : String) (signature secret : Option String) :
    Except Failure Unit :=
  match secret.filter (· ≠ ""), signature.filter (· ≠ "") with
  | none, _ => .error (.badRequest "Webhook secret is not configured")
  | some _, none => .error (.badRequest "Missing webhook signature")
  | some secret, some signature =>
    let expected := platform.hmacSha256 secret rawBody
    let provided := bufferFromHex signature
    if platform.sha256 expected = platform.sha256 provided then .ok ()
    else .error (.badRequest "Invalid webhook signature")

def validateAmount (amount : Rat) : Except Failure Int :=
  match paymobAmountCentsSchema amount with
  | .ok cents => .ok cents
  | .error issues => .error (.badRequest ("Invalid payment amount: " ++ "; ".intercalate issues))

def validateCurrency (currency : Option String) : Except Failure String :=
  match currency.map platform.trim with
  | none => .error (.badRequest "Invalid payment currency: a three letter ISO 4217 code is required")
  | some trimmed =>
    if trimmed = "" then
      .error (.badRequest "Invalid payment currency: a three letter ISO 4217 code is required")
    else match paymobCurrencySchema (platform.toUpperCase trimmed) with
      | .ok code => .ok code
      | .error issues =>
        .error (.badRequest ("Invalid payment currency: " ++ "; ".intercalate issues))

end Validation

def existingPayment (payment : Option Payment) : Except Failure Payment :=
  match payment with
  | none => .error (.notFound "Payment not found")
  | some payment =>
    if payment.deletedAt.isSome then .error (.notFound "Payment not found") else .ok payment

theorem existingPayment_eq_ok {found : Option Payment} {payment : Payment} :
    existingPayment found = .ok payment ↔ found = some payment ∧ payment.deletedAt = none := by
  unfold existingPayment
  cases found with
  | none => simp
  | some row =>
    simp only [Option.some.injEq]
    constructor
    · intro h
      by_cases hd : row.deletedAt.isSome
      · rw [if_pos hd] at h
        cases h
      · rw [if_neg hd] at h
        obtain rfl := Except.ok.inj h
        exact ⟨rfl, by simpa using hd⟩
    · rintro ⟨rfl, hd⟩
      simp [hd]

theorem validateStatusTransition_eq_ok {old new : PaymentStatus} :
    validateStatusTransition old new = .ok () ↔ new ∈ PAYMENT_TRANSITIONS old := by
  unfold validateStatusTransition
  split <;> simp [*]

def updateStatus (id : Nat) (status : PaymentStatus) : Handler (Option Payment) := do
  let existing ← existingPayment (← call (.findById id))
  validateStatusTransition existing.status status
  let payment ← call (.update id { status := some status })
  invalidatePaymentCache id
  if status = .completed then
    call (.emit (.completed id))
  else if status = .failed then
    call (.emit (.failed id))
  return payment

section Refunds
variable (platform : Platform) (config : PaymobConfig)

/-- Records the failed outcome and emits `refund.failed`. -/
def markRefundFailed (refund : Refund) (errorDetail : List (String × Json)) : Handler Unit := do
  let _ ← call (.updateRefund refund.id
    { status := some .failed, metadata := some (some (.obj errorDetail)) })
  call (.emit (.refundFailed refund.paymentId refund.id))

/-- A failure to release is swallowed: the caller is already raising the real error. -/
def releaseRefundCapacity (paymentId : Nat) : Handler Unit :=
  tryCatch (do
    let _ ← call (.reconcileRefundCapacity paymentId)
    invalidatePaymentCache paymentId)
    fun _ => pure ()

def toRefundAdmissionError : Failure → Failure
  | .refundCapacityExceeded requested alreadyRefunded capturedAmount =>
    .badRequest (Failure.refundCapacityExceeded requested alreadyRefunded capturedAmount).message
  | .refundablePaymentNotFound _ => .notFound "Payment not found"
  | error => error

/-- Undo a reservation, then raise the error the caller deserves. -/
def refuseRefund {α : Type} (refund : Refund) (paymentId : Nat)
    (errorDetail : List (String × Json)) (error : Failure) : Handler α := do
  markRefundFailed refund errorDetail
  releaseRefundCapacity paymentId
  throw error

def MISSING_TRANSACTION_DETAIL : String :=
  "the webhook never delivered a Paymob transaction_id for this payment, " ++
    "so there is nothing to refund upstream"

/-- Record what the gateway answered. -/
def settleRefund (payment : Payment) (refund : Refund) (result : PaymobRefundResult) :
    Handler (Option Refund) := do
  if !result.pending && !result.success then
    refuseRefund refund payment.id
      [("error", .str "gateway reported the refund as unsuccessful"), ("paymob", result.raw)]
      (.serviceUnavailable ("The payment gateway accepted the refund request but reported it " ++
        s!"as unsuccessful (paymobRefundId={result.refundId})"))
  else
    let submitted ← call (.updateRefund refund.id {
      status := some (if result.pending then .pending else .processed)
      paymobRefundId := some (some result.refundId)
      metadata := some (some (.obj [("paymob", result.raw), ("success", .bool result.success),
        ("isRefund", .bool result.isRefund)])) })
    if result.pending then
      return submitted
    call (.emit (.refundCompleted payment.id refund.id))
    return submitted

/-- Sends a reserved refund to the gateway and records the outcome. -/
def submitRefundToGateway (payment : Payment) (refund : Refund) : Handler (Option Refund) :=
  match payment.paymobTransactionId.filter (· ≠ "") with
  | none =>
    refuseRefund refund payment.id
      [("error", .str "missing_paymob_transaction_id"), ("detail", .str MISSING_TRANSACTION_DETAIL)]
      (.badRequest ("The payment cannot be refunded because it has no Paymob transaction id: " ++
        MISSING_TRANSACTION_DETAIL))
  | some transactionId => do
    let result ← tryCatch (refundTransaction platform config transactionId refund.amount)
      fun error => refuseRefund refund payment.id [("error", .str error.message)]
        (.serviceUnavailable ("The payment gateway refused the refund, so it was not submitted: " ++
          error.message))
    settleRefund payment refund result

/-- The locked read inside the transaction decides, not the one before it. -/
def pursueReservation (paymentId : Nat) (reservation : RefundReservation) :
    Handler (Option Refund) := do
  if reservation.payment.status ≠ .completed then
    refuseRefund reservation.refund paymentId [("error", .str "payment is not refundable")]
      (.badRequest "Cannot refund a payment that is not completed")
  else
    call (.emit (.refundCreated paymentId reservation.refund.id))
    invalidatePaymentCache paymentId
    submitRefundToGateway platform config reservation.payment reservation.refund

def createRefund (paymentId : Nat) (amount : Rat) (reason : Option String) :
    Handler (Option Refund) := do
  let requestedAmount ← validateAmount amount
  let payment ← existingPayment (← call (.findById paymentId))
  let currency ← validateCurrency platform (some payment.currency)
  let reservation ← tryCatch
    (call (.reserveRefundCapacity { paymentId, amountCents := requestedAmount, currency, reason }))
    fun error => throw (toRefundAdmissionError error)
  pursueReservation platform config paymentId reservation

end Refunds

section Webhook
variable (platform : Platform) (config : PaymobConfig)

def assertCapturedAmountMatches (payment : Payment) (capturedAmountCents : Option Int) :
    Except Failure Unit :=
  match capturedAmountCents with
  | none => .error (.badRequest ("Webhook payload carries no amount, so the capture cannot be " ++
      s!"verified against payment {payment.id}"))
  | some captured =>
    if captured ≠ payment.amount then
      .error (.badRequest
        s!"Captured amount {captured} does not match the recorded amount {payment.amount}")
    else .ok ()

/-- What a delivery says once it has been authenticated and read. -/
structure Delivery where
  payload : PaymobWebhookPayload
  transactionId : String
  orderId : String

/-- The checks before the first repository call. -/
def readDelivery (rawBody : String) (signature : Option String) : Except Failure Delivery := do
  validateWebhookSignature platform rawBody signature config.webhookSecret
  match (platform.parseJson rawBody).bind paymobWebhookPayloadSchema with
  | none => .error (.badRequest "Invalid webhook payload")
  | some payload =>
    match (payload.resolveWebhookTransactionId platform).filter (· ≠ ""),
      (payload.resolveWebhookOrderId platform).filter (· ≠ "") with
    | none, _ => .error (.badRequest "Missing transaction_id in webhook payload")
    | some _, none => .error (.badRequest "Missing order_id in webhook payload")
    | some transactionId, some orderId => .ok { payload, transactionId, orderId }

/-- The checks between the lookup of the payment and the first write. -/
def acceptDelivery (payment : Payment) (delivery : Delivery) : Except Failure Unit := do
  if delivery.payload.resolveWebhookStatus = .completed then
    assertCapturedAmountMatches payment delivery.payload.resolveWebhookAmountCents
  validateStatusTransition payment.status delivery.payload.resolveWebhookStatus

/-- The status, and the gateway's own ids; the payment's metadata is left alone. -/
def Delivery.patch (delivery : Delivery) (payment : Payment) : PaymentPatch where
  status := some delivery.payload.resolveWebhookStatus
  paymobPaymentId := some (delivery.payload.paymentId <|> payment.paymobPaymentId)
  paymobTransactionId := some delivery.transactionId

/-- The writes of a delivery that names a payment. -/
def recordDelivery (payment : Payment) (delivery : Delivery) (rawBody : String) :
    Handler String := do
  acceptDelivery payment delivery
  let status := delivery.payload.resolveWebhookStatus
  let _ ← call (.update payment.id (delivery.patch payment))
  let _ ← call (.createTransaction {
    paymentId := payment.id
    type := "webhook"
    status
    amount := delivery.payload.resolveWebhookAmountCents.getD payment.amount
    currency := payment.currency
    gatewayResponse := some rawBody })
  invalidatePaymentCache payment.id
  if status = .completed then
    call (.emit (.completed payment.id))
  else if status = .failed then
    call (.emit (.failed payment.id))
  return "processed"

/-- What an accepted delivery has passed. -/
theorem acceptDelivery_eq_ok {payment : Payment} {delivery : Delivery} :
    acceptDelivery payment delivery = .ok () ↔
      delivery.payload.resolveWebhookStatus ∈ PAYMENT_TRANSITIONS payment.status ∧
        (delivery.payload.resolveWebhookStatus = .completed →
          delivery.payload.resolveWebhookAmountCents = some payment.amount) := by
  unfold acceptDelivery
  by_cases hs : delivery.payload.resolveWebhookStatus = .completed
  · simp only [hs, if_true, forall_const]
    cases ha : delivery.payload.resolveWebhookAmountCents with
    | none => simp [assertCapturedAmountMatches, bind, Except.bind]
    | some captured =>
      by_cases hc : captured = payment.amount
      · simp [assertCapturedAmountMatches, bind, Except.bind, hc, validateStatusTransition_eq_ok]
      · simp [assertCapturedAmountMatches, bind, Except.bind, hc]
  · simp [hs, validateStatusTransition_eq_ok]

/-- Handles one Paymob delivery. -/
def handlePaymobWebhook (rawBody : String) (signature : Option String) : Handler String := do
  let delivery ← readDelivery platform config rawBody signature
  let existing ← call (.findByTransactionId delivery.transactionId)
  if existing.map Payment.status = some .completed then
    return "already_processed"
  let payment ← match existing with
    | some payment => pure (some payment)
    | none => call (.findByOrderId delivery.orderId)
  match payment with
  | none => throw (.notFound "Payment not found for webhook")
  | some payment => recordDelivery payment delivery rawBody

end Webhook
end Payments
