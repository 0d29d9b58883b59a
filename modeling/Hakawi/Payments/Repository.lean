import Hakawi.Payments.Schema

/-!
# The payments repository

Each method is one atomic step on the ledger. A method that throws inside its
transaction returns no ledger at all, which is the rollback.
-/

namespace Payments

open Common Store

structure PaymentPatch where
  status : Option PaymentStatus := none
  paymobOrderId : Option String := none
  paymobPaymentId : Option (Option String) := none
  paymobTransactionId : Option String := none

namespace PaymentPatch

def apply (patch : PaymentPatch) (payment : Payment) : Payment :=
  { payment with
    status := patch.status.getD payment.status
    paymobOrderId := patch.paymobOrderId <|> payment.paymobOrderId
    paymobPaymentId := patch.paymobPaymentId.getD payment.paymobPaymentId
    paymobTransactionId := patch.paymobTransactionId <|> payment.paymobTransactionId }

@[simp] theorem apply_id (patch : PaymentPatch) (payment : Payment) :
    (patch.apply payment).id = payment.id := rfl

end PaymentPatch

structure RefundPatch where
  status : Option RefundStatus := none
  paymobRefundId : Option (Option String) := none
  metadata : Option (Option Json) := none

namespace RefundPatch

def apply (patch : RefundPatch) (refund : Refund) : Refund :=
  { refund with
    status := patch.status.getD refund.status
    paymobRefundId := patch.paymobRefundId.getD refund.paymobRefundId
    metadata := patch.metadata.getD refund.metadata }

@[simp] theorem apply_id (patch : RefundPatch) (refund : Refund) :
    (patch.apply refund).id = refund.id := rfl

end RefundPatch

structure CreatePaymentInput where
  userId : String
  amount : Int
  currency : String
  status : PaymentStatus
  metadata : Option Json

structure NewTransaction where
  paymentId : Nat
  type : String
  status : PaymentStatus
  amount : Int
  currency : String
  gatewayResponse : Option String

structure RefundInput where
  paymentId : Nat
  amountCents : Int
  currency : String
  reason : Option String

/-- Everything a caller needs to know about a refund that was admitted. -/
structure RefundReservation where
  /-- The payment row as it was read under the row lock, before the reservation. -/
  payment : Payment
  refund : Refund
  alreadyRefunded : Int
  reservedTotal : Int
  paymentFullyRefunded : Bool

structure RefundCapacityReconciliation where
  payment : Payment
  reservedTotal : Int
  paymentFullyRefunded : Bool

namespace Ledger

def findById (ledger : Ledger) (id : Nat) : Option Payment := ledger.payments.find? id

def findByOrderId (ledger : Ledger) (orderId : String) : Option Payment :=
  ledger.payments.rows.find? fun p => p.paymobOrderId = some orderId

def findByTransactionId (ledger : Ledger) (transactionId : String) : Option Payment :=
  ledger.payments.rows.find? fun p => p.paymobTransactionId = some transactionId

def modifyPayment (ledger : Ledger) (id : Nat) (patch : PaymentPatch) : Ledger :=
  { ledger with payments := ledger.payments.modify id patch.apply patch.apply_id }

/-- `payments_transaction_id_idx`: another payment already carries the transaction id. -/
def TransactionTaken (ledger : Ledger) (id : Nat) (patch : PaymentPatch) : Prop :=
  ∃ p ∈ ledger.payments.rows,
    p.id ≠ id ∧ patch.paymobTransactionId.isSome ∧
      p.paymobTransactionId = patch.paymobTransactionId

instance (ledger : Ledger) (id : Nat) (patch : PaymentPatch) :
    Decidable (ledger.TransactionTaken id patch) :=
  inferInstanceAs (Decidable (∃ p ∈ ledger.payments.rows, _))

def update (ledger : Ledger) (id : Nat) (patch : PaymentPatch) :
    Except Failure (Option Payment × Ledger) :=
  if ledger.TransactionTaken id patch then
    .error (.uniqueViolation "payments_transaction_id_idx")
  else
    .ok ((ledger.findById id).map patch.apply, ledger.modifyPayment id patch)

def create (ledger : Ledger) (data : CreatePaymentInput) : Payment × Ledger :=
  let row := fun id =>
    { id, userId := data.userId, amount := data.amount, currency := data.currency,
      status := data.status, paymobOrderId := none, paymobPaymentId := none,
      paymobTransactionId := none, metadata := data.metadata, deletedAt := none : Payment }
  (row ledger.payments.next,
    { ledger with payments := ledger.payments.insert row fun _ => rfl })

/-- A ledger with one payment of 100 minor units that was registered at the gateway. -/
def single (status : PaymentStatus) (transactionId : Option String) : Ledger :=
  (empty.create ⟨"reader", 100, "EGP", status, none⟩).2.modifyPayment 0
    { paymobOrderId := some "11", paymobTransactionId := transactionId }

/-- The insert names neither `id` nor `created_at`. -/
def createTransaction (schema : TransactionsSchema) (ledger : Ledger) (data : NewTransaction) :
    Except Failure (PaymentTransaction × Ledger) :=
  if !schema.idHasDefault then .error (.notNullViolation "id")
  else if !schema.createdAtHasDefault then .error (.notNullViolation "created_at")
  else
    let row := fun id => { data with id : PaymentTransaction }
    .ok (row ledger.transactions.next,
      { ledger with transactions := ledger.transactions.insert row fun _ => rfl })

def updateRefund (ledger : Ledger) (id : Nat) (patch : RefundPatch) : Option Refund × Ledger :=
  ((ledger.refunds.find? id).map patch.apply,
    { ledger with refunds := ledger.refunds.modify id patch.apply patch.apply_id })

/-- `Number.isSafeInteger(total) && total >= 0` -/
def UsableTotal (total : Int) : Prop := 0 ≤ total ∧ total ≤ 9007199254740991

instance (total : Int) : Decidable (UsableTotal total) := inferInstanceAs (Decidable (_ ∧ _))

def sumReservedRefunds (ledger : Ledger) (paymentId : Nat) : Except Failure Int :=
  let total := ledger.reservedTotal paymentId
  if UsableTotal total then .ok total
  else .error (.error s!"Refund capacity for payment {paymentId} is not a usable integer amount")

def setStatus (ledger : Ledger) (paymentId : Nat) (status : PaymentStatus) : Ledger :=
  ledger.modifyPayment paymentId { status := some status }

def insertRefund (ledger : Ledger) (input : RefundInput) : Refund × Ledger :=
  let row := fun id =>
    { id, paymentId := input.paymentId, amount := input.amountCents, currency := input.currency,
      reason := input.reason, status := .pending, paymobRefundId := none,
      metadata := none : Refund }
  (row ledger.refunds.next,
    { ledger with refunds := ledger.refunds.insert row fun _ => rfl })

def lockPayment (ledger : Ledger) (paymentId : Nat) : Except Failure Payment :=
  match ledger.findById paymentId with
  | none => .error (.refundablePaymentNotFound paymentId)
  | some payment =>
    if payment.deletedAt.isSome then .error (.refundablePaymentNotFound paymentId) else .ok payment

/-- The insert, and the status flip when it reaches the cap. -/
def admitRefund (ledger : Ledger) (payment : Payment) (alreadyRefunded : Int)
    (input : RefundInput) : RefundReservation × Ledger :=
  let reservedTotal := alreadyRefunded + input.amountCents
  let paymentFullyRefunded := decide (reservedTotal = payment.amount)
  let inserted := ledger.insertRefund input
  ({ payment, refund := inserted.1, alreadyRefunded, reservedTotal, paymentFullyRefunded },
    if paymentFullyRefunded ∧ payment.status ≠ .refunded then
      inserted.2.setStatus input.paymentId .refunded
    else inserted.2)

/-- The capacity check, the insert and the status flip, in one transaction that
holds the lock on the payment row. -/
def reserveRefundCapacity (ledger : Ledger) (input : RefundInput) :
    Except Failure (RefundReservation × Ledger) := do
  let payment ← ledger.lockPayment input.paymentId
  let alreadyRefunded ← ledger.sumReservedRefunds input.paymentId
  if alreadyRefunded + input.amountCents > payment.amount then
    throw (.refundCapacityExceeded input.amountCents alreadyRefunded payment.amount)
  else
    return ledger.admitRefund payment alreadyRefunded input

/-- Only the two states a reservation can leave behind are corrected. -/
def repairDerivedStatus (ledger : Ledger) (payment : Payment) (paymentFullyRefunded : Bool) :
    Payment × Ledger :=
  if paymentFullyRefunded ∧ payment.status = .completed then
    ({ payment with status := .refunded }, ledger.setStatus payment.id .refunded)
  else if ¬ paymentFullyRefunded ∧ payment.status = .refunded then
    ({ payment with status := .completed }, ledger.setStatus payment.id .completed)
  else (payment, ledger)

def reconcileRefundCapacity (ledger : Ledger) (paymentId : Nat) :
    Except Failure (RefundCapacityReconciliation × Ledger) := do
  let payment ← ledger.lockPayment paymentId
  let reservedTotal ← ledger.sumReservedRefunds paymentId
  let paymentFullyRefunded := decide (reservedTotal ≥ payment.amount)
  let corrected := ledger.repairDerivedStatus payment paymentFullyRefunded
  return ({ payment := corrected.1, reservedTotal, paymentFullyRefunded }, corrected.2)

def amountOf (ledger : Ledger) (id : Nat) : Option Int := (ledger.findById id).map Payment.amount

theorem findById_modifyPayment (ledger : Ledger) (id j : Nat) (patch : PaymentPatch) :
    (ledger.modifyPayment id patch).findById j =
      if j = id then (ledger.findById j).map patch.apply else ledger.findById j :=
  Table.find?_modify _ _ _ patch.apply_id _

theorem statusOf_eq (ledger : Ledger) (id : Nat) :
    ledger.statusOf id = (ledger.findById id).map Payment.status := rfl

theorem findById_setStatus {ledger : Ledger} {id : Nat} {payment : Payment}
    (h : ledger.findById id = some payment) (status : PaymentStatus) :
    (ledger.setStatus id status).findById id = some { payment with status } := by
  rw [setStatus, findById_modifyPayment, if_pos rfl, h]
  rfl

theorem statusOf_setStatus {ledger : Ledger} {id : Nat} {payment : Payment}
    (h : ledger.findById id = some payment) (status : PaymentStatus) :
    (ledger.setStatus id status).statusOf id = some status := by
  rw [statusOf_eq, findById_setStatus h]
  rfl

@[simp] theorem amountOf_modifyPayment (ledger : Ledger) (id j : Nat) (patch : PaymentPatch) :
    (ledger.modifyPayment id patch).amountOf j = ledger.amountOf j := by
  unfold amountOf
  rw [findById_modifyPayment]
  split
  · cases ledger.findById j <;> rfl
  · rfl

@[simp] theorem amountOf_setStatus (ledger : Ledger) (id j : Nat) (status : PaymentStatus) :
    (ledger.setStatus id status).amountOf j = ledger.amountOf j :=
  amountOf_modifyPayment _ _ _ _

theorem reservedTotal_congr {ledger after : Ledger} (h : after.refunds = ledger.refunds) (id : Nat) :
    after.reservedTotal id = ledger.reservedTotal id := by
  simp only [reservedTotal, h]

theorem find?_insertRefund (ledger : Ledger) (input : RefundInput) (id : Nat) :
    (ledger.insertRefund input).2.refunds.find? id =
      if id = ledger.refunds.next then some (ledger.insertRefund input).1
      else ledger.refunds.find? id :=
  Table.find?_insert _ _ _ _

theorem reservedTotal_insertRefund (ledger : Ledger) (input : RefundInput) :
    (ledger.insertRefund input).2.reservedTotal input.paymentId =
      ledger.reservedTotal input.paymentId + input.amountCents := by
  have counted : Refund.reserved input.paymentId (ledger.insertRefund input).1 =
      input.amountCents := if_pos ⟨rfl, by simp [Refund.HoldsCapacity, insertRefund,
        REFUND_CAPACITY_STATUSES]⟩
  rw [← counted]
  exact Table.total_insert _ _ _ _

theorem reservedTotal_updateRefund {ledger : Ledger} {id : Nat} {refund : Refund}
    (h : ledger.refunds.find? id = some refund) (patch : RefundPatch) (paymentId : Nat) :
    (ledger.updateRefund id patch).2.reservedTotal paymentId =
      ledger.reservedTotal paymentId - refund.reserved paymentId +
        (patch.apply refund).reserved paymentId :=
  Table.total_modify _ patch.apply_id h

section Admission
variable (ledger : Ledger) (payment : Payment) (already : Int) (input : RefundInput)

@[simp] theorem admitRefund_refunds :
    (ledger.admitRefund payment already input).2.refunds = (ledger.insertRefund input).2.refunds := by
  simp only [admitRefund]
  split <;> rfl

@[simp] theorem admitRefund_gatewayRefunds :
    (ledger.admitRefund payment already input).2.gatewayRefunds = ledger.gatewayRefunds := by
  simp only [admitRefund]
  split <;> rfl

@[simp] theorem admitRefund_amountOf (id : Nat) :
    (ledger.admitRefund payment already input).2.amountOf id = ledger.amountOf id := by
  simp only [admitRefund]
  split
  · rw [amountOf_setStatus]
    rfl
  · rfl

theorem admitRefund_findById_ne {id : Nat} (h : id ≠ input.paymentId) :
    (ledger.admitRefund payment already input).2.findById id = ledger.findById id := by
  simp only [admitRefund]
  split
  · rw [setStatus, findById_modifyPayment, if_neg h]
    rfl
  · rfl

/-- A reservation that reaches the cap leaves the payment `refunded`. -/
theorem admitRefund_findById (h : ledger.findById input.paymentId = some payment) :
    (ledger.admitRefund payment already input).2.findById input.paymentId =
      some { payment with
        status := if already + input.amountCents = payment.amount then .refunded
          else payment.status } := by
  have inserted : (ledger.insertRefund input).2.findById input.paymentId = some payment := h
  by_cases hc : already + input.amountCents = payment.amount
  · by_cases hs : payment.status = .refunded
    · have same : ({ payment with status := .refunded } : Payment) = payment := by rw [← hs]
      simp [admitRefund, hc, hs, inserted, same]
    · simp [admitRefund, hc, hs, findById_setStatus inserted]
  · simp [admitRefund, hc, inserted]

end Admission

section Repair
variable (ledger : Ledger) (payment : Payment) (full : Bool)

@[simp] theorem repairDerivedStatus_refunds :
    (ledger.repairDerivedStatus payment full).2.refunds = ledger.refunds := by
  unfold repairDerivedStatus
  split
  · rfl
  · split <;> rfl

@[simp] theorem repairDerivedStatus_gatewayRefunds :
    (ledger.repairDerivedStatus payment full).2.gatewayRefunds = ledger.gatewayRefunds := by
  unfold repairDerivedStatus
  split
  · rfl
  · split <;> rfl

@[simp] theorem repairDerivedStatus_amountOf (id : Nat) :
    (ledger.repairDerivedStatus payment full).2.amountOf id = ledger.amountOf id := by
  unfold repairDerivedStatus
  split
  · exact amountOf_setStatus _ _ _ _
  · split
    · exact amountOf_setStatus _ _ _ _
    · rfl

end Repair

theorem sumReservedRefunds_ok {ledger : Ledger} {id : Nat} {total : Int}
    (h : ledger.sumReservedRefunds id = .ok total) :
    total = ledger.reservedTotal id ∧ UsableTotal total := by
  simp only [sumReservedRefunds] at h
  split at h
  · obtain rfl := Except.ok.inj h
    exact ⟨rfl, by assumption⟩
  · cases h

theorem lockPayment_eq_ok {ledger : Ledger} {id : Nat} {payment : Payment} :
    ledger.lockPayment id = .ok payment ↔
      ledger.findById id = some payment ∧ payment.deletedAt = none := by
  unfold lockPayment
  cases ledger.findById id with
  | none => simp
  | some found =>
    simp only [Option.some.injEq]
    constructor
    · intro h
      by_cases hd : found.deletedAt.isSome
      · rw [if_pos hd] at h
        cases h
      · rw [if_neg hd] at h
        obtain rfl := Except.ok.inj h
        exact ⟨rfl, by simpa using hd⟩
    · rintro ⟨rfl, hd⟩
      simp [hd]

/-- What a reservation that is admitted finds and leaves behind. -/
theorem reserveRefundCapacity_ok {ledger : Ledger} {input : RefundInput}
    {admitted : RefundReservation × Ledger}
    (h : ledger.reserveRefundCapacity input = .ok admitted) :
    ∃ payment, ledger.lockPayment input.paymentId = .ok payment ∧
      UsableTotal (ledger.reservedTotal input.paymentId) ∧
      ledger.reservedTotal input.paymentId + input.amountCents ≤ payment.amount ∧
      admitted = ledger.admitRefund payment (ledger.reservedTotal input.paymentId) input := by
  unfold reserveRefundCapacity at h
  cases hl : ledger.lockPayment input.paymentId with
  | error e =>
    simp only [hl, bind, Except.bind] at h
    cases h
  | ok payment =>
    cases ht : ledger.sumReservedRefunds input.paymentId with
    | error e =>
      simp only [hl, ht, bind, Except.bind] at h
      cases h
    | ok total =>
      obtain ⟨rfl, husable⟩ := sumReservedRefunds_ok ht
      simp only [hl, ht, bind, Except.bind] at h
      split at h
      · cases h
      · exact ⟨payment, rfl, husable, by omega, (Except.ok.inj h).symm⟩

theorem reserveRefundCapacity_of_room {ledger : Ledger} {input : RefundInput} {payment : Payment}
    (hl : ledger.lockPayment input.paymentId = .ok payment)
    (usable : UsableTotal (ledger.reservedTotal input.paymentId))
    (room : ledger.reservedTotal input.paymentId + input.amountCents ≤ payment.amount) :
    ledger.reserveRefundCapacity input =
      .ok (ledger.admitRefund payment (ledger.reservedTotal input.paymentId) input) := by
  have ht : ledger.sumReservedRefunds input.paymentId =
      .ok (ledger.reservedTotal input.paymentId) := by
    simp [sumReservedRefunds, usable]
  have fits : ¬ ledger.reservedTotal input.paymentId + input.amountCents > payment.amount := by
    omega
  simp only [reserveRefundCapacity, hl, ht, bind, Except.bind, if_neg fits]
  rfl

theorem reconcileRefundCapacity_ok {ledger : Ledger} {id : Nat}
    {reconciled : RefundCapacityReconciliation × Ledger}
    (h : ledger.reconcileRefundCapacity id = .ok reconciled) :
    ∃ payment, ledger.lockPayment id = .ok payment ∧ UsableTotal (ledger.reservedTotal id) ∧
      reconciled.2 = (ledger.repairDerivedStatus payment
        (decide (ledger.reservedTotal id ≥ payment.amount))).2 := by
  unfold reconcileRefundCapacity at h
  cases hl : ledger.lockPayment id with
  | error e =>
    simp only [hl, bind, Except.bind] at h
    cases h
  | ok payment =>
    cases ht : ledger.sumReservedRefunds id with
    | error e =>
      simp only [hl, ht, bind, Except.bind] at h
      cases h
    | ok total =>
      obtain ⟨rfl, husable⟩ := sumReservedRefunds_ok ht
      simp only [hl, ht, bind, Except.bind] at h
      obtain rfl := Except.ok.inj h
      exact ⟨payment, rfl, husable, rfl⟩

end Ledger
end Payments
