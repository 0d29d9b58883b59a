import Hakawi.Common.Exceptions
import Hakawi.Common.Platform
import Hakawi.Store.Table

/-!
# The payments tables

Rows of `payments`, `refunds` and `payment_transactions_p`, the status words
they hold, and the legal status changes of a payment. Amounts are integer minor
units. The columns that no modelled function reads are left out.
-/

namespace Payments

open Common Store

inductive PaymentStatus where
  | pending
  | processing
  | completed
  | failed
  | cancelled
  | refunded
  deriving DecidableEq, Repr

namespace PaymentStatus

def text : PaymentStatus → String
  | pending => "pending"
  | processing => "processing"
  | completed => "completed"
  | failed => "failed"
  | cancelled => "cancelled"
  | refunded => "refunded"

instance : ToString PaymentStatus := ⟨text⟩

end PaymentStatus

open PaymentStatus in
/-- The single source of truth for legal user-requested status changes. -/
def PAYMENT_TRANSITIONS : PaymentStatus → List PaymentStatus
  | pending => [processing, completed, failed, cancelled]
  | processing => [completed, failed]
  | completed => [refunded]
  | failed => []
  | cancelled => []
  | refunded => []

/-- A status that no transition leaves. -/
def PaymentStatus.Terminal (status : PaymentStatus) : Prop := PAYMENT_TRANSITIONS status = []

instance (status : PaymentStatus) : Decidable status.Terminal :=
  inferInstanceAs (Decidable (_ = _))

inductive RefundStatus where
  | pending
  | processed
  | failed
  | cancelled
  deriving DecidableEq, Repr

/-- The refund statuses that consume refund capacity against a payment. -/
def REFUND_CAPACITY_STATUSES : List RefundStatus := [.pending, .processed]

structure Payment where
  id : Nat
  userId : String
  amount : Int
  currency : String
  status : PaymentStatus
  paymobOrderId : Option String
  paymobPaymentId : Option String
  paymobTransactionId : Option String
  metadata : Option Json
  deletedAt : Option Int

/-! The record of what was bought, parsed, as the grant handlers read it back. -/

namespace Payment
variable (payment : Payment)

def metaString (key : String) : Option String := payment.metadata.bind (·.stringField? key)

def metaNumber (key : String) : Option Rat := payment.metadata.bind (·.numberField? key)

/-- The book a payment is for, if its metadata names one. -/
def metaBookId : Option String := (payment.metaString "bookId").filter (· ≠ "")

/-- The reader and the book that a payment of this type is for. -/
def pairFor (type : String) : Option (String × String) :=
  if payment.metaString "type" = some type then payment.metaBookId.map (payment.userId, ·)
  else none

theorem pairFor_eq_some {payment : Payment} {type : String} {pair : String × String} :
    payment.pairFor type = some pair ↔ payment.metaString "type" = some type ∧
      payment.metaBookId = some pair.2 ∧ payment.userId = pair.1 := by
  obtain ⟨userId, bookId⟩ := pair
  unfold pairFor
  by_cases h : payment.metaString "type" = some type
  · simp [h, and_comm]
  · simp [h]

end Payment

structure Refund where
  id : Nat
  paymentId : Nat
  amount : Int
  currency : String
  reason : Option String
  status : RefundStatus
  paymobRefundId : Option String
  metadata : Option Json

namespace Refund

def HoldsCapacity (refund : Refund) : Prop := refund.status ∈ REFUND_CAPACITY_STATUSES

instance (refund : Refund) : Decidable refund.HoldsCapacity :=
  inferInstanceAs (Decidable (_ ∈ _))

/-- What a refund counts for against the capacity of one payment. -/
def reserved (paymentId : Nat) (refund : Refund) : Int :=
  if refund.paymentId = paymentId ∧ refund.HoldsCapacity then refund.amount else 0

end Refund

structure PaymentTransaction where
  id : Nat
  paymentId : Nat
  type : String
  status : PaymentStatus
  amount : Int
  currency : String
  gatewayResponse : Option String

/-- Which of the two columns the database fills in when an insert leaves them out.
The legacy table generated both; the partitioned one declares them `NOT NULL`
and generates neither. -/
structure TransactionsSchema where
  idHasDefault : Bool
  createdAtHasDefault : Bool

def paymentTransactions : TransactionsSchema := ⟨true, true⟩
def paymentTransactionsP : TransactionsSchema := ⟨false, false⟩

inductive PaymentEvent where
  | created (paymentId : Nat)
  | completed (paymentId : Nat)
  | failed (paymentId : Nat)
  | refundCreated (paymentId refundId : Nat)
  | refundCompleted (paymentId refundId : Nat)
  | refundFailed (paymentId refundId : Nat)
  deriving DecidableEq, Repr

/-- A refund that Paymob carried out, whether or not anybody was told. -/
structure GatewayRefund where
  transactionId : String
  amountCents : Int
  deriving DecidableEq, Repr

/-- Everything outside one request: the tables, the events emitted so far, and
what the gateway has done with the money. -/
structure Ledger where
  payments : Table Payment Payment.id
  refunds : Table Refund Refund.id
  transactions : Table PaymentTransaction PaymentTransaction.id
  events : List PaymentEvent
  gatewayRefunds : List GatewayRefund

namespace Ledger

def empty : Ledger := ⟨.empty, .empty, .empty, [], []⟩

def statusOf (ledger : Ledger) (paymentId : Nat) : Option PaymentStatus :=
  (ledger.payments.find? paymentId).map Payment.status

/-- `coalesce(sum(amount), 0)` over the refunds that hold capacity. -/
def reservedTotal (ledger : Ledger) (paymentId : Nat) : Int :=
  ledger.refunds.total (Refund.reserved paymentId)

/-- What the gateway has paid back of one of its transactions. -/
def gatewayRefunded (ledger : Ledger) (transactionId : String) : Int :=
  (ledger.gatewayRefunds.map fun r =>
    if r.transactionId = transactionId then r.amountCents else 0).sum

def completions (ledger : Ledger) (paymentId : Nat) : Nat :=
  ledger.events.count (.completed paymentId)

end Ledger
end Payments
