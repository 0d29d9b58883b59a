import Hakawi.Library.Service

/-!
# Statements and where they go

The statements of the payments, rentals, library and books repositories. The router sends a
`select` on `db` to one of the replicas that it takes for healthy and everything else to the
primary; what `dbPrimary` is asked goes to the primary. A replica is the primary as it was.
-/

namespace Commerce
open Common Payments Rentals Library Store

/-- A row of `books`, as far as checkouts and downloads look at it. -/
structure BookRow extends Entitlements.Book where
  isbn : Option String
  viewCount : Nat
  downloadCount : Nat

structure Database where
  ledger : Ledger
  rentals : RentalsTables
  items : Table LibraryItem LibraryItem.id
  books : List BookRow

structure PaymentFilter where
  userId : Option String := none
  status : Option PaymentStatus := none
  page : Nat := 1
  limit : Nat := 20

structure AdminStats where
  total : Nat
  byStatus : List (PaymentStatus × Nat)
  totalAmount : Int

inductive Statement where
  | findPayment (id : Nat)
  | findPaymentByOrderId (orderId : String)
  | findPaymentByTransactionId (transactionId : String)
  | findPayments (params : PaymentFilter)
  | paymentStats
  | createPayment (data : CreatePaymentInput)
  | updatePayment (id : Nat) (patch : PaymentPatch)
  | createTransaction (data : NewTransaction)
  | updateRefund (id : Nat) (patch : RefundPatch)
  | findRefundsByPayment (paymentId : Nat)
  | reserveRefundCapacity (input : RefundInput)
  | reconcileRefundCapacity (paymentId : Nat)
  | findRental (id : Nat)
  | findRentalByUserAndBook (userId bookId : String)
  | findOverdue (now : Int)
  | createRental (now : Int) (userId bookId : String) (durationDays : Rat)
  | updateRental (id : Nat) (patch : RentalPatch)
  | createExtension (rentalId : Nat) (previousEndDate newEndDate : Int) (extensionDays : Rat)
  | findItem (id : Nat)
  | findItemByUserAndBook (userId bookId : String)
  | findItemByRentalId (rentalId : Nat)
  | createItem (userId bookId : String) (rentalId : Option Nat) (status : LibraryStatus)
  | deleteItem (id : Nat)
  | findBook (id : String)
  | createBook (book : BookRow)
  | incrementViewCount (id : String)
  | incrementDownloadCount (id : String)

namespace Statement

abbrev Answer : Statement → Type
  | findPayment _ | findPaymentByOrderId _ | findPaymentByTransactionId _ => Option Payment
  | findPayments _ => List Payment × Nat
  | paymentStats => AdminStats
  | createPayment _ => Payment
  | updatePayment _ _ => Option Payment
  | createTransaction _ => PaymentTransaction
  | updateRefund _ _ => Option Refund
  | findRefundsByPayment _ => List Refund
  | reserveRefundCapacity _ => RefundReservation
  | reconcileRefundCapacity _ => RefundCapacityReconciliation
  | findRental _ | findRentalByUserAndBook _ _ => Option Rental
  | findOverdue _ => List Rental
  | createRental _ _ _ _ => Rental
  | updateRental _ _ => Option Rental
  | createExtension _ _ _ _ => Unit
  | findItem _ | findItemByUserAndBook _ _ | findItemByRentalId _ => Option LibraryItem
  | createItem _ _ _ _ => LibraryItem
  | findBook _ => Option BookRow
  | deleteItem _ | createBook _ | incrementViewCount _ | incrementDownloadCount _ => Unit

end Statement

inductive Handle where
  | db
  | dbPrimary
  deriving DecidableEq

inductive SqlOperation where
  | select
  | insert
  | update
  | delete
  | transaction
  deriving DecidableEq

namespace Statement

/-- How the repository makes the statement. -/
def via : Statement → Handle × SqlOperation
  | findPayment _ | findPaymentByOrderId _ | findPaymentByTransactionId _ | findPayments _ |
    paymentStats => (.dbPrimary, .select)
  | createTransaction _ => (.dbPrimary, .transaction)
  | reserveRefundCapacity _ | reconcileRefundCapacity _ => (.db, .transaction)
  | createPayment _ | createRental _ _ _ _ | createExtension _ _ _ _ | createItem _ _ _ _ |
    createBook _ => (.db, .insert)
  | updatePayment _ _ | updateRefund _ _ | updateRental _ _ | incrementViewCount _ |
    incrementDownloadCount _ => (.db, .update)
  | deleteItem _ => (.db, .delete)
  | findRefundsByPayment _ | findRental _ | findRentalByUserAndBook _ _ | findOverdue _ |
    findItem _ | findItemByUserAndBook _ _ | findItemByRentalId _ | findBook _ => (.db, .select)

/-- The database proxy: which of the two handles serves which statement. -/
def Routed (statement : Statement) : Prop := statement.via = (.db, .select)

instance (statement : Statement) : Decidable statement.Routed :=
  inferInstanceAs (Decidable (_ = _))

end Statement

namespace PaymentFilter

/-- `isNull(deletedAt)` and the conditions that are given. -/
def Admits (params : PaymentFilter) (payment : Payment) : Prop :=
  payment.deletedAt = none ∧ (∀ userId ∈ params.userId, payment.userId = userId) ∧
    ∀ status ∈ params.status, payment.status = status

instance (params : PaymentFilter) (payment : Payment) : Decidable (params.Admits payment) :=
  inferInstanceAs (Decidable (_ ∧ _ ∧ _))

/-- The page, newest first, and the number of rows on all pages. -/
def of (params : PaymentFilter) (ledger : Ledger) : List Payment × Nat :=
  let rows := (ledger.payments.rows.filter fun p => params.Admits p).reverse
  ((rows.drop ((params.page - 1) * params.limit)).take params.limit, rows.length)

end PaymentFilter

/-- `GROUP BY status`, and the sums over the groups. -/
def AdminStats.of (ledger : Ledger) : AdminStats :=
  let rows := ledger.payments.rows.filter (·.deletedAt = none)
  { total := rows.length
    byStatus := ([.pending, .processing, .completed, .failed, .cancelled, .refunded].map
      fun status => (status, (rows.filter (·.status = status)).length)).filter (·.2 ≠ 0)
    totalAmount := (rows.map Payment.amount).sum }

namespace Database
variable (schema : TransactionsSchema)

/-- What a change of the ledger answers, on the database. -/
def onLedger {α : Type} (db : Database) (changed : Except Failure (α × Ledger)) :
    Except Failure (α × Database) :=
  changed.map fun (a, ledger) => (a, { db with ledger })

def onRentals {α : Type} (db : Database) (changed : α × RentalsTables) :
    Except Failure (α × Database) :=
  .ok (changed.1, { db with rentals := changed.2 })

/-- The rows of the shelf, as the library's own functions take them. -/
def shelf (db : Database) : Shelf := ⟨db.items, []⟩

def changeBook (db : Database) (id : String) (change : BookRow → BookRow) : Database :=
  { db with books := db.books.map fun book => if book.id = id then change book else book }

/-- `pick` says which of the rows that match comes first, where the statement does not. -/
def perform (pick : Nat) (db : Database) : (statement : Statement) →
    Except Failure (statement.Answer × Database)
  | .findPayment id => .ok (db.ledger.findById id, db)
  | .findPaymentByOrderId orderId => .ok (db.ledger.findByOrderId orderId, db)
  | .findPaymentByTransactionId transactionId =>
    .ok (db.ledger.findByTransactionId transactionId, db)
  | .findPayments params => .ok (params.of db.ledger, db)
  | .paymentStats => .ok (.of db.ledger, db)
  | .createPayment data => db.onLedger (.ok (db.ledger.create data))
  | .updatePayment id patch => db.onLedger (db.ledger.update id patch)
  | .createTransaction data => db.onLedger (db.ledger.createTransaction schema data)
  | .updateRefund id patch => db.onLedger (.ok (db.ledger.updateRefund id patch))
  | .findRefundsByPayment paymentId =>
    .ok (db.ledger.refunds.rows.filter (·.paymentId = paymentId), db)
  | .reserveRefundCapacity input => db.onLedger (db.ledger.reserveRefundCapacity input)
  | .reconcileRefundCapacity paymentId =>
    db.onLedger (db.ledger.reconcileRefundCapacity paymentId)
  | .findRental id => .ok (db.rentals.findById id, db)
  | .findRentalByUserAndBook userId bookId => .ok (db.rentals.findByUserAndBook userId bookId, db)
  | .findOverdue now => .ok (db.rentals.findOverdue now, db)
  | .createRental now userId bookId durationDays =>
    db.onRentals (db.rentals.create now userId bookId durationDays)
  | .updateRental id patch =>
    db.onRentals ((db.rentals.findById id).map patch.apply, db.rentals.update id patch)
  | .createExtension rentalId previousEndDate newEndDate extensionDays =>
    db.onRentals ((), db.rentals.createExtension rentalId previousEndDate newEndDate extensionDays)
  | .findItem id => .ok (db.items.find? id, db)
  | .findItemByUserAndBook userId bookId =>
    .ok (limitOne (db.items.rows.filter fun item =>
      item.userId = userId ∧ item.bookId = bookId) pick, db)
  | .findItemByRentalId rentalId =>
    .ok (limitOne (db.items.rows.filter (·.rentalId = some rentalId)) pick, db)
  | .createItem userId bookId rentalId status =>
    let created := db.shelf.create userId bookId rentalId status
    .ok (created.1, { db with items := created.2.items })
  | .deleteItem id => .ok ((), { db with items := db.items.erase id })
  | .findBook id => .ok (db.books.find? (·.id = id), db)
  | .createBook book =>
    if ∃ other ∈ db.books, other.id = book.id then .error (.uniqueViolation "books_pkey")
    else .ok ((), { db with books := db.books ++ [book] })
  | .incrementViewCount id =>
    .ok ((), db.changeBook id fun book => { book with viewCount := book.viewCount + 1 })
  | .incrementDownloadCount id =>
    .ok ((), db.changeBook id fun book => { book with downloadCount := book.downloadCount + 1 })

/-- What a statement answers, and the database afterwards; one that is rejected changes nothing. -/
def apply (pick : Nat) (db : Database) (statement : Statement) :
    Except Failure statement.Answer × Database :=
  match db.perform schema pick statement with
  | .ok (answer, after) => (.ok answer, after)
  | .error e => (.error e, db)

/-- A write commits, or the primary stays as it is. -/
def Writes (before after : Database) : Prop :=
  ∃ pick statement, after = (before.apply schema pick statement).2

/-- An earlier state of the primary. -/
def Precedes : Database → Database → Prop := Relation.ReflTransGen (Writes schema)

variable {schema} {pick : Nat} {db : Database} {statement : Statement}

end Database
end Commerce
