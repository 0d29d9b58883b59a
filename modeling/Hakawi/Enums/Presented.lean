import Hakawi.Enums.Columns

/-!
# What the statements hand to the columns

For each call of the repositories, the values that it writes to a column of a type or compares with
one. A transaction presents one after the other, and where it ends early it presents no more.
-/

namespace Enums
open Common Store Commerce Payments Rentals Library

def paymentPresents (status : PaymentStatus) : Presented := ⟨.paymentsStatus, status.text⟩

def refundPresents (status : RefundStatus) : Presented :=
  ⟨.refundsStatus, refundStatusText status⟩

def rentalPresents (status : RentalStatus) : Presented := ⟨.rentalsStatus, rentalStatusText status⟩

def reportPresents (status : Moderation.ReportStatus) : Presented :=
  ⟨.reportsStatus, reportStatusText status⟩

section Transactions
variable (ledger : Ledger)

/-- `inArray(refunds.status, [...REFUND_CAPACITY_STATUSES])` -/
def sumReservedRefunds : List Presented := REFUND_CAPACITY_STATUSES.map refundPresents

def reservation (input : RefundInput) : List Presented :=
  match ledger.lockPayment input.paymentId with
  | .error _ => []
  | .ok payment => sumReservedRefunds ++
      match ledger.sumReservedRefunds input.paymentId with
      | .error _ => []
      | .ok alreadyRefunded =>
        let reservedTotal := alreadyRefunded + input.amountCents
        if reservedTotal > payment.amount then []
        else refundPresents .pending ::
          if reservedTotal = payment.amount ∧ payment.status ≠ .refunded then
            [paymentPresents .refunded]
          else []

def reconciliation (paymentId : Nat) : List Presented :=
  match ledger.lockPayment paymentId with
  | .error _ => []
  | .ok payment => sumReservedRefunds ++
      match ledger.sumReservedRefunds paymentId with
      | .error _ => []
      | .ok reservedTotal =>
        if reservedTotal ≥ payment.amount ∧ payment.status = .completed then
          [paymentPresents .refunded]
        else if ¬ reservedTotal ≥ payment.amount ∧ payment.status = .refunded then
          [paymentPresents .completed]
        else []

end Transactions

def statementPresents (db : Database) : Statement → List Presented
  | .findPayments params => params.status.toList.map paymentPresents
  | .createPayment data => [paymentPresents data.status]
  | .updatePayment _ patch => patch.status.toList.map paymentPresents
  | .createTransaction data => [⟨.paymentTransactionsPStatus, data.status.text⟩]
  | .updateRefund _ patch => patch.status.toList.map refundPresents
  | .reserveRefundCapacity input => reservation db.ledger input
  | .reconcileRefundCapacity paymentId => reconciliation db.ledger paymentId
  | .findOverdue _ => [rentalPresents .active]
  | .createRental _ _ _ _ => [rentalPresents .active]
  | .updateRental _ patch => patch.status.toList.map rentalPresents
  | .createItem _ _ _ status => [⟨.libraryStatus, libraryStatusText status⟩]
  | _ => []

/-- The calls of the contests service. The default of `contest_submissions.status` is no value of
the statement's. -/
def contestsPresents : Contests.Call → List Presented
  | .createContest _ _ => [⟨.contestsStatus, contestStatusText .draft⟩]
  | .updateContest _ data =>
    data.status.toList.map fun status => ⟨.contestsStatus, contestStatusText status⟩
  | .reviewSubmission _ status _ => [⟨.contestSubmissionsStatus, submissionStatusText status⟩]
  | .createPrize data => [⟨.contestPrizesPrizeType, data.prizeType⟩]
  | _ => []

/-- The calls on the reports: what is written, and the `open` they look for. -/
def reportsPresents : Moderation.Call → List Presented
  | .insertReport _ | .findOpen _ | .findStale _ => [reportPresents .open_]
  | .escalateTarget _ status _ => [reportPresents status, reportPresents .open_]
  | .escalateReport _ _ => [reportPresents .escalated, reportPresents .open_]
  | _ => []

def actionsPresents : Moderation.Restrictions.Call → List Presented
  | .insertModerationAction _ _ input => [⟨.moderationActionsAction, actionText input.action⟩]
  | _ => []

/-- The statements that a refund is made of. -/
def OnRefunds : Statement → Prop
  | .updateRefund _ _ | .reserveRefundCapacity _ | .reconcileRefundCapacity _ => True
  | _ => False

section Belonging
variable {presented : Presented}

theorem belongs_statement {db : Database} {statement : Statement} (plain : ¬ OnRefunds statement)
    (presents : presented ∈ statementPresents db statement) : presented.Belongs := by
  have patched {α : Type} {status : Option α} {present : α → Presented}
      (all : ∀ a, (present a).Belongs) (member : presented ∈ status.toList.map present) :
      presented.Belongs := by
    obtain ⟨a, -, rfl⟩ := List.mem_map.mp member
    exact all a
  cases statement with
  | findPayments params => exact patched belongs_payment presents
  | createPayment data =>
    rw [List.mem_singleton.mp presents]
    exact belongs_payment _
  | updatePayment id patch => exact patched belongs_payment presents
  | createTransaction data =>
    rw [List.mem_singleton.mp presents]
    exact belongs_transaction _
  | updateRefund id patch => exact absurd trivial plain
  | reserveRefundCapacity input => exact absurd trivial plain
  | reconcileRefundCapacity paymentId => exact absurd trivial plain
  | findOverdue now =>
    rw [List.mem_singleton.mp presents]
    exact belongs_rental _
  | createRental now userId bookId durationDays =>
    rw [List.mem_singleton.mp presents]
    exact belongs_rental _
  | updateRental id patch => exact patched belongs_rental presents
  | createItem userId bookId rentalId status =>
    rw [List.mem_singleton.mp presents]
    exact belongs_library _
  | _ => cases presents

theorem belongs_contests {call : Contests.Call}
    (typed : ∀ data, call = .createPrize data → data.prizeType ∈ Contests.PRIZE_TYPES)
    (presents : presented ∈ contestsPresents call) : presented.Belongs := by
  cases call with
  | createContest data createdBy =>
    rw [List.mem_singleton.mp presents]
    exact belongs_contest _
  | updateContest id data =>
    obtain ⟨status, -, rfl⟩ := List.mem_map.mp presents
    exact belongs_contest status
  | reviewSubmission id status reviewedBy =>
    rw [List.mem_singleton.mp presents]
    exact belongs_submission _
  | createPrize data =>
    rw [List.mem_singleton.mp presents]
    rintro _ ⟨⟩
    exact typed data rfl
  | _ => cases presents

theorem belongs_reports {call : Moderation.Call} (presents : presented ∈ reportsPresents call) :
    presented.Belongs := by
  have either {first second : Moderation.ReportStatus}
      (member : presented ∈ [reportPresents first, reportPresents second]) :
      presented.Belongs := by
    simp only [List.mem_cons, List.not_mem_nil, or_false] at member
    rcases member with rfl | rfl <;> exact belongs_report _
  cases call with
  | insertReport input =>
    rw [List.mem_singleton.mp presents]
    exact belongs_report _
  | findOpen targetId =>
    rw [List.mem_singleton.mp presents]
    exact belongs_report _
  | findStale time =>
    rw [List.mem_singleton.mp presents]
    exact belongs_report _
  | escalateTarget targetId status now => exact either presents
  | escalateReport id now => exact either presents
  | _ => cases presents

theorem belongs_actions {call : Moderation.Restrictions.Call}
    (known : ∀ reportId adminId input, call = .insertModerationAction reportId adminId input →
      input.action ∈ [.warn, .mute, .ban])
    (presents : presented ∈ actionsPresents call) : presented.Belongs := by
  cases call with
  | insertModerationAction reportId adminId input =>
    rw [List.mem_singleton.mp presents]
    exact (belongs_action_iff _).mpr (known _ _ _ rfl)
  | _ => cases presents

end Belonging
end Enums
