import Hakawi.Commerce.Calls
import Hakawi.Contests.Prizes
import Hakawi.Moderation.Restrictions
import Hakawi.Store.Catalog

/-!
# Columns of an enumerated type

The types that two migrations build, the columns they are given to, and the values that the
statements of the repositories write to these columns or compare with them.
-/

namespace Enums
open Common Store

inductive EnumType where
  | contestStatus
  | prizeType
  | submissionStatus
  | rentalStatus
  | paymentStatus
  | reportStatus
  | moderationActionType
  | libraryStatus
  deriving DecidableEq

inductive Column where
  | contestsStatus
  | contestPrizesPrizeType
  | contestSubmissionsStatus
  | rentalsStatus
  | paymentsStatus
  | refundsStatus
  /-- `varchar(20)`, in the partitioned table -/
  | paymentTransactionsPStatus
  | reportsStatus
  | moderationActionsAction
  | libraryStatus
  deriving DecidableEq

/-- `0024_create_database_enums` -/
def createDatabaseEnums : List (Ddl EnumType Column) :=
  [.createType .contestStatus ["draft", "published", "active", "voting", "completed", "cancelled"],
    .createType .prizeType ["cash", "badge", "recognition", "publication"],
    .createType .submissionStatus ["pending", "approved", "rejected", "winner", "runner_up"],
    .createType .rentalStatus ["active", "expired", "cancelled", "pending"],
    .createType .paymentStatus ["pending", "completed", "failed", "refunded", "cancelled"],
    .createType .reportStatus ["open", "in_review", "resolved", "dismissed"],
    .createType .moderationActionType ["warn", "mute", "ban", "delete", "restore"],
    .createType .libraryStatus ["owned", "rented", "archived"],
    .alterColumn .contestsStatus .contestStatus,
    .alterColumn .contestPrizesPrizeType .prizeType,
    .alterColumn .contestSubmissionsStatus .submissionStatus,
    .alterColumn .rentalsStatus .rentalStatus,
    .alterColumn .paymentsStatus .paymentStatus,
    .alterColumn .refundsStatus .paymentStatus,
    .alterColumn .reportsStatus .reportStatus,
    .alterColumn .moderationActionsAction .moderationActionType,
    .alterColumn .libraryStatus .libraryStatus]

/-- `0034_restore_missing_enum_values` -/
def restoreMissingEnumValues : List (Ddl EnumType Column) :=
  [.addValue .reportStatus "escalated", .addValue .paymentStatus "processing",
    .addValue .rentalStatus "returned"]

def catalog : Catalog EnumType Column :=
  Catalog.empty.migrate (createDatabaseEnums ++ restoreMissingEnumValues)

/-- A value that a statement hands to a column, to be stored or compared. -/
structure Presented where
  column : Column
  value : String
  deriving DecidableEq

def Presented.Belongs (presented : Presented) : Prop :=
  catalog.Accepts presented.column presented.value

instance (presented : Presented) : Decidable presented.Belongs :=
  inferInstanceAs (Decidable (catalog.Accepts _ _))

/-- A filter that is given; an empty one is none. -/
def filtered (column : Column) (status : Option String) : List Presented :=
  (status.filter (· ≠ "")).toList.map (⟨column, ·⟩)

section Texts
open Payments Library Contests Moderation

def refundStatusText : RefundStatus → String
  | .pending => "pending"
  | .processed => "processed"
  | .failed => "failed"
  | .cancelled => "cancelled"

def libraryStatusText : LibraryStatus → String
  | .owned => "owned"
  | .rented => "rented"

def contestStatusText : ContestStatus → String
  | .draft => "draft"
  | .active => "active"
  | .voting => "voting"
  | .completed => "completed"
  | .cancelled => "cancelled"

def submissionStatusText : SubmissionStatus → String
  | .pending => "pending"
  | .approved => "approved"
  | .rejected => "rejected"
  | .winner => "winner"
  | .runnerUp => "runner_up"

def reportStatusText : ReportStatus → String
  | .open_ => "open"
  | .inReview => "in_review"
  | .escalated => "escalated"
  | .resolved => "resolved"
  | .dismissed => "dismissed"

def actionText : Restrictions.Action → String
  | .warn => "warn"
  | .mute => "mute"
  | .ban => "ban"
  | .contentRemoval => "content_removal"
  | .noAction => "no_action"

variable (status : PaymentStatus)

theorem belongs_payment : Presented.Belongs ⟨.paymentsStatus, status.text⟩ := by
  cases status <;> decide

theorem belongs_transaction (value : String) :
    Presented.Belongs ⟨.paymentTransactionsPStatus, value⟩ := by
  rintro _ ⟨⟩

theorem belongs_rental (status : Rentals.RentalStatus) :
    Presented.Belongs ⟨.rentalsStatus, Commerce.rentalStatusText status⟩ := by
  cases status <;> decide

theorem belongs_library (status : LibraryStatus) :
    Presented.Belongs ⟨.libraryStatus, libraryStatusText status⟩ := by
  cases status <;> decide

theorem belongs_contest (status : ContestStatus) :
    Presented.Belongs ⟨.contestsStatus, contestStatusText status⟩ := by
  cases status <;> decide

theorem belongs_submission (status : SubmissionStatus) :
    Presented.Belongs ⟨.contestSubmissionsStatus, submissionStatusText status⟩ := by
  cases status <;> decide

theorem belongs_report (status : ReportStatus) :
    Presented.Belongs ⟨.reportsStatus, reportStatusText status⟩ := by
  cases status <;> decide

theorem belongs_action_iff (action : Restrictions.Action) :
    Presented.Belongs ⟨.moderationActionsAction, actionText action⟩ ↔
      action ∈ [.warn, .mute, .ban] := by
  cases action <;> decide

end Texts
end Enums
