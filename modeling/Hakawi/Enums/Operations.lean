import Hakawi.Commerce.Services
import Hakawi.Enums.Presented

/-!
# The operations of five services

The services of the payments, the rentals, the library, moderation and the contests on one
database. Their programs are taken over call by call, and the lists that filter by a status are
added. A statement that presents a value which is not one of its column's type is rejected.
-/

namespace Enums
open Common Store Effects Commerce Payments Rentals Library

/-- The newest rows first, a page of them, and how many there are. -/
def paged {α : Type} (rows : List α) (page limit : Nat) : List α × Nat :=
  ((rows.reverse.drop ((page - 1) * limit)).take limit, rows.length)

/-- A row whose status has the text of the filter, where one is given. -/
def matchesFilter (status : Option String) (text : String) : Bool :=
  (status.filter (· ≠ "")).all (text = ·)

structure PaymentsQueryDto where
  status : Option String := none
  page : Nat := 1
  limit : Nat := 20

def RENTAL_QUERY_STATUSES : List String := ["active", "expired", "returned", "cancelled"]

structure RentalsQueryDto where
  status : Option String := none
  page : Nat := 1
  limit : Nat := 20
  valid : ∀ text ∈ status, text ∈ RENTAL_QUERY_STATUSES

def LIBRARY_QUERY_STATUSES : List String := ["owned", "rented", "reading", "completed"]

structure LibraryQueryDto where
  status : Option String := none
  page : Nat := 1
  limit : Nat := 20
  valid : ∀ text ∈ status, text ∈ LIBRARY_QUERY_STATUSES

structure ContestsQueryDto where
  /-- What the category and the search let through. -/
  matching : Contests.Contest → Bool := fun _ => true
  status : Option String := none
  page : Nat := 1
  limit : Nat := 20

structure ReportQueryDto where
  status : Option Moderation.ReportStatus := none
  targetType : Option Moderation.TargetType := none
  page : Nat := 1
  limit : Nat := 20

/-- The statements that no other model of these services makes. -/
inductive Query where
  | findPayments (userId : Option String) (query : PaymentsQueryDto)
  | findRentals (userId : String) (status : Option String)
  | findItems (userId : String) (query : LibraryQueryDto)
  | countItems (userId : String)
  /-- `SET last_accessed_at` -/
  | touchItem (id : Nat)
  | findContests (query : ContestsQueryDto)
  | findSubmissionsByContest (contestId page limit : Nat)
  | countVotesBySubmission (submissionId : Nat)
  | countVotesByContest (contestId : Nat)
  | findVotesBySubmission (submissionId : Nat)
  | findVotesByContest (contestId limit offset : Nat)
  | findPrizesByContest (contestId : Nat)
  | findReports (query : ReportQueryDto)
  | findReport (id : Nat)
  | updateReport (id : Nat) (status : Moderation.ReportStatus)

namespace Query

abbrev Answer : Query → Type
  | findPayments _ _ => List Payment × Nat
  | findRentals _ _ => List Rental × Nat
  | findItems _ _ => List LibraryItem × Nat
  | countItems _ => Nat
  | touchItem _ => Option LibraryItem
  | findContests _ => List Contests.Contest × Nat
  | findSubmissionsByContest _ _ _ => List Contests.ContestSubmission × Nat
  | countVotesBySubmission _ | countVotesByContest _ => Nat
  | findVotesBySubmission _ | findVotesByContest _ _ _ => List Contests.ContestVote
  | findPrizesByContest _ => List Contests.ContestPrize
  | findReports _ => List Moderation.Report × Nat
  | findReport _ | updateReport _ _ => Option Moderation.Report

def presents : Query → List Presented
  | findPayments _ query => filtered .paymentsStatus query.status
  | findRentals _ status => filtered .rentalsStatus status
  | findItems _ query => filtered .libraryStatus query.status
  | findContests query => filtered .contestsStatus query.status
  | findReports query => query.status.toList.map reportPresents
  | updateReport _ status => [reportPresents status]
  | _ => []

end Query

inductive Call where
  | commerce (call : Commerce.Call)
  | contests (call : Contests.Call)
  | reports (call : Moderation.Call)
  | actions (call : Moderation.Restrictions.Call)
  | query (statement : Query)

namespace Call

abbrev Result : Call → Type
  | commerce op => op.Result
  | contests op => Except Failure op.Answer
  | reports op => Except Failure op.Answer
  | actions op => Except Failure op.Answer
  | query statement => Except Failure statement.Answer

def fail (error : Failure) : (call : Call) → call.Result → call.Result
  | commerce op, result => op.fail error result
  | contests _, _ | reports _, _ | actions _, _ | query _, _ => .error error

end Call

/-- What the environment decides about one call. -/
structure Choice where
  commerce : Commerce.Choice := {}
  contests : Contests.Choice := {}
  reports : Moderation.Choice := {}
  elapsed : Nat := 0

structure World where
  commerce : Commerce.World
  contests : Contests.System
  reports : Moderation.System
  actions : Moderation.Restrictions.World
  /-- The values that the database has rejected. -/
  rejected : List Presented

namespace World

def presents (world : World) : Call → List Presented
  | .commerce (.query statement) => statementPresents world.commerce.primary statement
  | .commerce _ => []
  | .contests op => contestsPresents op
  | .reports op => reportsPresents op
  | .actions op => actionsPresents op
  | .query statement => statement.presents

/-- `UPDATE reports SET status, resolved_at, updated_at WHERE id = … RETURNING *` -/
def updateReport (status : Moderation.ReportStatus) (now : Int) (report : Moderation.Report) :
    Moderation.Report :=
  { report with status, updatedAt := now }

@[simp] theorem updateReport_id (status : Moderation.ReportStatus) (now : Int)
    (report : Moderation.Report) : (updateReport status now report).id = report.id := rfl

def answer (world : World) : (query : Query) → query.Answer × World
  | .findPayments userId query =>
    (paged (world.commerce.primary.ledger.payments.rows.filter fun p => p.deletedAt = none ∧
      userId.all (p.userId = ·) ∧ matchesFilter query.status p.status.text) query.page
      query.limit, world)
  | .findRentals userId status =>
    (paged (world.commerce.primary.rentals.rentals.rows.filter fun r => r.deletedAt = none ∧
      r.userId = userId ∧ matchesFilter status (rentalStatusText r.status)) 1 20, world)
  | .findItems userId query =>
    (paged (world.commerce.primary.items.rows.filter fun item => item.userId = userId ∧
      matchesFilter query.status (libraryStatusText item.status)) query.page query.limit, world)
  | .countItems userId =>
    ((world.commerce.primary.items.rows.filter (·.userId = userId)).length, world)
  | .touchItem id => (world.commerce.primary.items.find? id, world)
  | .findContests query =>
    (paged (world.contests.tables.contests.rows.filter fun contest => query.matching contest ∧
      matchesFilter query.status (contestStatusText contest.status)) query.page query.limit, world)
  | .findSubmissionsByContest contestId page limit =>
    (paged (world.contests.tables.entries contestId) page limit, world)
  | .countVotesBySubmission submissionId =>
    (world.contests.tables.votes.rows.countP (·.submissionId = submissionId), world)
  | .countVotesByContest contestId =>
    (world.contests.tables.votes.rows.countP (·.contestId = contestId), world)
  | .findVotesBySubmission submissionId =>
    ((world.contests.tables.votes.rows.filter (·.submissionId = submissionId)).reverse, world)
  | .findVotesByContest contestId limit offset =>
    let votes := (world.contests.tables.votes.rows.filter (·.contestId = contestId)).reverse
    ((votes.drop offset).take limit, world)
  | .findPrizesByContest contestId =>
    ((world.contests.tables.prizes.rows.filter (·.contestId = contestId)).reverse, world)
  | .findReports query =>
    (paged (world.reports.reports.rows.filter fun report => query.status.all (report.status = ·) ∧
      query.targetType.all (report.targetType = ·)) query.page query.limit, world)
  | .findReport id => (world.reports.reports.find? id, world)
  | .updateReport id status =>
    let change := updateReport status world.reports.now
    ((world.reports.reports.find? id).map change, { world with
      reports.reports := world.reports.reports.modify id change (updateReport_id _ _) })

variable (schema : TransactionsSchema)

def perform (choice : Choice) (world : World) : (call : Call) → call.Result × World
  | .commerce op =>
    let done := Commerce.World.exec schema choice.commerce world.commerce op
    (done.1, { world with commerce := done.2 })
  | .contests op =>
    let done := Contests.exec choice.contests world.contests op
    (.ok done.1, { world with contests := done.2 })
  | .reports op =>
    let done := Moderation.exec choice.reports world.reports op
    (.ok done.1, { world with reports := done.2 })
  | .actions op =>
    let done := Moderation.Restrictions.exec choice.elapsed
      { world.actions with reports := world.reports.reports } op
    (.ok done.1, { world with actions := done.2 })
  | .query statement => (world.answer statement).map .ok id

def invalidValue (presented : Presented) : Failure :=
  .error s!"invalid input value for enum: \"{presented.value}\""

/-- A statement that does not reach the database is not looked at. -/
def reached (choice : Choice) : Call → Bool
  | .commerce _ => choice.commerce.fault.all (·.performed)
  | _ => true

def exec (choice : Choice) (world : World) (call : Call) : call.Result × World :=
  let done := world.perform schema choice call
  match (world.presents call).find? fun presented => ¬ presented.Belongs ∧ reached choice call with
  | none => done
  | some presented => (call.fail (invalidValue presented) done.1,
      { world with rejected := world.rejected ++ [presented] })

end World

abbrev Method (α : Type) : Type := Fallible Call Call.Result Failure α

def query (statement : Query) : Method statement.Answer :=
  ExceptT.mk (.call (.query statement) .done)

section Taken
variable {α : Type}

/-- A method of the services that sell. -/
def commerce (p : Commerce.Method α) : Method α :=
  ExceptT.mk (p.run.expand fun op => .call (.commerce op) .done)

/-- What is thrown in the program goes on; a call that is rejected ends it. -/
def contests (p : Contests.Handler α) : Method α := do
  (← p.run.attempt fun op => ExceptT.mk (.call (.contests op) .done) : Except Failure α)

def reports (p : Moderation.Handler α) : Method α := do
  (← p.run.attempt fun op => ExceptT.mk (.call (.reports op) .done) : Except Failure α)

def actions (p : Moderation.Restrictions.Handler α) : Method α := do
  (← p.run.attempt fun op => ExceptT.mk (.call (.actions op) .done) : Except Failure α)

end Taken
end Enums
