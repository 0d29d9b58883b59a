import Hakawi.Enums.Operations

/-!
# What is asked of the five services

Every operation of the services, with the input that its DTO lets through.
-/

namespace Enums
open Common Store Effects Commerce Payments Rentals Library

namespace RentalsService
variable (texts : RowTexts) (platform : Platform)

def findMyRentals (userId : String) (params : RentalsQueryDto) : Method (List Rental × Nat) :=
  query (.findRentals userId params.status)

/-- The book and the price of an extension. -/
def quoteExtension (id : Nat) (extensionDays : Int) (userId : String) : Method (String × Int) := do
  let found ← commerce (Commerce.query (.findRental id))
  let rental ← Commerce.RentalsService.extendable found extensionDays userId
  return (rental.bookId, rentalPriceForDays extensionDays)

def findOverdue : Method (List Rental) :=
  commerce (do Commerce.query (.findOverdue (← Commerce.now)))

end RentalsService

namespace LibraryService
variable (texts : RowTexts)

def findMyLibrary (userId : String) (params : LibraryQueryDto) :
    Method (List LibraryItem × Nat) := query (.findItems userId params)

/-- The status is left alone. -/
def accessItem (id : Nat) (userId : String) : Method (Option LibraryItem) := do
  match ← commerce (Commerce.library texts (Library.call (.findById id))) with
  | none => throw (.notFound "Library item not found")
  | some item =>
    if item.userId ≠ userId then
      throw (.forbidden "You do not have access to this library item")
    else query (.touchItem id)

end LibraryService

namespace ModerationService
open Moderation

def findAllReports (params : ReportQueryDto) : Method (List Report × Nat) :=
  query (.findReports params)

def updateReportStatus (id : Nat) (status : ReportStatus) : Method Report := do
  match ← query (.findReport id) with
  | none => throw (.notFound "Report not found")
  | some _ =>
    match ← query (.updateReport id status) with
    | none => throw (.notFound "Report not found")
    | some report => return report

end ModerationService

namespace ContestsService
open Contests

/-- The contest of the id, which is there. -/
def loadContest (id : Nat) : Method Contest := do
  Contests.orNotFound (← contests (Contests.call (.findContestById id))) "Contest not found"

def findAll (params : ContestsQueryDto) : Method (List Contest × Nat) :=
  query (.findContests params)

def getVotes (contestId : Nat) (submissionId : Option Nat) (page limit : Nat) :
    Method (List ContestVote × Nat) := do
  match submissionId with
  | some submissionId =>
    let found ← contests (Contests.call (.findSubmissionById submissionId))
    let submission ← Contests.ofContest found contestId
    let votes ← query (.findVotesBySubmission submission.id)
    return ((votes.drop ((page - 1) * limit)).take limit, votes.length)
  | none =>
    let pageNum := max page 1
    let limitNum := max limit 1
    let votes ← query (.findVotesByContest contestId limitNum ((pageNum - 1) * limitNum))
    let total ← query (.countVotesByContest contestId)
    return (votes, total)

def getPrizes (contestId : Nat) : Method (List ContestPrize) := do
  let _ ← loadContest contestId
  query (.findPrizesByContest contestId)

structure PublisherStats where
  totalContests : Nat
  activeContests : Nat
  completedContests : Nat
  totalSubmissions : Nat := 0
  pendingSubmissions : Nat := 0
  approvedSubmissions : Nat := 0
  rejectedSubmissions : Nat := 0
  totalVotes : Nat := 0
  totalPrizes : Nat := 0

def addContest (stats : PublisherStats) (contest : Contest) : Method PublisherStats := do
  let (submissions, total) ← query (.findSubmissionsByContest contest.id 1 1000)
  let ofStatus (status : SubmissionStatus) := submissions.countP (·.status = status)
  let votes ← query (.countVotesByContest contest.id)
  let prizes ← query (.findPrizesByContest contest.id)
  return { stats with
    totalSubmissions := stats.totalSubmissions + total
    pendingSubmissions := stats.pendingSubmissions + ofStatus .pending
    approvedSubmissions := stats.approvedSubmissions + ofStatus .approved
    rejectedSubmissions := stats.rejectedSubmissions + ofStatus .rejected
    totalVotes := stats.totalVotes + votes
    totalPrizes := stats.totalPrizes + prizes.length }

def getPublisherStats (publisherId : String) : Method PublisherStats := do
  let (found, _) ← query (.findContests {})
  let own := found.filter (·.createdBy = publisherId)
  own.foldlM addContest
    { totalContests := own.length
      activeContests := own.countP fun c => c.status = .active ∨ c.status = .voting
      completedContests := own.countP (·.status = .completed) }

/-- A contest of the publisher's own. -/
def ownContest (contestId : Nat) (publisherId : String) : Method Contest := do
  let contest ← loadContest contestId
  if contest.createdBy ≠ publisherId then
    throw (.forbidden "You do not have access to this contest")
  else return contest

def countVotes (overview : List (ContestSubmission × Nat)) (submission : ContestSubmission) :
    Method (List (ContestSubmission × Nat)) := do
  let votes ← query (.countVotesBySubmission submission.id)
  return overview ++ [(submission, votes)]

def getPublisherSubmissionsOverview (contestId : Nat) (publisherId : String) :
    Method (List (ContestSubmission × Nat)) := do
  let _ ← ownContest contestId publisherId
  let (submissions, _) ← query (.findSubmissionsByContest contestId 1 1000)
  submissions.foldlM countVotes []

def getPublisherVotesOverview (contestId : Nat) (publisherId : String) :
    Method (List ContestVote) := do
  let _ ← ownContest contestId publisherId
  query (.findVotesByContest contestId 1000 0)

end ContestsService

inductive RentalsRequest where
  | findById (id : Nat) (userId : Option String)
  | findMyRentals (userId : String) (params : RentalsQueryDto)
  | findActiveRentalForBook (userId bookId : String)
  | extendRental (id : Nat) (extensionDays : Int) (userId : String) (paymentMethod : Option String)
  | quoteExtension (id : Nat) (extensionDays : Int) (userId : String)
  | returnRental (id : Nat) (userId : String)
  | findOverdue
  | checkAndExpireOverdue

inductive LibraryRequest where
  | claimFreeBook (userId bookId : String)
  | addToLibrary (userId bookId : String) (rentalId : Option Nat)
  | findMyLibrary (userId : String) (params : LibraryQueryDto)
  | count (userId : String)
  | accessItem (id : Nat) (userId : String)
  | removeFromLibrary (id : Nat) (userId : String)
  | removeBookForRefund (userId bookId : String)

inductive ModerationRequest where
  | createReport (reporterId : String) (dto : Moderation.ModerationService.CreateReportDto)
  | findAllReports (params : ReportQueryDto)
  | updateReportStatus (id : Nat) (status : Moderation.ReportStatus)
  | takeAction (reportId : Nat) (adminId : String) (dto : Moderation.Restrictions.ModerationActionDto)
  | checkAutoEscalation (targetId : String)
  | autoEscalateReports

inductive ContestsRequest where
  | write (task : Contests.Task)
  | findById (id : Nat)
  | findAll (params : ContestsQueryDto)
  | getSubmissions (contestId page limit : Nat)
  | getVotes (contestId : Nat) (submissionId : Option Nat) (page limit : Nat)
  | getPrizes (contestId : Nat)
  | getPublisherStats (publisherId : String)
  | getPublisherSubmissionsOverview (contestId : Nat) (publisherId : String)
  | getPublisherVotesOverview (contestId : Nat) (publisherId : String)

inductive Operation where
  | payments (request : PaymentsRequest)
  /-- `PaymentsService.findAll`, with the filter as the DTO lets it through. -/
  | findAllPayments (userId : Option String) (params : PaymentsQueryDto)
  | rentals (request : RentalsRequest)
  | library (request : LibraryRequest)
  | moderation (request : ModerationRequest)
  | contests (request : ContestsRequest)

/-- Nobody looks at what is answered. -/
def discard {α : Type} (p : Method α) : Method Unit := do let _ ← p

section Run
variable (texts : RowTexts) (platform : Platform) (config : PaymobConfig)

def RentalsRequest.run : RentalsRequest → Method Unit
  | findById id userId => discard (commerce (Commerce.RentalsService.findById texts id userId))
  | findMyRentals userId params => discard (RentalsService.findMyRentals userId params)
  | findActiveRentalForBook userId bookId =>
    discard (commerce (Commerce.RentalsService.findActiveRentalForBook userId bookId))
  | extendRental id extensionDays userId paymentMethod => discard (commerce
      (Commerce.RentalsService.extendRental texts platform id extensionDays userId paymentMethod))
  | quoteExtension id extensionDays userId =>
    discard (RentalsService.quoteExtension id extensionDays userId)
  | returnRental id userId => discard (commerce (Commerce.RentalsService.returnRental texts id userId))
  | findOverdue => discard RentalsService.findOverdue
  | checkAndExpireOverdue => commerce (Commerce.RentalsService.checkAndExpireOverdue texts)

/-- A method of the library, taken over by way of the services that sell. -/
def ofLibrary {α : Type} (p : Library.Method α) : Method Unit :=
  discard (commerce (Commerce.library texts p))

def LibraryRequest.run : LibraryRequest → Method Unit
  | claimFreeBook userId bookId =>
    ofLibrary texts (Library.LibraryService.claimFreeBook userId bookId)
  | addToLibrary userId bookId rentalId =>
    ofLibrary texts (Library.LibraryService.addToLibrary userId bookId rentalId)
  | findMyLibrary userId params => discard (LibraryService.findMyLibrary userId params)
  | count userId => discard (query (.countItems userId))
  | accessItem id userId => discard (LibraryService.accessItem texts id userId)
  | removeFromLibrary id userId =>
    ofLibrary texts (Library.LibraryService.removeFromLibrary id userId)
  | removeBookForRefund userId bookId =>
    ofLibrary texts (Library.LibraryService.removeBookForRefund userId bookId)

def ModerationRequest.run : ModerationRequest → Method Unit
  | createReport reporterId dto =>
    discard (reports (Moderation.ModerationService.createReport reporterId dto))
  | findAllReports params => discard (ModerationService.findAllReports params)
  | updateReportStatus id status => discard (ModerationService.updateReportStatus id status)
  | takeAction reportId adminId dto =>
    discard (actions (Moderation.Restrictions.ModerationService.takeAction reportId adminId dto))
  | checkAutoEscalation targetId =>
    reports (Moderation.ModerationService.checkAutoEscalation targetId)
  | autoEscalateReports => discard (reports Moderation.ModerationService.autoEscalateReports)

def ContestsRequest.run : ContestsRequest → Method Unit
  | write task => discard (contests task.handler)
  | findById id => discard (ContestsService.loadContest id)
  | findAll params => discard (ContestsService.findAll params)
  | getSubmissions contestId page limit =>
    discard (query (.findSubmissionsByContest contestId page limit))
  | getVotes contestId submissionId page limit =>
    discard (ContestsService.getVotes contestId submissionId page limit)
  | getPrizes contestId => discard (ContestsService.getPrizes contestId)
  | getPublisherStats publisherId => discard (ContestsService.getPublisherStats publisherId)
  | getPublisherSubmissionsOverview contestId publisherId =>
    discard (ContestsService.getPublisherSubmissionsOverview contestId publisherId)
  | getPublisherVotesOverview contestId publisherId =>
    discard (ContestsService.getPublisherVotesOverview contestId publisherId)

def Operation.run : Operation → Method Unit
  | payments request => discard (commerce (request.run texts platform config))
  | findAllPayments userId params => discard (query (.findPayments userId params))
  | rentals request => request.run texts platform
  | library request => request.run texts
  | moderation request => request.run
  | contests request => request.run

/-- The operations at hand, none of them begun. -/
def pool (world : World) (operations : List Operation) :
    Pool World Call Call.Result (Except Failure Unit) :=
  ⟨world, operations.map fun operation => (operation.run texts platform config).run⟩

end Run
end Enums
