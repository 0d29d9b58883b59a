import Hakawi.Contests.Repository
import Hakawi.Effects.Pool

/-!
# The contests service

Each operation is a program over the calls of the repository, the clock and the
announcements; between two calls anything may happen. The environment decides how
much time passes before a call and in which order the database visits the rows of
a query that does not say.
-/

namespace Contests

open Common Store Effects

inductive ContestEvent where
  | created (contestId : Nat) (createdBy : String)
  | updated (contestId : Nat)
  | started (contestId : Nat)
  | cancelled (contestId : Nat)
  | completed (contestId : Nat) (winnerId : Option String)
  | winnerSelected (contestId submissionId : Nat) (winnerId : String)
  | submissionSubmitted (submissionId contestId : Nat) (authorId : String)
  | submissionReviewed (submissionId contestId : Nat) (status : SubmissionStatus)
      (authorId : String)
  | voteCast (voteId contestId submissionId : Nat) (userId : String)
  | prizeDistributed (prizeId contestId : Nat) (winnerId : String)
  deriving DecidableEq

structure System where
  now : Int
  tables : ContestsTables
  events : List ContestEvent

inductive Call where
  | readClock
  | findContestById (id : Nat)
  | findAllContests (matching : String → Bool) (limit : Nat)
  | createContest (data : CreateContestInput) (createdBy : String)
  | updateContest (id : Nat) (data : UpdateContestInput)
  | findSubmissionById (id : Nat)
  | findSubmissionByContestAndAuthor (contestId : Nat) (authorId : String)
  | createSubmission (contestId : Nat) (storyId authorId : String)
  | reviewSubmission (id : Nat) (status : SubmissionStatus) (reviewedBy : String)
  | findVoteByUserContestSubmission (contestId submissionId : Nat) (userId : String)
  | castVote (contestId submissionId : Nat) (userId : String)
  | findWinningSubmission (contestId : Nat)
  | createPrize (data : DistributePrizeInput)
  | emit (event : ContestEvent)

abbrev Call.Answer : Call → Type
  | .readClock => Int
  | .findContestById _ => Option Contest
  | .findAllContests _ _ => List Contest
  | .createContest _ _ => Contest
  | .updateContest _ _ => Option Contest
  | .findSubmissionById _ => Option ContestSubmission
  | .findSubmissionByContestAndAuthor _ _ => Option ContestSubmission
  | .createSubmission _ _ _ => ContestSubmission
  | .reviewSubmission _ _ _ => Option ContestSubmission
  | .findVoteByUserContestSubmission _ _ _ => Option ContestVote
  | .castVote _ _ _ => Except Failure ContestVote
  | .findWinningSubmission _ => Option ContestSubmission
  | .createPrize _ => Except Failure ContestPrize
  | .emit _ => Unit

/-- What the environment decides at a call. -/
structure Choice where
  elapsed : Nat := 0
  rank : Nat → Nat := id

namespace System

/-- The tables after a statement that may be refused, which then changes nothing. -/
def written {α : Type} (system : System) (result : Except Failure (α × ContestsTables)) :
    Except Failure α × System :=
  match result with
  | .error e => (.error e, system)
  | .ok (row, tables) => (.ok row, { system with tables })

def perform (system : System) (rank : Nat → Nat) : (call : Call) → call.Answer × System
  | .readClock => (system.now, system)
  | .findContestById id => (system.tables.findContestById id, system)
  | .findAllContests matching limit => (system.tables.findAllContests matching limit, system)
  | .createContest data createdBy =>
    let created := system.tables.createContest data createdBy
    (created.1, { system with tables := created.2 })
  | .updateContest id data =>
    let updated := system.tables.updateContest id data
    (updated.1, { system with tables := updated.2 })
  | .findSubmissionById id => (system.tables.findSubmissionById id, system)
  | .findSubmissionByContestAndAuthor contestId authorId =>
    (system.tables.findSubmissionByContestAndAuthor contestId authorId, system)
  | .createSubmission contestId storyId authorId =>
    let created := system.tables.createSubmission contestId storyId authorId
    (created.1, { system with tables := created.2 })
  | .reviewSubmission id status reviewedBy =>
    let reviewed := system.tables.reviewSubmission id status reviewedBy
    (reviewed.1, { system with tables := reviewed.2 })
  | .findVoteByUserContestSubmission contestId submissionId userId =>
    (system.tables.findVoteByUserContestSubmission contestId submissionId userId, system)
  | .castVote contestId submissionId userId =>
    system.written (system.tables.castVote contestId submissionId userId)
  | .findWinningSubmission contestId =>
    (system.tables.findWinningSubmission rank contestId, system)
  | .createPrize data => system.written (system.tables.createPrize data)
  | .emit event => ((), { system with events := system.events ++ [event] })

end System

/-- Some time passes before the call. -/
def exec (choice : Choice) (system : System) (call : Call) : call.Answer × System :=
  System.perform { system with now := system.now + choice.elapsed } choice.rank call

abbrev Handler (α : Type) : Type := Fallible Call Call.Answer Failure α

@[simp] def call (op : Call) : Handler op.Answer :=
  ExceptT.mk (.call op fun answer => .done (.ok answer))

/-- The row that was found, or the exception for none. -/
def orNotFound {α : Type} (found : Option α) (message : String) : Except Failure α :=
  match found with
  | some row => .ok row
  | none => .error (.notFound message)

def assertContestOwnership (contest : Contest) (userId action : String) : Except Failure Unit :=
  if contest.createdBy ≠ userId then
    .error (.forbidden s!"You can only {action} your own contests")
  else .ok ()

/-- The submission that was found, if it is one of the contest's. -/
def ofContest (found : Option ContestSubmission) (contestId : Nat) :
    Except Failure ContestSubmission :=
  match found with
  | none => .error (.notFound "Submission not found in this contest")
  | some submission =>
    if submission.contestId ≠ contestId then
      .error (.notFound "Submission not found in this contest")
    else .ok submission

def guard (allowed : Bool) (failure : Failure) : Except Failure Unit :=
  if allowed then .ok () else .error failure

theorem orNotFound_eq_ok {α : Type} {found : Option α} {message : String} {row : α} :
    orNotFound found message = .ok row ↔ found = some row := by
  cases found <;> simp [orNotFound]

theorem ofContest_eq_ok {found : Option ContestSubmission} {contestId : Nat}
    {submission : ContestSubmission} : ofContest found contestId = .ok submission ↔
      found = some submission ∧ submission.contestId = contestId := by
  cases found with
  | none => simp [ofContest]
  | some row =>
    simp only [ofContest, ne_eq, Option.some.injEq]
    split <;> grind

theorem guard_eq_ok {allowed : Bool} {failure : Failure} {u : Unit} :
    guard allowed failure = .ok u ↔ allowed = true := by
  cases allowed <;> simp [guard]

/-- The functions of a text that the search for a duplicate title uses. -/
structure TitleText where
  trim : String → String
  toLowerCase : String → String
  /-- `title LIKE '%' || search || '%'` -/
  like : String → String → Bool

def create (text : TitleText) (createdBy : String) (input : CreateContestInput) :
    Handler Contest := do
  let title := text.trim input.title
  let existing ← call (.findAllContests (text.like · title) 1)
  guard (existing.all fun c => text.toLowerCase c.title ≠ text.toLowerCase title)
    (.conflict "Contest title already exists")
  let contest ← call (.createContest input createdBy)
  call (.emit (.created contest.id createdBy))
  return contest

/-- What a request to change a contest may carry. -/
structure UpdateContestDto where
  title : Option String := none
  endDate : Option Int := none
  submissionDeadline : Option Int := none
  status : Option ContestStatus := none
  deriving DecidableEq

def UpdateContestDto.data (dto : UpdateContestDto) : UpdateContestInput :=
  { title := dto.title, endDate := dto.endDate, submissionDeadline := dto.submissionDeadline,
    status := dto.status }

def update (id : Nat) (input : UpdateContestDto) (userId : String) :
    Handler (Option Contest) := do
  let existing ← orNotFound (← call (.findContestById id)) "Contest not found"
  assertContestOwnership existing userId "update"
  guard (¬ existing.Ended) (.forbidden "Cannot update a completed or cancelled contest")
  let contest ← call (.updateContest id input.data)
  call (.emit (.updated id))
  return contest

def start (id : Nat) (userId : String) : Handler (Option Contest) := do
  let contest ← orNotFound (← call (.findContestById id)) "Contest not found"
  assertContestOwnership contest userId "start"
  guard (contest.status = .draft) (.forbidden "Contest is not in draft status")
  let updated ← call (.updateContest id { status := some .active })
  call (.emit (.started id))
  return updated

def cancel (id : Nat) (userId : String) : Handler (Option Contest) := do
  let contest ← orNotFound (← call (.findContestById id)) "Contest not found"
  assertContestOwnership contest userId "cancel"
  guard (¬ contest.Ended) (.forbidden "Cannot cancel a completed or already cancelled contest")
  let updated ← call (.updateContest id { status := some .cancelled })
  call (.emit (.cancelled id))
  return updated

def announceWinner (contestId : Nat) : Option ContestSubmission → Handler Unit
  | none => return
  | some winning => call (.emit (.winnerSelected contestId winning.id winning.authorId))

def complete (id : Nat) (userId : String) : Handler (Option Contest) := do
  let contest ← orNotFound (← call (.findContestById id)) "Contest not found"
  assertContestOwnership contest userId "complete"
  guard (¬ contest.Ended)
    (.forbidden "Cannot complete an already completed or cancelled contest")
  let winning ← call (.findWinningSubmission id)
  let winnerId := winning.map ContestSubmission.authorId
  let updated ← call (.updateContest id { status := some .completed, winnerId })
  announceWinner id winning
  call (.emit (.completed id winnerId))
  return updated

def submitStory (contestId : Nat) (authorId storyId userId : String) :
    Handler ContestSubmission := do
  guard (authorId = userId) (.forbidden "You can only submit stories as yourself")
  let contest ← orNotFound (← call (.findContestById contestId)) "Contest not found"
  guard (contest.status = .active) (.forbidden "Contest is not accepting submissions")
  let now ← call .readClock
  guard (now ≤ contest.submissionDeadline) (.forbidden "Submission deadline has passed")
  let existing ← call (.findSubmissionByContestAndAuthor contestId authorId)
  guard existing.isNone (.conflict "You have already submitted a story to this contest")
  let submission ← call (.createSubmission contestId storyId authorId)
  call (.emit (.submissionSubmitted submission.id contestId authorId))
  return submission

/-- `approveSubmission` and `rejectSubmission` -/
def reviewSubmission (status : SubmissionStatus) (verb : String) (submissionId contestId : Nat)
    (userId : String) : Handler (Option ContestSubmission) := do
  let submission ← orNotFound (← call (.findSubmissionById submissionId)) "Submission not found"
  let contest ← orNotFound (← call (.findContestById contestId)) "Contest not found"
  assertContestOwnership contest userId "review submissions for"
  guard (contest.status = .active ∨ contest.status = .voting)
    (.forbidden s!"Contest is not in a state to {verb} submissions")
  guard (submission.contestId = contestId) (.notFound "Submission not found in this contest")
  let updated ← call (.reviewSubmission submissionId status userId)
  call (.emit (.submissionReviewed submissionId contestId status submission.authorId))
  return updated

def approveSubmission := reviewSubmission .approved "approve"

def rejectSubmission := reviewSubmission .rejected "reject"

def castVote (contestId submissionId : Nat) (userId : String) : Handler ContestVote := do
  let contest ← orNotFound (← call (.findContestById contestId)) "Contest not found"
  guard (contest.status = .voting) (.forbidden "Voting is not currently open for this contest")
  let now ← call .readClock
  guard (now ≤ contest.endDate) (.forbidden "Voting has closed for this contest")
  let submission ← ofContest (← call (.findSubmissionById submissionId)) contestId
  guard (submission.authorId ≠ userId) (.forbidden "You cannot vote for your own submission")
  guard (submission.status = .approved) (.forbidden "Only approved submissions can be voted on")
  let existing ← call (.findVoteByUserContestSubmission contestId submissionId userId)
  guard existing.isNone (.conflict "You have already voted for this submission")
  let vote ← (← call (.castVote contestId submissionId userId) : Except Failure ContestVote)
  call (.emit (.voteCast vote.id contestId submissionId userId))
  return vote

def selectWinner (contestId submissionId : Nat) (winnerId userId : String) :
    Handler (Option Contest) := do
  let contest ← orNotFound (← call (.findContestById contestId)) "Contest not found"
  assertContestOwnership contest userId "select a winner for"
  guard (contest.status = .voting) (.forbidden "Contest is not in voting phase")
  let submission ← ofContest (← call (.findSubmissionById submissionId)) contestId
  guard (submission.authorId = winnerId)
    (.forbidden "Winner must be the author of the selected submission")
  let updated ← call
    (.updateContest contestId { winnerId := some winnerId, status := some .completed })
  call (.emit (.winnerSelected contestId submissionId winnerId))
  call (.emit (.completed contestId (some winnerId)))
  return updated

def distributePrize (data : DistributePrizeInput) (userId : String) : Handler ContestPrize := do
  let contest ← orNotFound (← call (.findContestById data.contestId)) "Contest not found"
  assertContestOwnership contest userId "distribute a prize for"
  guard (contest.status = .completed)
    (.forbidden "Contest must be completed before distributing prizes")
  guard (data.amount.isNone = data.currency.isNone)
    (.badRequest "Prize amount and currency must be provided together")
  let prize ← (← call (.createPrize data) : Except Failure ContestPrize)
  call (.emit (.prizeDistributed prize.id data.contestId data.winnerId))
  return prize

end Contests
