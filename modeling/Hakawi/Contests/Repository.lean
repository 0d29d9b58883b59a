import Hakawi.Common.Exceptions
import Hakawi.Store.Table
import Mathlib.Data.List.Sort

/-!
# Contests

Rows of `contests`, `contest_submissions`, `contest_votes` and `contest_prizes`,
and the repository over them. Rows are never deleted. Readers and stories are
named, not stored: a reference to one is taken to be valid.
-/

namespace Contests

open Common Store

inductive ContestStatus where
  | draft
  | active
  | voting
  | completed
  | cancelled
  deriving DecidableEq, Repr

inductive SubmissionStatus where
  | pending
  | approved
  | rejected
  | winner
  | runnerUp
  deriving DecidableEq, Repr

structure Contest where
  id : Nat
  title : String
  createdBy : String
  endDate : Int
  submissionDeadline : Int
  status : ContestStatus
  winnerId : Option String
  deriving DecidableEq

/-- No operation of the service is open to a contest that has ended, except its prizes. -/
def Contest.Ended (contest : Contest) : Prop :=
  contest.status = .completed ∨ contest.status = .cancelled

instance (contest : Contest) : Decidable contest.Ended := inferInstanceAs (Decidable (_ ∨ _))

structure ContestSubmission where
  id : Nat
  contestId : Nat
  storyId : String
  authorId : String
  status : SubmissionStatus
  reviewedBy : Option String
  deriving DecidableEq

structure ContestVote where
  id : Nat
  contestId : Nat
  submissionId : Nat
  userId : String
  deriving DecidableEq

structure DistributePrizeInput where
  contestId : Nat
  submissionId : Nat
  winnerId : String
  prizeType : String
  prizeDescription : Option String
  amount : Option Nat
  currency : Option String
  deriving DecidableEq

structure ContestPrize extends DistributePrizeInput where
  id : Nat
  deriving DecidableEq

structure CreateContestInput where
  title : String
  endDate : Int
  submissionDeadline : Int
  deriving DecidableEq

structure UpdateContestInput where
  title : Option String := none
  endDate : Option Int := none
  submissionDeadline : Option Int := none
  status : Option ContestStatus := none
  winnerId : Option String := none
  deriving DecidableEq

namespace UpdateContestInput

def apply (data : UpdateContestInput) (contest : Contest) : Contest :=
  { contest with
    title := data.title.getD contest.title
    endDate := data.endDate.getD contest.endDate
    submissionDeadline := data.submissionDeadline.getD contest.submissionDeadline
    status := data.status.getD contest.status
    winnerId := data.winnerId.or contest.winnerId }

@[simp] theorem apply_id (data : UpdateContestInput) (contest : Contest) :
    (data.apply contest).id = contest.id := rfl

end UpdateContestInput

/-- The values of the enumeration `prize_type`. -/
def PRIZE_TYPES : List String := ["cash", "badge", "recognition", "publication"]

structure ContestsTables where
  contests : Table Contest Contest.id
  submissions : Table ContestSubmission ContestSubmission.id
  votes : Table ContestVote ContestVote.id
  prizes : Table ContestPrize ContestPrize.id

namespace ContestsTables

def empty : ContestsTables := ⟨.empty, .empty, .empty, .empty⟩

def findContestById (tables : ContestsTables) (id : Nat) : Option Contest :=
  tables.contests.find? id

/-- The newest contests whose title the search matches. -/
def findAllContests (tables : ContestsTables) (matching : String → Bool) (limit : Nat) :
    List Contest :=
  (tables.contests.rows.reverse.filter (matching ·.title)).take limit

def createContest (tables : ContestsTables) (data : CreateContestInput) (createdBy : String) :
    Contest × ContestsTables :=
  let row := fun id =>
    { id, title := data.title, createdBy, endDate := data.endDate,
      submissionDeadline := data.submissionDeadline, status := .draft, winnerId := none : Contest }
  (row tables.contests.next, { tables with contests := tables.contests.insert row fun _ => rfl })

def updateContest (tables : ContestsTables) (id : Nat) (data : UpdateContestInput) :
    Option Contest × ContestsTables :=
  ((tables.contests.find? id).map data.apply,
    { tables with contests := tables.contests.modify id data.apply data.apply_id })

def findSubmissionById (tables : ContestsTables) (id : Nat) : Option ContestSubmission :=
  tables.submissions.find? id

def findSubmissionByContestAndAuthor (tables : ContestsTables) (contestId : Nat)
    (authorId : String) : Option ContestSubmission :=
  tables.submissions.rows.find? fun s => s.contestId = contestId ∧ s.authorId = authorId

def createSubmission (tables : ContestsTables) (contestId : Nat) (storyId authorId : String) :
    ContestSubmission × ContestsTables :=
  let row := fun id =>
    { id, contestId, storyId, authorId, status := .pending, reviewedBy := none : ContestSubmission }
  (row tables.submissions.next,
    { tables with submissions := tables.submissions.insert row fun _ => rfl })

def review (status : SubmissionStatus) (reviewedBy : String) (submission : ContestSubmission) :
    ContestSubmission :=
  { submission with status, reviewedBy := some reviewedBy }

@[simp] theorem review_id (status : SubmissionStatus) (reviewedBy : String)
    (submission : ContestSubmission) : (review status reviewedBy submission).id = submission.id :=
  rfl

def reviewSubmission (tables : ContestsTables) (id : Nat) (status : SubmissionStatus)
    (reviewedBy : String) : Option ContestSubmission × ContestsTables :=
  ((tables.submissions.find? id).map (review status reviewedBy),
    { tables with
      submissions := tables.submissions.modify id (review status reviewedBy)
        (review_id status reviewedBy) })

def findVoteByUserContestSubmission (tables : ContestsTables) (contestId submissionId : Nat)
    (userId : String) : Option ContestVote :=
  tables.votes.rows.find? fun v =>
    v.contestId = contestId ∧ v.submissionId = submissionId ∧ v.userId = userId

/-- One vote of a reader for a submission in a contest. -/
def castVote (tables : ContestsTables) (contestId submissionId : Nat) (userId : String) :
    Except Failure (ContestVote × ContestsTables) :=
  match tables.findVoteByUserContestSubmission contestId submissionId userId with
  | some _ => .error (.uniqueViolation "contest_votes_contest_id_submission_id_user_id_key")
  | none =>
    let row := fun id => { id, contestId, submissionId, userId : ContestVote }
    .ok (row tables.votes.next, { tables with votes := tables.votes.insert row fun _ => rfl })

/-- The columns of a prize refer to rows, and its type is one of the enumeration. -/
def createPrize (tables : ContestsTables) (data : DistributePrizeInput) :
    Except Failure (ContestPrize × ContestsTables) :=
  if data.prizeType ∉ PRIZE_TYPES then
    .error (.error s!"invalid input value for enum prize_type: \"{data.prizeType}\"")
  else if (tables.findContestById data.contestId).isNone then
    .error (.error ("insert or update on table \"contest_prizes\" violates foreign key " ++
      "constraint \"contest_prizes_contest_id_fkey\""))
  else if (tables.findSubmissionById data.submissionId).isNone then
    .error (.error ("insert or update on table \"contest_prizes\" violates foreign key " ++
      "constraint \"contest_prizes_submission_id_fkey\""))
  else
    let row := fun id => { data with id : ContestPrize }
    .ok (row tables.prizes.next, { tables with prizes := tables.prizes.insert row fun _ => rfl })

/-- The submissions of a contest, whatever has become of them. -/
def entries (tables : ContestsTables) (contestId : Nat) : List ContestSubmission :=
  tables.submissions.rows.filter (·.contestId = contestId)

/-- `count(contest_votes.id)` of the group of a submission in the left join. -/
def voteCount (tables : ContestsTables) (submission : ContestSubmission) : Nat :=
  tables.votes.rows.countP (·.submissionId = submission.id)

/-- The groups come in the order `rank` says, and among equal counts the first one wins. -/
def findWinningSubmission (tables : ContestsTables) (rank : Nat → Nat) (contestId : Nat) :
    Option ContestSubmission :=
  let groups := (tables.entries contestId).insertionSort fun s t => rank s.id ≤ rank t.id
  (groups.insertionSort fun s t => tables.voteCount t ≤ tables.voteCount s).head?

/-- A vote that is cast changes no other table. -/
theorem castVote_eq_ok {tables after : ContestsTables} {contestId submissionId : Nat}
    {userId : String} {vote : ContestVote}
    (ok : tables.castVote contestId submissionId userId = .ok (vote, after)) :
    after = { tables with votes := after.votes } := by
  simp only [castVote] at ok
  split at ok
  · cases ok
  · obtain rfl := congrArg Prod.snd (Except.ok.inj ok)
    rfl

theorem mem_entries {tables : ContestsTables} {contestId : Nat} {submission : ContestSubmission} :
    submission ∈ tables.entries contestId ↔
      submission ∈ tables.submissions.rows ∧ submission.contestId = contestId := by
  simp [entries]

/-- The first of a list sorted by falling counts has the greatest count. -/
theorem head_of_falling {α : Type} (count : α → Nat) {rows : List α} {first : α}
    (h : (rows.insertionSort fun a b => count b ≤ count a).head? = some first) :
    first ∈ rows ∧ ∀ a ∈ rows, count a ≤ count first := by
  have total : Std.Total fun a b : α => count b ≤ count a := ⟨fun a b => Nat.le_total _ _⟩
  have trans : IsTrans α fun a b => count b ≤ count a := ⟨fun a b c ab bc => bc.trans ab⟩
  have sorted := List.pairwise_insertionSort (fun a b : α => count b ≤ count a) rows
  have same := List.perm_insertionSort (fun a b : α => count b ≤ count a) rows
  obtain ⟨rest, split⟩ := List.head?_eq_some_iff.mp h
  rw [split] at sorted same
  refine ⟨same.mem_iff.mp List.mem_cons_self, fun a member => ?_⟩
  rcases List.mem_cons.mp (same.mem_iff.mpr member) with rfl | later
  · exact Nat.le_refl _
  · exact (List.pairwise_cons.mp sorted).1 a later

/-- What the query answers leads the contest, whatever order the groups come in. -/
theorem findWinningSubmission_leads {tables : ContestsTables} {rank : Nat → Nat}
    {contestId : Nat} {submission : ContestSubmission}
    (h : tables.findWinningSubmission rank contestId = some submission) :
    submission ∈ tables.entries contestId ∧
      ∀ other ∈ tables.entries contestId,
        tables.voteCount other ≤ tables.voteCount submission := by
  obtain ⟨member, most⟩ := head_of_falling tables.voteCount h
  have same := List.perm_insertionSort
    (fun s t : ContestSubmission => rank s.id ≤ rank t.id) (tables.entries contestId)
  exact ⟨same.mem_iff.mp member, fun other entered => most other (same.mem_iff.mpr entered)⟩

/-- It answers nothing only for a contest nobody entered. -/
theorem findWinningSubmission_eq_none {tables : ContestsTables} {rank : Nat → Nat}
    {contestId : Nat} :
    tables.findWinningSubmission rank contestId = none ↔ tables.entries contestId = [] := by
  rw [findWinningSubmission, List.head?_eq_none_iff, ← List.length_eq_zero_iff,
    List.length_insertionSort, List.length_insertionSort, List.length_eq_zero_iff]

end ContestsTables
end Contests
