import Hakawi.Enums.Vocabulary
import Mathlib.Algebra.Order.BigOperators.Group.List

/-!
# The totals of a publisher

The totals are folded over the first page of all contests, and the statuses over the first
thousand submissions of each. They are right when nothing of the publisher's lies behind.
-/

namespace Enums.ContestsService
open Common Store Effects Payments Contests

section Totals
variable (tables : ContestsTables) (publisherId : String)

/-- The contests the publisher created, however old. -/
def contestsOf : List Contest := tables.contests.rows.filter (·.createdBy = publisherId)

def totalOf (count : Contest → Nat) : Nat := ((contestsOf tables publisherId).map count).sum

def withStatus (status : SubmissionStatus) (contest : Contest) : Nat :=
  (tables.entries contest.id).countP (·.status = status)

/-- What the figures of a publisher are meant to be. -/
def totals : PublisherStats where
  totalContests := (contestsOf tables publisherId).length
  activeContests := (contestsOf tables publisherId).countP fun c =>
    c.status = .active ∨ c.status = .voting
  completedContests := (contestsOf tables publisherId).countP (·.status = .completed)
  totalSubmissions := totalOf tables publisherId fun c => (tables.entries c.id).length
  pendingSubmissions := totalOf tables publisherId (withStatus tables .pending)
  approvedSubmissions := totalOf tables publisherId (withStatus tables .approved)
  rejectedSubmissions := totalOf tables publisherId (withStatus tables .rejected)
  totalVotes := totalOf tables publisherId fun c =>
    tables.votes.rows.countP (·.contestId = c.id)
  totalPrizes := totalOf tables publisherId fun c =>
    (tables.prizes.rows.filter (·.contestId = c.id)).length

/-- The contests behind the first page. -/
def laterContests : List Contest := tables.contests.rows.reverse.drop 20

/-- The submissions of a contest behind its thousand newest. -/
def laterEntries (contestId : Nat) : List ContestSubmission :=
  (tables.entries contestId).reverse.drop 1000

end Totals

section Evaluation
variable (schema : TransactionsSchema)

/-- The figures after one more contest, of which a thousand submissions are looked at. -/
def counted (tables : ContestsTables) (stats : PublisherStats) (contest : Contest) :
    PublisherStats :=
  let ofStatus (status : SubmissionStatus) :=
    ((tables.entries contest.id).reverse.take 1000).countP (·.status = status)
  { stats with
    totalSubmissions := stats.totalSubmissions + (tables.entries contest.id).length
    pendingSubmissions := stats.pendingSubmissions + ofStatus .pending
    approvedSubmissions := stats.approvedSubmissions + ofStatus .approved
    rejectedSubmissions := stats.rejectedSubmissions + ofStatus .rejected
    totalVotes := stats.totalVotes + tables.votes.rows.countP (·.contestId = contest.id)
    totalPrizes := stats.totalPrizes +
      (tables.prizes.rows.filter (·.contestId = contest.id)).reverse.length }

variable (choices : Nat → Choice) (world : World)

theorem addContest_eval (stats : PublisherStats) (contest : Contest) :
    (addContest stats contest).run.eval (World.exec schema) choices world =
      (.ok (counted world.contests.tables stats contest), world) := rfl

theorem addContests_eval (own : List Contest) (stats : PublisherStats) :
    (own.foldlM addContest stats).run.eval (World.exec schema) choices world =
      (.ok (own.foldl (counted world.contests.tables) stats), world) := by
  induction own generalizing stats choices with
  | nil => rfl
  | cons contest rest ih =>
    rw [List.foldlM_cons, ExceptT.run_bind, Program.eval_bind, addContest_eval]
    exact ih _ _

/-- The contests that the fold is over: those of the publisher's on the first page. -/
def firstContests (tables : ContestsTables) (publisherId : String) : List Contest :=
  (tables.contests.rows.reverse.take 20).filter (·.createdBy = publisherId)

theorem getPublisherStats_eval (publisherId : String) :
    (getPublisherStats publisherId).run.eval (World.exec schema) choices world =
      (.ok ((firstContests world.contests.tables publisherId).foldl
        (counted world.contests.tables)
        { totalContests := (firstContests world.contests.tables publisherId).length
          activeContests := (firstContests world.contests.tables publisherId).countP fun c =>
            c.status = .active ∨ c.status = .voting
          completedContests := (firstContests world.contests.tables publisherId).countP
            (·.status = .completed) }), world) := by
  have page : (world.answer (.findContests {})).1.1 =
      world.contests.tables.contests.rows.reverse.take 20 := by
    simp [World.answer, paged, matchesFilter]
  rw [firstContests, ← page]
  exact addContests_eval schema _ world _ _

end Evaluation

section Sums
variable (tables : ContestsTables)

/-- How many of the submissions that are looked at have the status. -/
def looked (status : SubmissionStatus) (contest : Contest) : Nat :=
  ((tables.entries contest.id).reverse.take 1000).countP (·.status = status)

theorem foldl_counted (own : List Contest) (stats : PublisherStats) :
    own.foldl (counted tables) stats =
      { stats with
        totalSubmissions := stats.totalSubmissions +
          (own.map fun c => (tables.entries c.id).length).sum
        pendingSubmissions := stats.pendingSubmissions + (own.map (looked tables .pending)).sum
        approvedSubmissions := stats.approvedSubmissions + (own.map (looked tables .approved)).sum
        rejectedSubmissions := stats.rejectedSubmissions + (own.map (looked tables .rejected)).sum
        totalVotes := stats.totalVotes +
          (own.map fun c => tables.votes.rows.countP (·.contestId = c.id)).sum
        totalPrizes := stats.totalPrizes +
          (own.map fun c => (tables.prizes.rows.filter (·.contestId = c.id)).length).sum } := by
  induction own generalizing stats with
  | nil => rfl
  | cons contest rest ih =>
    rw [List.foldl_cons, ih]
    simp only [counted, looked, List.map_cons, List.sum_cons, Nat.add_assoc, List.length_reverse]

theorem withStatus_eq (status : SubmissionStatus) (contest : Contest) :
    withStatus tables status contest = looked tables status contest +
      (laterEntries tables contest.id).countP (·.status = status) := by
  rw [withStatus, looked, laterEntries, ← List.countP_append, List.take_append_drop,
    List.countP_reverse]

/-- A status is counted in full when no later submission has it. -/
theorem looked_sum_iff (status : SubmissionStatus) (own : List Contest) :
    (own.map (looked tables status)).sum = (own.map (withStatus tables status)).sum ↔
      ∀ contest ∈ own, ∀ submission ∈ laterEntries tables contest.id,
        submission.status ≠ status := by
  have split : (own.map (withStatus tables status)).sum =
      (own.map (looked tables status)).sum +
        (own.map fun c => (laterEntries tables c.id).countP (·.status = status)).sum := by
    rw [← List.sum_map_add]
    exact congrArg List.sum (List.map_congr_left fun c _ => withStatus_eq tables status c)
  rw [split, Nat.left_eq_add, List.sum_eq_zero_iff]
  simp [List.countP_eq_zero]

variable (publisherId : String)

theorem contestsOf_reverse : (contestsOf tables publisherId).reverse =
    firstContests tables publisherId ++
      (laterContests tables).filter (·.createdBy = publisherId) := by
  rw [contestsOf, ← List.filter_reverse, firstContests, laterContests, ← List.filter_append,
    List.take_append_drop]

/-- All contests are counted when no later one is the publisher's. -/
theorem firstContests_length_iff :
    (firstContests tables publisherId).length = (contestsOf tables publisherId).length ↔
      ∀ contest ∈ laterContests tables, contest.createdBy ≠ publisherId := by
  have whole := congrArg List.length (contestsOf_reverse tables publisherId)
  rw [List.length_reverse, List.length_append] at whole
  rw [whole, Nat.left_eq_add, List.length_eq_zero_iff, List.filter_eq_nil_iff]
  simp

end Sums

/-- What is behind the pages: no contest of the publisher's, and no submission to one with a
status that is counted. -/
structure WithinPages (tables : ContestsTables) (publisherId : String) : Prop where
  contests : ∀ contest ∈ laterContests tables, contest.createdBy ≠ publisherId
  submissions : ∀ contest ∈ contestsOf tables publisherId,
    ∀ submission ∈ laterEntries tables contest.id,
      submission.status ∉ [.pending, .approved, .rejected]

/-- The figures are the totals if and only if they all fit the pages that are read. -/
theorem publisher_stats_exact (schema : TransactionsSchema) (choices : Nat → Choice)
    (world : World) (publisherId : String) :
    ((getPublisherStats publisherId).run.eval (World.exec schema) choices world).1 =
        .ok (totals world.contests.tables publisherId) ↔
      WithinPages world.contests.tables publisherId := by
  rw [getPublisherStats_eval, foldl_counted]
  generalize world.contests.tables = tables
  -- When every contest is on the page, the sums are over the same contests.
  have same (all : ∀ contest ∈ laterContests tables, contest.createdBy ≠ publisherId) :
      firstContests tables publisherId = (contestsOf tables publisherId).reverse := by
    rw [contestsOf_reverse, List.filter_eq_nil_iff.mpr (by simpa using all), List.append_nil]
  have sums (count : Contest → Nat) : ((contestsOf tables publisherId).reverse.map count).sum =
      totalOf tables publisherId count := by
    rw [List.map_reverse, List.sum_reverse, totalOf]
  constructor
  · intro equal
    injection equal with equal
    rw [totals, PublisherStats.mk.injEq] at equal
    obtain ⟨all, -, -, -, pending, approved, rejected, -, -⟩ := equal
    have all := (firstContests_length_iff tables publisherId).mp all
    refine ⟨all, fun contest own submission later => ?_⟩
    rw [same all, Nat.zero_add, List.map_reverse, List.sum_reverse] at pending approved rejected
    have first := (looked_sum_iff tables .pending _).mp pending contest own submission later
    have second := (looked_sum_iff tables .approved _).mp approved contest own submission later
    have third := (looked_sum_iff tables .rejected _).mp rejected contest own submission later
    simp [first, second, third]
  · rintro ⟨all, counted⟩
    have each (status : SubmissionStatus) (listed : status ∈ [.pending, .approved, .rejected]) :
        totalOf tables publisherId (looked tables status) =
          totalOf tables publisherId (withStatus tables status) := by
      rw [totalOf, totalOf, looked_sum_iff]
      rintro contest own submission later rfl
      exact counted contest own submission later listed
    rw [same all, totals]
    simp only [sums, Nat.zero_add, List.length_reverse, List.countP_reverse]
    rw [each .pending (by decide), each .approved (by decide), each .rejected (by decide)]

/-- A contest of the publisher's, and twenty newer ones of another. -/
def crowdedOut : World :=
  let create (tables : ContestsTables) (createdBy : String) :=
    (tables.createContest ⟨"Moon Tales", 20, 10⟩ createdBy).2
  { World.empty with
    contests.tables := ("publisher" :: List.replicate 20 "other").foldl create .empty }

/-- The publisher is told of no contest. -/
theorem publisher_stats_crowded_out :
    ((getPublisherStats "publisher").run.eval (World.exec paymentTransactionsP) (fun _ => {})
      crowdedOut).1 ≠ .ok (totals crowdedOut.contests.tables "publisher") := by
  rw [getPublisherStats_eval, foldl_counted]
  intro equal
  injection equal with equal
  have all := congrArg PublisherStats.totalContests equal
  revert all
  decide

end Enums.ContestsService
