import Hakawi.Contests.Winners

/-!
# Prizes

A prize names a contest, a submission and a winner, all three taken from the
request, and nothing compares them with what the contest has recorded. The
requests are any number, interleaved at their calls. What tells two placings
apart is left open: it is any function of the columns of a prize.
-/

namespace Contests

open Common Store Effects

/-- What the service can be asked to do. -/
inductive Task where
  | create (text : TitleText) (createdBy : String) (input : CreateContestInput)
  | update (id : Nat) (input : UpdateContestDto) (userId : String)
  | start (id : Nat) (userId : String)
  | cancel (id : Nat) (userId : String)
  | complete (id : Nat) (userId : String)
  | submitStory (contestId : Nat) (authorId storyId userId : String)
  | approveSubmission (submissionId contestId : Nat) (userId : String)
  | rejectSubmission (submissionId contestId : Nat) (userId : String)
  | castVote (contestId submissionId : Nat) (userId : String)
  | selectWinner (contestId submissionId : Nat) (winnerId userId : String)
  | distributePrize (data : DistributePrizeInput) (userId : String)

/-- What a request answers with. -/
inductive Reply where
  | contest (row : Option Contest)
  | submission (row : Option ContestSubmission)
  | vote (row : ContestVote)
  | prize (row : ContestPrize)

def Task.handler : Task → Handler Reply
  | .create text createdBy input => (.contest ∘ some) <$> Contests.create text createdBy input
  | .update id input userId => .contest <$> Contests.update id input userId
  | .start id userId => .contest <$> Contests.start id userId
  | .cancel id userId => .contest <$> Contests.cancel id userId
  | .complete id userId => .contest <$> Contests.complete id userId
  | .submitStory contestId authorId storyId userId =>
    (.submission ∘ some) <$> Contests.submitStory contestId authorId storyId userId
  | .approveSubmission submissionId contestId userId =>
    .submission <$> Contests.approveSubmission submissionId contestId userId
  | .rejectSubmission submissionId contestId userId =>
    .submission <$> Contests.rejectSubmission submissionId contestId userId
  | .castVote contestId submissionId userId =>
    .vote <$> Contests.castVote contestId submissionId userId
  | .selectWinner contestId submissionId winnerId userId =>
    .contest <$> Contests.selectWinner contestId submissionId winnerId userId
  | .distributePrize data userId => .prize <$> Contests.distributePrize data userId

/-- The requests at hand, none of them begun. -/
def pool (system : System) (tasks : List Task) :
    Pool System Call Call.Answer (Except Failure Reply) :=
  ⟨system, tasks.map fun task => task.handler.run⟩

section Placings
variable {P : Type} (placing : DistributePrizeInput → P)

namespace ContestsTables

/-- The columns name the winner on record and his submission in that contest. -/
def Earned (tables : ContestsTables) (data : DistributePrizeInput) : Prop :=
  (tables.findContestById data.contestId).bind Contest.winnerId = some data.winnerId ∧
    ∃ submission ∈ tables.findSubmissionById data.submissionId,
      submission.contestId = data.contestId ∧ submission.authorId = data.winnerId

/-- No prize of the contest has this placing yet. -/
def Unplaced (tables : ContestsTables) (data : DistributePrizeInput) : Prop :=
  ∀ prize ∈ tables.prizes.rows, prize.contestId = data.contestId →
    placing prize.toDistributePrizeInput ≠ placing data

def HasPrize (tables : ContestsTables) (contestId : Nat) : Prop :=
  ∃ prize ∈ tables.prizes.rows, prize.contestId = contestId

instance (tables : ContestsTables) (data : DistributePrizeInput) :
    Decidable (tables.Earned data) := inferInstanceAs (Decidable (_ ∧ _))

instance [DecidableEq P] (tables : ContestsTables) (data : DistributePrizeInput) :
    Decidable (tables.Unplaced placing data) :=
  inferInstanceAs (Decidable (∀ _ ∈ _, _))

instance (tables : ContestsTables) (contestId : Nat) : Decidable (tables.HasPrize contestId) :=
  inferInstanceAs (Decidable (∃ _ ∈ _, _))

/-- Every prize is earned, and a contest gives one prize for a placing. -/
structure Awarded (tables : ContestsTables) : Prop where
  earned : ∀ prize ∈ tables.prizes.rows, tables.Earned prize.toDistributePrizeInput
  distinct : tables.prizes.rows.Pairwise fun p q => p.contestId = q.contestId →
    placing p.toDistributePrizeInput ≠ placing q.toDistributePrizeInput

end ContestsTables

/-- A prize is written for the winner on record, his submission in the contest and a placing
still open; and no contest that has given a prize gets another winner. -/
def Deserved (system : System) : Call → Prop
  | .createPrize data => (system.tables.createPrize data).isOk →
      system.tables.Earned data ∧ system.tables.Unplaced placing data
  | .updateContest id data => ∀ winner ∈ data.winnerId, system.tables.HasPrize id →
      (system.tables.findContestById id).bind Contest.winnerId = some winner
  | _ => True

variable {placing} {before after : ContestsTables}

namespace ContestsTables

theorem Awarded.keep (awarded : before.Awarded placing)
    (same : after.prizes.rows = before.prizes.rows)
    (kept : ∀ prize ∈ before.prizes.rows, before.Earned prize.toDistributePrizeInput →
      after.Earned prize.toDistributePrizeInput) : after.Awarded placing := by
  refine ⟨fun prize member => ?_, same ▸ awarded.distinct⟩
  rw [same] at member
  exact kept prize member (awarded.earned prize member)

theorem Earned.insert_contest {data : DistributePrizeInput} (earned : before.Earned data)
    (input : CreateContestInput) (createdBy : String) :
    (before.createContest input createdBy).2.Earned data := by
  obtain ⟨won, wrote⟩ := earned
  refine ⟨?_, wrote⟩
  obtain ⟨contest, found, winner⟩ := Option.bind_eq_some_iff.mp won
  have older := Table.lt_next_of_find? found
  simp only [findContestById, createContest, Table.find?_insert] at found ⊢
  rw [if_neg (by omega), found]
  exact winner

theorem Earned.update_contest {data : DistributePrizeInput} (earned : before.Earned data) {id : Nat}
    {input : UpdateContestInput}
    (keeps : id = data.contestId → ∀ winner ∈ input.winnerId, winner = data.winnerId) :
    (before.updateContest id input).2.Earned data := by
  obtain ⟨won, wrote⟩ := earned
  refine ⟨?_, wrote⟩
  obtain ⟨contest, found, winner⟩ := Option.bind_eq_some_iff.mp won
  simp only [findContestById, updateContest, Table.find?_modify] at found ⊢
  split
  · rename_i same
    rw [found]
    cases named : input.winnerId with
    | none => simpa [UpdateContestInput.apply, named] using winner
    | some other =>
      simpa [UpdateContestInput.apply, named] using keeps same.symm other named
  · rw [found]
    exact winner

theorem Earned.insert_submission {data : DistributePrizeInput} (earned : before.Earned data)
    (contestId : Nat) (storyId authorId : String) :
    (before.createSubmission contestId storyId authorId).2.Earned data := by
  obtain ⟨won, submission, found, wrote⟩ := earned
  refine ⟨won, submission, ?_, wrote⟩
  have older := Table.lt_next_of_find? found
  simp only [findSubmissionById, createSubmission, Table.find?_insert, Option.mem_def] at found ⊢
  rw [if_neg (by omega), found]

/-- A review changes neither the contest of a submission nor its author. -/
theorem Earned.review {data : DistributePrizeInput} (earned : before.Earned data) (id : Nat)
    (status : SubmissionStatus) (reviewedBy : String) :
    (before.reviewSubmission id status reviewedBy).2.Earned data := by
  obtain ⟨won, submission, found, contest, author⟩ := earned
  refine ⟨won, if data.submissionId = id then ContestsTables.review status reviewedBy submission
    else submission, ?_, ?_⟩
  · simp only [findSubmissionById, reviewSubmission, Table.find?_modify, Option.mem_def] at found ⊢
    rw [found]
    split <;> rfl
  · split <;> exact ⟨contest, author⟩

/-- A prize that is written is the last row; the rest is as it was. -/
theorem createPrize_eq_ok {data : DistributePrizeInput} {prize : ContestPrize}
    (ok : before.createPrize data = .ok (prize, after)) :
    after = { before with
      prizes := before.prizes.insert (fun id => { data with id }) (fun _ => rfl) } := by
  simp only [createPrize] at ok
  split at ok
  · cases ok
  split at ok
  · cases ok
  split at ok
  · cases ok
  exact (congrArg Prod.snd (Except.ok.inj ok)).symm

theorem Awarded.award (awarded : before.Awarded placing) {data : DistributePrizeInput}
    {prize : ContestPrize} (ok : before.createPrize data = .ok (prize, after))
    (earned : before.Earned data) (unplaced : before.Unplaced placing data) :
    after.Awarded placing := by
  obtain rfl := createPrize_eq_ok ok
  constructor
  · intro prize member
    rcases List.mem_append.mp member with old | new
    · exact awarded.earned prize old
    · rw [List.mem_singleton.mp new]
      exact earned
  · refine List.pairwise_append.mpr ⟨awarded.distinct, List.pairwise_singleton _ _, ?_⟩
    intro prize old new isNew
    rw [List.mem_singleton.mp isNew]
    exact unplaced prize old

end ContestsTables

theorem awarded_step (choice : Choice) (system : System) (op : Call)
    (awarded : system.tables.Awarded placing) (deserved : Deserved placing system op) :
    (exec choice system op).2.tables.Awarded placing := by
  cases op with
  | createContest data createdBy =>
    exact awarded.keep rfl fun _ _ earned => earned.insert_contest data createdBy
  | updateContest id data =>
    refine awarded.keep rfl fun prize member earned => earned.update_contest ?_
    rintro rfl winner named
    have recorded := deserved winner named ⟨prize, member, rfl⟩
    exact Option.some.inj (recorded.symm.trans earned.1)
  | createSubmission contestId storyId authorId =>
    exact awarded.keep rfl fun _ _ earned => earned.insert_submission contestId storyId authorId
  | reviewSubmission id status reviewedBy =>
    exact awarded.keep rfl fun _ _ earned => earned.review id status reviewedBy
  | castVote contestId submissionId userId =>
    simp only [exec, System.perform, System.written]
    cases written : system.tables.castVote contestId submissionId userId with
    | error e => exact awarded
    | ok result =>
      have others := ContestsTables.castVote_eq_ok written
      refine awarded.keep (congrArg (·.prizes.rows) others) fun prize _ earned => ?_
      change result.2.Earned _
      rw [others]
      exact earned
  | createPrize data =>
    simp only [exec, System.perform, System.written]
    cases written : system.tables.createPrize data with
    | error e => exact awarded
    | ok result =>
      obtain ⟨earned, unplaced⟩ := deserved (by rw [written]; rfl)
      exact awarded.award written earned unplaced
  | _ => exact awarded

instance [DecidableEq P] (system : System) (op : Call) : Decidable (Deserved placing system op) := by
  cases op <;> unfold Deserved <;> infer_instance

/-- A schedule that gives each request in turn as many calls as the longest one makes. -/
def inTurn (requests : Nat) : List (Nat × Choice) :=
  (List.range requests).flatMap fun i => List.replicate 8 (i, {})

/-- The organiser chooses the author of the first entry. -/
def choosesFirst : Task := .selectWinner 0 0 "author 0" "organiser"

def prizeFor (entry : Nat) : DistributePrizeInput :=
  ⟨0, entry, s!"author {entry}", "cash", none, some 5000, some "EGP"⟩

def gives (entry : Nat) : Task := .distributePrize (prizeFor entry) "organiser"

end Placings
end Contests
