import Hakawi.Contests.Service

/-!
# Who wins a contest

A contest is ended by its count of votes or by its organiser's choice, and either
way the winner is one of those who entered. The count looks at every entry,
reviewed or not, voted for or not: a contest with an entry gets a winner even
when nobody voted.
-/

namespace Contests

open Common Store Effects

/-- The two operations that end a contest with a winner. -/
inductive Ending where
  | complete
  | selectWinner (submissionId : Nat) (winnerId : String)
  deriving DecidableEq

def Ending.handler (contestId : Nat) (userId : String) : Ending → Handler (Option Contest)
  | .complete => Contests.complete contestId userId
  | .selectWinner submissionId winnerId =>
    Contests.selectWinner contestId submissionId winnerId userId

/-- The operation run alone: what it answers and what it leaves. -/
def Ending.run (ending : Ending) (contestId : Nat) (userId : String) (choices : Nat → Choice)
    (system : System) : Except Failure (Option Contest) × System :=
  (ending.handler contestId userId).run.eval exec choices system

namespace ContestsTables

/-- No entry of the contest has more votes. -/
def Leads (tables : ContestsTables) (contestId : Nat) (submission : ContestSubmission) : Prop :=
  submission ∈ tables.entries contestId ∧
    ∀ other ∈ tables.entries contestId, tables.voteCount other ≤ tables.voteCount submission

/-- No approved entry of the contest has more votes than this one, itself approved. -/
def LeadsApproved (tables : ContestsTables) (contestId : Nat) (submission : ContestSubmission) :
    Prop :=
  submission ∈ tables.entries contestId ∧ submission.status = .approved ∧
    ∀ other ∈ tables.entries contestId, other.status = .approved →
      tables.voteCount other ≤ tables.voteCount submission

/-- Every entry with the most votes has been approved. -/
def LeadersApproved (tables : ContestsTables) (contestId : Nat) : Prop :=
  ∀ submission, tables.Leads contestId submission → submission.status = .approved

theorem Leads.approved {tables : ContestsTables} {contestId : Nat}
    {submission : ContestSubmission} (leads : tables.Leads contestId submission)
    (approved : tables.LeadersApproved contestId) :
    tables.LeadsApproved contestId submission :=
  ⟨leads.1, approved submission leads, fun other entered _ => leads.2 other entered⟩

end ContestsTables

/-- The contest as an ending leaves it: completed, with this winner. -/
structure EndedWith (before : Contest) (after : System) (answer : Option Contest)
    (winnerId : Option String) : Prop where
  stored : after.tables.findContestById before.id = some
    { before with status := .completed, winnerId := winnerId.or before.winnerId }
  answered : answer = after.tables.findContestById before.id

/-- What an ending that succeeds has done. -/
def Outcome (ending : Ending) (before : System) (contestId : Nat)
    (answer : Option Contest) (after : System) : Prop :=
  ∃ contest, before.tables.findContestById contestId = some contest ∧
    match ending with
    | .complete =>
      (before.tables.entries contestId = [] ∧ EndedWith contest after answer none) ∨
      ∃ submission, before.tables.Leads contestId submission ∧
        EndedWith contest after answer (some submission.authorId)
    | .selectWinner submissionId winnerId =>
      ∃ submission ∈ before.tables.entries contestId, submission.id = submissionId ∧
        submission.authorId = winnerId ∧ EndedWith contest after answer (some winnerId)

/-- Every execution, whatever the environment decides. -/
def anyhow : Program.OpSpec Call Call.Answer System := Program.execSpec exec fun _ => True

theorem anyhow_monotone : anyhow.Monotone := Program.execSpec_monotone _ _

@[simp] theorem anyhow_eq (op : Call) (Q : op.Answer → System → Prop) (system : System) :
    anyhow op Q system ↔ ∀ choice, Q (exec choice system op).1 (exec choice system op).2 := by
  simp [anyhow, Program.execSpec]

section Rules
variable {α β : Type} {Q : Except Failure β → System → Prop} {system : System}

/-- A check that refuses ends the operation; one that passes hands on what it found. -/
theorem wpE_check {result : Except Failure α} {next : α → Handler β}
    (refused : ∀ e, Q (.error e) system)
    (passes : ∀ a, result = .ok a → wpE anyhow (next a) Q system) :
    wpE anyhow ((liftM result : Handler α) >>= next) Q system :=
  wpE_liftM_bind _ (fun e _ => refused e) passes

theorem wpE_call_bind {op : Call} {next : op.Answer → Handler β}
    (goes : ∀ choice, wpE anyhow (next (exec choice system op).1) Q (exec choice system op).2) :
    wpE anyhow (call op >>= next) Q system := by
  simpa only [wpE_bind, call, wpE_mk_call, Program.wp_done, anyhow_eq] using goes

end Rules

theorem updateContest_endedWith {tables : ContestsTables} {contest : Contest} {id : Nat}
    (found : tables.findContestById id = some contest) (winnerId : Option String) (now : Int)
    (events : List ContestEvent) :
    EndedWith contest ⟨now, (tables.updateContest id { status := some .completed, winnerId }).2,
      events⟩ (tables.updateContest id { status := some .completed, winnerId }).1 winnerId := by
  obtain rfl : contest.id = id := Table.key_of_find? found
  have stored : ContestsTables.findContestById
      (tables.updateContest contest.id { status := some .completed, winnerId }).2 contest.id =
        some { contest with status := .completed, winnerId := winnerId.or contest.winnerId } := by
    simp only [ContestsTables.findContestById, ContestsTables.updateContest,
      Table.find?_modify_self] at found ⊢
    rw [found]
    rfl
  refine ⟨stored, ?_⟩
  simp only [ContestsTables.findContestById, ContestsTables.updateContest,
    Table.find?_modify_self]

theorem refused_outcome {ending : Ending} {before after : System} {contestId : Nat} (e : Failure) :
    ∀ answer, (.error e : Except Failure (Option Contest)) = .ok answer →
      Outcome ending before contestId answer after :=
  fun _ failed => by cases failed

theorem complete_outcome (contestId : Nat) (userId : String) (system : System) :
    wpE anyhow (complete contestId userId) (fun result after => ∀ answer, result = .ok answer →
      Outcome .complete system contestId answer after) system := by
  refine wpE_call_bind fun _ => wpE_check refused_outcome fun contest found => ?_
  have present := orNotFound_eq_ok.mp found
  refine wpE_check refused_outcome fun _ _ => wpE_check refused_outcome fun _ _ => ?_
  refine wpE_call_bind fun choice => wpE_call_bind fun _ => ?_
  simp only [exec, System.perform]
  cases winning : system.tables.findWinningSubmission choice.rank contestId with
  | none =>
    refine wpE_call_bind fun _ => ?_
    rintro answer ⟨⟩
    refine ⟨contest, present, Or.inl ⟨?_, updateContest_endedWith present none _ _⟩⟩
    exact ContestsTables.findWinningSubmission_eq_none.mp winning
  | some submission =>
    refine wpE_call_bind fun _ => wpE_call_bind fun _ => ?_
    rintro answer ⟨⟩
    exact ⟨contest, present, Or.inr ⟨submission,
      ContestsTables.findWinningSubmission_leads winning,
      updateContest_endedWith present (some submission.authorId) _ _⟩⟩

theorem selectWinner_outcome (contestId submissionId : Nat) (winnerId userId : String)
    (system : System) :
    wpE anyhow (selectWinner contestId submissionId winnerId userId)
      (fun result after => ∀ answer, result = .ok answer →
        Outcome (.selectWinner submissionId winnerId) system contestId answer after) system := by
  refine wpE_call_bind fun _ => wpE_check refused_outcome fun contest found => ?_
  have present := orNotFound_eq_ok.mp found
  refine wpE_check refused_outcome fun _ _ => wpE_check refused_outcome fun _ _ => ?_
  refine wpE_call_bind fun _ => wpE_check refused_outcome fun submission chosen => ?_
  obtain ⟨named, entered⟩ := ofContest_eq_ok.mp chosen
  refine wpE_check refused_outcome fun _ wrote => ?_
  refine wpE_call_bind fun _ => wpE_call_bind fun _ => wpE_call_bind fun _ => ?_
  rintro answer ⟨⟩
  refine ⟨contest, present, submission, ContestsTables.mem_entries.mpr ⟨?_, entered⟩, ?_, ?_, ?_⟩
  · exact Table.mem_of_find? named
  · exact Table.key_of_find? named
  · simpa using guard_eq_ok.mp wrote
  · exact updateContest_endedWith present (some winnerId) _ _

theorem ending_outcome (ending : Ending) (contestId : Nat) (userId : String)
    (choices : Nat → Choice) (system : System) {answer : Option Contest}
    (ended : (ending.run contestId userId choices system).1 = .ok answer) :
    Outcome ending system contestId answer (ending.run contestId userId choices system).2 := by
  cases ending with
  | complete =>
    exact Program.eval_of_wp (complete_outcome contestId userId system) (fun _ => trivial)
      answer ended
  | selectWinner submissionId winnerId =>
    exact Program.eval_of_wp (selectWinner_outcome contestId submissionId winnerId userId system)
      (fun _ => trivial) answer ended

/-- A contest in its voting phase with the given entries: status and votes. -/
def System.voting (entries : List (SubmissionStatus × Nat)) : System where
  now := 0
  events := []
  tables :=
    let opened := (ContestsTables.empty.createContest ⟨"tales", 100, 50⟩ "organiser").2
    let begun := (opened.updateContest 0 { status := some .voting }).2
    let entered := entries.zipIdx.foldl (fun tables (entry, i) =>
      let created := tables.createSubmission 0 s!"story {i}" s!"author {i}"
      (created.2.reviewSubmission created.1.id entry.1 "organiser").2) begun
    { entered with
      votes := (entries.zipIdx.flatMap fun (entry, i) => List.replicate entry.2 i).zipIdx.foldl
        (fun votes (entry, voter) => votes.insert (fun id => ⟨id, 0, entry, s!"reader {voter}"⟩)
          fun _ => rfl) entered.votes }

end Contests
