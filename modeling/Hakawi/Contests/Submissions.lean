import Hakawi.Contests.Prizes

/-!
# Submissions to a contest

A story is submitted while the contest is active, before its deadline and once by each author. All
three are looked up before the row is written, by calls of their own, and the table has no unique
key: what was looked up need not hold any more when the row is written. The requests are any
number, interleaved at their calls.
-/

namespace Contests

open Common Store Effects

namespace System

/-- The contest takes submissions at this moment. -/
def Accepts (system : System) (contestId : Nat) : Prop :=
  ∃ contest ∈ system.tables.findContestById contestId, contest.status = .active ∧
    system.now ≤ contest.submissionDeadline

/-- No contest has two submissions of one author. -/
def Single (system : System) : Prop :=
  (system.tables.submissions.rows.map fun s => (s.contestId, s.authorId)).Nodup

/-- Every row that came with a step came while its contest took submissions. -/
def Timely (before after : System) : Prop :=
  ∀ s ∈ after.tables.submissions.rows, before.tables.findSubmissionById s.id = none →
    after.Accepts s.contestId

instance (system : System) (contestId : Nat) : Decidable (system.Accepts contestId) :=
  inferInstanceAs (Decidable (∃ _ ∈ _, _))

instance (system : System) : Decidable system.Single :=
  inferInstanceAs (Decidable (List.Nodup _))

end System

/-- What was looked up for a submission holds when it is written. -/
def StillOpen (choice : Choice) (system : System) : Call → Prop
  | .createSubmission contestId _ authorId =>
    System.Accepts { system with now := system.now + choice.elapsed } contestId ∧
      ∀ s ∈ system.tables.submissions.rows, (s.contestId, s.authorId) ≠ (contestId, authorId)
  | _ => True

instance (choice : Choice) (system : System) : (op : Call) → Decidable (StillOpen choice system op)
  | .createSubmission .. => inferInstanceAs (Decidable (_ ∧ ∀ _ ∈ _, _))
  | .readClock | .findContestById _ | .findAllContests .. | .createContest .. | .updateContest ..
  | .findSubmissionById _ | .findSubmissionByContestAndAuthor .. | .reviewSubmission ..
  | .findVoteByUserContestSubmission .. | .castVote .. | .findWinningSubmission _
  | .createPrize _ | .emit _ => .isTrue trivial

theorem timely_of_ids {before after : System}
    (same : after.tables.submissions.rows.map ContestSubmission.id =
      before.tables.submissions.rows.map ContestSubmission.id) : before.Timely after := by
  intro s member absent
  have named : s.id ∈ before.tables.submissions.rows.map ContestSubmission.id :=
    same ▸ List.mem_map_of_mem member
  obtain ⟨old, present, id⟩ := List.mem_map.mp named
  exact absurd id (Table.find?_eq_none_iff.mp absent old present)

/-- Rows that were there stay, with their contest and author. -/
theorem well_of_entries {before after : System} (single : before.Single)
    (same : after.tables.submissions.rows.map (fun s => (s.id, s.contestId, s.authorId)) =
      before.tables.submissions.rows.map fun s => (s.id, s.contestId, s.authorId)) :
    after.Single ∧ before.Timely after := by
  constructor
  · have entries := congrArg (List.map Prod.snd) same
    simp only [List.map_map, Function.comp_def] at entries
    rw [System.Single, entries]
    exact single
  · refine timely_of_ids ?_
    have ids := congrArg (List.map Prod.fst) same
    simpa only [List.map_map, Function.comp_def] using ids

/-- A row more. -/
theorem well_insert_iff {before : System} (single : before.Single) (contestId : Nat)
    (storyId authorId : String) (now : Int) :
    System.Single { before with
        now, tables := (before.tables.createSubmission contestId storyId authorId).2 } ∧
      before.Timely { before with
        now, tables := (before.tables.createSubmission contestId storyId authorId).2 } ↔
    System.Accepts { before with now } contestId ∧
      ∀ s ∈ before.tables.submissions.rows, (s.contestId, s.authorId) ≠ (contestId, authorId) := by
  have rows : (before.tables.createSubmission contestId storyId authorId).2.submissions.rows =
      before.tables.submissions.rows ++ [(before.tables.createSubmission contestId storyId
        authorId).1] := rfl
  have single_iff : System.Single { before with
      now, tables := (before.tables.createSubmission contestId storyId authorId).2 } ↔
      ∀ s ∈ before.tables.submissions.rows, (s.contestId, s.authorId) ≠ (contestId, authorId) := by
    rw [System.Single, rows, List.map_append, List.nodup_append]
    constructor
    · rintro ⟨-, -, apart⟩ s member
      exact apart _ (List.mem_map_of_mem member) _ List.mem_cons_self
    · intro free
      refine ⟨single, List.nodup_singleton _, ?_⟩
      rintro entry old other new rfl
      obtain ⟨s, member, rfl⟩ := List.mem_map.mp old
      exact free s member (List.mem_singleton.mp new)
  have timely_iff : before.Timely { before with
      now, tables := (before.tables.createSubmission contestId storyId authorId).2 } ↔
      System.Accepts { before with now } contestId := by
    constructor
    · intro timely
      have new : (before.tables.createSubmission contestId storyId authorId).1 ∈
          (before.tables.createSubmission contestId storyId authorId).2.submissions.rows :=
        rows ▸ List.mem_append_right _ List.mem_cons_self
      exact timely _ new (Table.find?_next before.tables.submissions)
    · intro accepts s member absent
      rw [rows] at member
      rcases List.mem_append.mp member with old | new
      · exact absurd rfl (Table.find?_eq_none_iff.mp absent s old)
      · rw [List.mem_singleton.mp new]
        exact accepts
  rw [single_iff, timely_iff, and_comm]

theorem well_step_iff (choice : Choice) (system : System) (op : Call) (single : system.Single) :
    (exec choice system op).2.Single ∧ system.Timely (exec choice system op).2 ↔
      StillOpen choice system op := by
  cases op with
  | createSubmission contestId storyId authorId =>
    exact well_insert_iff single contestId storyId authorId _
  | reviewSubmission id status reviewedBy =>
    refine iff_of_true (well_of_entries single ?_) trivial
    simp only [exec, System.perform, ContestsTables.reviewSubmission, Table.modify, List.map_map]
    refine List.map_congr_left fun s _ => ?_
    simp only [Function.comp_apply]
    split <;> rfl
  | castVote contestId submissionId userId =>
    refine iff_of_true (well_of_entries single ?_) trivial
    simp only [exec, System.perform, System.written]
    split
    · rfl
    · rename_i written
      rw [ContestsTables.castVote_eq_ok written]
  | createPrize data =>
    refine iff_of_true (well_of_entries single ?_) trivial
    simp only [exec, System.perform, System.written]
    split
    · rfl
    · rename_i written
      rw [ContestsTables.createPrize_eq_ok written]
  | _ => exact iff_of_true (well_of_entries single rfl) trivial

/-- Without time passing between calls. -/
def instantly (rank : Nat → Nat) : (system : System) → (op : Call) → op.Answer × System :=
  exec { rank }

section Alone
variable {β : Type} {system : System}

theorem instantly_eq (rank : Nat → Nat) (op : Call) :
    instantly rank system op = system.perform rank op := by
  simp [instantly, exec]

/-- The execution, where what was looked up for a submission is to hold when it is written. -/
abbrev unhindered : Program.OpSpec Call Call.Answer System :=
  Pool.guarded instantly fun rank => StillOpen { rank }

theorem wpE_look {op : Call} {next : op.Answer → Handler β} {Q : Except Failure β → System → Prop}
    (met : ∀ rank, StillOpen { rank } system op)
    (goes : ∀ rank, wpE unhindered (next (system.perform rank op).1) Q (system.perform rank op).2) :
    wpE unhindered (call op >>= next) Q system := by
  rw [wpE_bind]
  intro rank
  simp only [Program.wp_done, instantly_eq]
  exact ⟨met rank, goes rank⟩

/-- A story that is submitted while nobody else does anything. -/
theorem submitStory_open (contestId : Nat) (authorId storyId userId : String) :
    wpE unhindered (submitStory contestId authorId storyId userId) (fun _ _ => True) system := by
  refine wpE_liftM_bind _ (fun _ _ => trivial) fun _ _ => ?_
  refine wpE_look (fun _ => trivial) fun _ => ?_
  refine wpE_liftM_bind _ (fun _ _ => trivial) fun contest found => ?_
  refine wpE_liftM_bind _ (fun _ _ => trivial) fun _ active => ?_
  refine wpE_look (fun _ => trivial) fun _ => ?_
  refine wpE_liftM_bind _ (fun _ _ => trivial) fun _ early => ?_
  refine wpE_look (fun _ => trivial) fun _ => ?_
  refine wpE_liftM_bind _ (fun _ _ => trivial) fun _ free => ?_
  refine wpE_look (fun _ => ?_) fun _ => wpE_look (fun _ => trivial) fun _ => trivial
  have before : system.now ≤ contest.submissionDeadline :=
    of_decide_eq_true (guard_eq_ok.mp early)
  have absent : system.tables.findSubmissionByContestAndAuthor contestId authorId = none :=
    Option.isNone_iff_eq_none.mp (guard_eq_ok.mp free)
  refine ⟨⟨contest, orNotFound_eq_ok.mp found, of_decide_eq_true (guard_eq_ok.mp active), ?_⟩, ?_⟩
  · change system.now + (0 : Nat) ≤ contest.submissionDeadline
    omega
  · intro s member same
    have other := List.find?_eq_none.mp absent s member
    exact other (decide_eq_true (Prod.mk.inj same))

end Alone

/-- In any interleaving no contest has two submissions of an author, and each was written while the
contest took submissions, exactly if what was looked up holds whenever a row is written. It does
for a request that nobody interferes with and that takes no time. -/
theorem submissions_well_iff {system : System} (single : system.Single) :
    (∀ tasks schedule, Pool.EachCall exec StillOpen schedule (pool system tasks) ↔
      ∀ n, ((pool system tasks).run exec (schedule.take n)).state.Single ∧
        ((pool system tasks).run exec (schedule.take n)).state.Timely
          ((pool system tasks).run exec (schedule.take (n + 1))).state) ∧
    ∀ contestId authorId storyId userId schedule,
      Pool.EachCall instantly (fun rank => StillOpen { rank }) schedule
        (pool system [.submitStory contestId authorId storyId userId]) := by
  constructor
  · intro tasks schedule
    exact Pool.eachCall_steps_iff exec System.Timely (fun s => timely_of_ids rfl) well_step_iff
      single schedule
  · intro contestId authorId storyId userId schedule
    have alone : wpE unhindered (Task.submitStory contestId authorId storyId userId).handler
        (fun _ _ => True) system := by
      rw [Task.handler, wpE_map]
      exact submitStory_open contestId authorId storyId userId
    exact Pool.eachCall_alone alone schedule

section Examples

/-- One contest, open until 50, and nothing submitted. -/
def System.opened : System :=
  ⟨0, (((ContestsTables.empty.createContest ⟨"tales", 100, 50⟩ "organiser").2).updateContest 0
    { status := some .active }).2, []⟩

theorem opened_single : System.opened.Single := List.nodup_nil

def submits (author : String) : Task := .submitStory 0 author "story" author

def turns (threads : List Nat) : List (Nat × Choice) := threads.map fun i => (i, {})

theorem submissions_well_two :
    ((pool .opened [submits "first", submits "second"]).run exec
      ((turns [0, 1, 0, 1, 0, 1, 0, 1]).take 8)).state.Single :=
  ((((submissions_well_iff opened_single).1 [submits "first", submits "second"]
    (turns [0, 1, 0, 1, 0, 1, 0, 1])).mp (by decide)) 8).1

/-- An author who submits twice at once is entered twice; and a story whose contest is cancelled
between the look and the insertion is written into the cancelled contest. -/
theorem submissions_unwell :
    ¬ ((pool .opened [submits "author", submits "author"]).run exec
      (turns [0, 0, 0, 1, 1, 1, 0, 1])).state.Single ∧
    ¬ ((pool .opened [submits "author", .cancel 0 "organiser"]).run exec
        (turns [0, 0, 0, 1, 1])).state.Timely
      ((pool .opened [submits "author", .cancel 0 "organiser"]).run exec
        (turns [0, 0, 0, 1, 1, 0])).state := by
  refine ⟨by decide, fun timely => ?_⟩
  have accepted := timely ⟨0, 0, "story", "author", .pending, none⟩ (by decide)
    (by decide)
  revert accepted
  decide

end Examples
end Contests
