import Hakawi.Contests.Prizes
import Hakawi.Effects.Trace

/-!
# The life of a contest

A contest that has ended stays as it is: no operation writes it any more. Its completion is
announced by the two operations that decide who has won. A request to change a contest may also
carry its status, and one that completes it announces no more than a change.
-/

namespace Contests

open Common Store Effects

/-- What is told of the end of a contest, and by what it is told. -/
structure View where
  contest : Option Contest
  completions : List (Option String)

namespace View

/-- The completion is told once, with the winner on record. -/
def Announced (view : View) : Prop :=
  view.completions = match view.contest with
    | some contest => if contest.status = .completed then [contest.winnerId] else []
    | none => []

/-- Nobody has won a contest that is not completed. -/
def Unwon (view : View) : Prop :=
  ∀ contest ∈ view.contest, contest.status ≠ .completed → contest.winnerId = none

/-- What an operation may do with a contest. -/
inductive Step (bypasses : Prop) : View → View → Prop where
  | stays (view : View) (regular : ¬ bypasses) : Step bypasses view view
  | created {contest : Contest} {completions : List (Option String)} (regular : ¬ bypasses)
      (draft : contest.status = .draft) (unwon : contest.winnerId = none) :
      Step bypasses ⟨none, completions⟩ ⟨some contest, completions⟩
  | changed {contest later : Contest} {completions : List (Option String)}
      (running : ¬ contest.Ended) (bypass : later.status = .completed ↔ bypasses)
      (kept : later.winnerId = contest.winnerId) :
      Step bypasses ⟨some contest, completions⟩ ⟨some later, completions⟩
  | completed {contest later : Contest} {completions : List (Option String)}
      {winnerId : Option String} (regular : ¬ bypasses) (running : ¬ contest.Ended)
      (ended : later.status = .completed) (won : later.winnerId = winnerId.or contest.winnerId) :
      Step bypasses ⟨some contest, completions⟩ ⟨some later, completions ++ [winnerId]⟩

variable {bypasses : Prop} {before after : View}

theorem Step.unwon (step : Step bypasses before after) (unwon : before.Unwon) : after.Unwon := by
  cases step with
  | stays _ _ => exact unwon
  | created _ _ nobody =>
    rintro contest ⟨⟩ _
    exact nobody
  | changed running _ kept =>
    rintro later ⟨⟩ _
    exact kept.trans (unwon _ rfl fun ended => running (Or.inl ended))
  | completed _ _ ended _ =>
    rintro later ⟨⟩ open_
    exact absurd ended open_

/-- The completion stays told exactly if it does not bypass the operations that tell it. -/
theorem Step.announced_iff (step : Step bypasses before after) (unwon : before.Unwon)
    (announced : before.Announced) : after.Announced ↔ ¬ bypasses := by
  cases step with
  | stays _ regular => exact iff_of_true announced regular
  | created regular draft _ =>
    refine iff_of_true ?_ regular
    simpa only [Announced, draft, reduceCtorEq, if_false] using announced
  | @changed contest later completions running bypass kept =>
    have open_ : contest.status ≠ .completed := fun ended => running (Or.inl ended)
    simp only [Announced, if_neg open_] at announced
    simp only [Announced, announced]
    by_cases ended : later.status = .completed
    · simp [ended, bypass.mp ended]
    · simp [ended, mt bypass.mpr ended]
  | @completed contest later completions winnerId regular running ended won =>
    have open_ : contest.status ≠ .completed := fun ended => running (Or.inl ended)
    have nobody := unwon contest rfl open_
    simp only [Announced, if_neg open_] at announced
    refine iff_of_true ?_ regular
    simp [Announced, announced, ended, won, nobody]

theorem Step.ended (step : Step bypasses before after) {contest : Contest}
    (found : contest ∈ before.contest) (ended : contest.Ended) : after.contest = some contest := by
  cases step with
  | stays _ _ => exact found
  | created _ _ _ => cases found
  | changed running _ _ =>
    cases found
    exact absurd ended running
  | completed _ running _ _ =>
    cases found
    exact absurd ended running

end View

def ContestEvent.completion (contestId : Nat) : ContestEvent → Option (Option String)
  | .completed id winnerId => if id = contestId then some winnerId else none
  | _ => none

def System.view (system : System) (contestId : Nat) : View :=
  ⟨system.tables.findContestById contestId,
    system.events.filterMap (ContestEvent.completion contestId)⟩

def System.Sees (contestId : Nat) (view : View) (system : System) : Prop :=
  system.view contestId = view

/-- The calls that neither write a contest nor tell of its completion. -/
def Call.Aside (contestId : Nat) : Call → Prop
  | .createContest _ _ => False
  | .updateContest id _ => id ≠ contestId
  | .emit event => event.completion contestId = none
  | _ => True

theorem exec_aside {contestId : Nat} (choice : Choice) (system : System) {op : Call}
    (aside : op.Aside contestId) : (exec choice system op).2.view contestId =
      system.view contestId := by
  cases op with
  | createContest _ _ => exact aside.elim
  | updateContest id data =>
    have other : contestId ≠ id := Ne.symm aside
    simp only [System.view, exec, System.perform, ContestsTables.findContestById,
      ContestsTables.updateContest, Table.find?_modify, if_neg other]
  | emit event =>
    have silent : event.completion contestId = none := aside
    simp [System.view, exec, System.perform, silent]
  | castVote contestId' submissionId userId =>
    simp only [System.view, exec, System.perform, System.written]
    split
    · rfl
    · rename_i written
      rw [ContestsTables.castVote_eq_ok written]
      rfl
  | createPrize data =>
    simp only [System.view, exec, System.perform, System.written]
    split
    · rfl
    · rename_i written
      rw [ContestsTables.createPrize_eq_ok written]
      rfl
  | _ => rfl

/-- The organiser's request, carried by a contest that has not ended, to have it completed. -/
def Task.Bypasses (contestId : Nat) (system : System) : Task → Prop
  | .update id input userId => id = contestId ∧ input.status = some .completed ∧
      ∃ contest ∈ system.tables.findContestById contestId,
        contest.createdBy = userId ∧ ¬ contest.Ended
  | _ => False

instance (contestId : Nat) (system : System) (task : Task) :
    Decidable (task.Bypasses contestId system) := by
  cases task <;> unfold Task.Bypasses <;> infer_instance

section Rules
variable {β : Type} {contestId : Nat} {system : System}

theorem wpE_aside {p : Handler β} (only : OnlyE (Call.Aside contestId) p) :
    wpE anyhow p (fun _ after => after.view contestId = system.view contestId) system := by
  have keeps (choice : Choice) (before : System) (op : Call) (aside : op.Aside contestId)
      (sees : before.Sees contestId (system.view contestId)) :
      (exec choice before op).2.Sees contestId (system.view contestId) :=
    (exec_aside choice before aside).trans sees
  have unseen : system.Sees contestId (system.view contestId) := rfl
  exact only.only.wp_inv keeps unseen

/-- How an operation on a contest begins: it is found, is the caller's own and in a state for it. -/
theorem wpE_opening {userId action : String} {allowed : Contest → Bool} {failure : Failure}
    {next : Contest → Handler β} {Q : Except Failure β → System → Prop}
    (refused : ∀ e now, (∀ contest ∈ system.tables.findContestById contestId,
      contest.createdBy = userId → allowed contest = false) → Q (.error e) { system with now })
    (goes : ∀ contest now, system.tables.findContestById contestId = some contest →
      contest.createdBy = userId → allowed contest = true →
        wpE anyhow (next contest) Q { system with now }) :
    wpE anyhow (do
      let contest ← orNotFound (← call (.findContestById contestId)) "Contest not found"
      assertContestOwnership contest userId action
      guard (allowed contest) failure
      next contest) Q system := by
  refine wpE_call_bind fun choice => ?_
  simp only [exec, System.perform]
  refine wpE_liftM_bind _ (fun e missing => refused e _ ?_) fun contest found => ?_
  · intro contest found
    rw [Option.mem_def.mp found] at missing
    cases missing
  have present := orNotFound_eq_ok.mp found
  have only (other : Contest) (named : other ∈ system.tables.findContestById contestId) :
      other = contest := Option.some.inj (named.symm.trans present)
  refine wpE_liftM_bind _ (fun e foreign => refused e _ ?_) fun _ owned => ?_
  · rintro other named own
    rw [only other named] at own
    simp [assertContestOwnership, own] at foreign
  have own : contest.createdBy = userId := by
    by_contra foreign
    simp [assertContestOwnership, foreign] at owned
  refine wpE_liftM_bind _ (fun e closed => refused e _ ?_) fun _ passed => ?_
  · rintro other named -
    rw [only other named]
    cases state : allowed contest with
    | false => rfl
    | true => simp [guard, state] at closed
  exact goes contest _ present own (guard_eq_ok.mp passed)

/-- A contest is written, and something else than its completion is told. -/
theorem wpE_change {contest : Contest}
    (found : system.tables.findContestById contestId = some contest) {data : UpdateContestInput}
    {event : ContestEvent} (silent : event.completion contestId = none) :
    wpE anyhow (do
      let updated ← call (.updateContest contestId data)
      call (.emit event)
      return updated) (fun _ after => after.view contestId =
        ⟨some (data.apply contest), (system.view contestId).completions⟩) system := by
  refine wpE_call_bind fun _ => wpE_call_bind fun _ => ?_
  simp only [ContestsTables.findContestById] at found
  simp [System.view, exec, System.perform, ContestsTables.findContestById,
    ContestsTables.updateContest, Table.find?_modify_self, found, silent]

/-- A contest is completed, and its completion is told last. -/
theorem wpE_completed {contest : Contest}
    (found : system.tables.findContestById contestId = some contest)
    {data : UpdateContestInput} {winnerId : Option String} {told : Handler Unit}
    (tells : ∀ before, wpE anyhow told (fun result after => result = .ok () ∧
      after.view contestId = before.view contestId) before) :
    wpE anyhow (do
      let updated ← call (.updateContest contestId data)
      told
      call (.emit (.completed contestId winnerId))
      return updated) (fun _ after => after.view contestId =
        ⟨some (data.apply contest), (system.view contestId).completions ++ [winnerId]⟩) system := by
  refine wpE_call_bind fun _ => ?_
  refine wpE_seq anyhow_monotone (tells _) (fun _ _ never => by cases never.1)
    fun _ after same => wpE_call_bind fun _ => ?_
  have told := same.2
  simp only [ContestsTables.findContestById] at found
  simp only [System.view, exec, System.perform, ContestsTables.findContestById,
    ContestsTables.updateContest, Table.find?_modify_self, found, View.mk.injEq] at told
  simp [System.view, exec, System.perform, ContestsTables.findContestById, told,
    ContestEvent.completion]

end Rules

section Operations
variable {contestId : Nat} {system : System}

/-- One of the operations that write a contest, or leave it as it is. -/
abbrev Steps {β : Type} (contestId : Nat) (system : System) (bypasses : Prop) (p : Handler β) :
    Prop :=
  wpE anyhow p (fun _ after =>
    View.Step bypasses (system.view contestId) (after.view contestId)) system

theorem Steps.of_aside {β : Type} {p : Handler β} {bypasses : Prop} (regular : ¬ bypasses)
    (only : OnlyE (Call.Aside contestId) p) : Steps contestId system bypasses p := by
  refine wpE_mono anyhow_monotone (fun _ after same => ?_) (wpE_aside only)
  rw [same]
  exact .stays _ regular

theorem view_of_found {contest : Contest}
    (found : system.tables.findContestById contestId = some contest) :
    system.view contestId = ⟨some contest, (system.view contestId).completions⟩ := by
  simp only [System.view, found]

/-- A change of a contest that runs. -/
theorem Steps.change {contest : Contest} {system' : System} {bypasses : Prop}
    (found : system.tables.findContestById contestId = some contest) (running : ¬ contest.Ended)
    (same : system'.view contestId = system.view contestId) {data : UpdateContestInput} {event : ContestEvent} (silent : event.completion contestId = none)
    (bypass : (data.apply contest).status = .completed ↔ bypasses) (unnamed : data.winnerId = none) :
    wpE anyhow (do
      let updated ← call (.updateContest contestId data)
      call (.emit event)
      return updated) (fun _ after => View.Step bypasses (system.view contestId)
        (after.view contestId)) system' := by
  have found' : system'.tables.findContestById contestId = some contest :=
    (congrArg View.contest same).trans found
  refine wpE_mono anyhow_monotone (fun _ after changed => ?_) (wpE_change found' silent)
  rw [changed, same, view_of_found found]
  refine .changed running bypass ?_
  simp [UpdateContestInput.apply, unnamed]

/-- Its completion, told last. -/
theorem Steps.complete {contest : Contest} {system' : System} {winnerId : Option String}
    (found : system.tables.findContestById contestId = some contest) (running : ¬ contest.Ended)
    (same : system'.view contestId = system.view contestId) {told : Handler Unit} (tells : ∀ before, wpE anyhow told (fun result after =>
      result = .ok () ∧ after.view contestId = before.view contestId) before) :
    wpE anyhow (do
      let updated ← call (.updateContest contestId { status := some .completed, winnerId })
      told
      call (.emit (.completed contestId winnerId))
      return updated) (fun _ after => View.Step False (system.view contestId)
        (after.view contestId)) system' := by
  have found' : system'.tables.findContestById contestId = some contest :=
    (congrArg View.contest same).trans found
  refine wpE_mono anyhow_monotone (fun _ after ended => ?_) (wpE_completed found' tells)
  rw [ended, same, view_of_found found]
  exact .completed not_false running rfl rfl

theorem update_steps (input : UpdateContestDto) (userId : String) :
    Steps contestId system ((Task.update contestId input userId).Bypasses contestId system)
      (update contestId input userId) := by
  refine wpE_opening (fun e now refused => ?_) fun contest now found own allowed => ?_
  · refine .stays _ ?_
    rintro ⟨-, -, contest, found, own, running⟩
    have closed := refused contest found own
    simp [running] at closed
  · have running : ¬ contest.Ended := by simpa using allowed
    refine Steps.change found running rfl rfl ?_ rfl
    have status : (input.data.apply contest).status = .completed ↔
        input.status = some .completed := by
      simp only [UpdateContestInput.apply, UpdateContestDto.data]
      cases input.status with
      | none => simpa using fun ended => running (Or.inl ended)
      | some status => simp
    rw [status]
    exact ⟨fun asked => ⟨rfl, asked, contest, found, own, running⟩, fun bypass => bypass.2.1⟩

theorem start_steps (userId : String) : Steps contestId system False (start contestId userId) := by
  refine wpE_opening (fun e now refused => .stays _ not_false)
    fun contest now found own allowed => ?_
  have draft : contest.status = .draft := by simpa using allowed
  refine Steps.change found ?_ rfl rfl (by simp [UpdateContestInput.apply]) rfl
  simp [Contest.Ended, draft]

theorem cancel_steps (userId : String) :
    Steps contestId system False (cancel contestId userId) := by
  refine wpE_opening (fun e now refused => .stays _ not_false)
    fun contest now found own allowed => ?_
  have running : ¬ contest.Ended := by simpa using allowed
  exact Steps.change found running rfl rfl (by simp [UpdateContestInput.apply]) rfl

theorem emit_tells {event : ContestEvent} (silent : event.completion contestId = none)
    (before : System) : wpE anyhow (call (.emit event)) (fun result after => result = .ok () ∧
      after.view contestId = before.view contestId) before := by
  simp [anyhow_eq, System.view, exec, System.perform, silent]

theorem announceWinner_tells (winning : Option ContestSubmission) (before : System) :
    wpE anyhow (announceWinner contestId winning) (fun result after => result = .ok () ∧
      after.view contestId = before.view contestId) before := by
  cases winning with
  | none => exact ⟨rfl, rfl⟩
  | some submission => exact emit_tells rfl before

theorem complete_steps (userId : String) :
    Steps contestId system False (complete contestId userId) := by
  refine wpE_opening (fun e now refused => .stays _ not_false)
    fun contest now found own allowed => ?_
  have running : ¬ contest.Ended := by simpa using allowed
  refine wpE_call_bind fun choice => ?_
  dsimp only
  refine Steps.complete found running ?_ (announceWinner_tells _)
  rfl

theorem selectWinner_steps (submissionId : Nat) (winnerId userId : String) :
    Steps contestId system False (selectWinner contestId submissionId winnerId userId) := by
  refine wpE_opening (fun e now refused => .stays _ not_false)
    fun contest now found own allowed => ?_
  have voting : contest.status = .voting := by simpa using allowed
  refine wpE_call_bind fun choice => ?_
  refine wpE_check (fun e => .stays _ not_false) fun submission chosen => ?_
  refine wpE_check (fun e => .stays _ not_false) fun _ wrote => ?_
  refine Steps.complete found ?_ rfl (emit_tells rfl)
  simp [Contest.Ended, voting]

theorem create_steps (text : TitleText) (createdBy : String) (input : CreateContestInput) :
    Steps contestId system False (create text createdBy input) := by
  refine wpE_call_bind fun choice => ?_
  refine wpE_check (fun e => .stays _ not_false) fun _ _ => ?_
  refine wpE_call_bind fun _ => wpE_call_bind fun _ => ?_
  by_cases new : contestId = system.tables.contests.next
  · have absent : system.view contestId = ⟨none, (system.view contestId).completions⟩ := by
      simp only [System.view, ContestsTables.findContestById, new, Table.find?_next]
    rw [absent]
    simp only [wpE_pure, exec, System.perform, System.view, ContestsTables.findContestById,
      ContestsTables.createContest, Table.find?_insert, new, if_true, List.filterMap_append,
      List.filterMap_cons, ContestEvent.completion, List.filterMap_nil, List.append_nil]
    exact View.Step.created not_false rfl rfl
  · simp only [wpE_pure, exec, System.perform, System.view, ContestsTables.findContestById,
      ContestsTables.createContest, Table.find?_insert, if_neg new, List.filterMap_append,
      List.filterMap_cons, ContestEvent.completion, List.filterMap_nil, List.append_nil]
    exact View.Step.stays _ not_false


section Aside
variable {α : Type}

theorem aside_call {op : Call} (aside : op.Aside contestId) :
    OnlyE (Call.Aside contestId) (call op) := ⟨⟨aside, fun _ => trivial⟩⟩

theorem aside_check (result : Except Failure α) :
    OnlyE (Call.Aside contestId) (liftM result : Handler α) := by
  cases result <;> exact ⟨trivial⟩

theorem aside_opening {id : Nat} {userId action : String} {allowed : Contest → Bool}
    {failure : Failure} {next : Contest → Handler α}
    (rest : ∀ contest, OnlyE (Call.Aside contestId) (next contest)) :
    OnlyE (Call.Aside contestId) (do
      let contest ← orNotFound (← call (.findContestById id)) "Contest not found"
      assertContestOwnership contest userId action
      guard (allowed contest) failure
      next contest) :=
  OnlyE.bind (aside_call trivial) fun _ => OnlyE.bind (aside_check _) fun contest =>
    OnlyE.bind (aside_check _) fun _ => OnlyE.bind (aside_check _) fun _ => rest contest

/-- The change of another contest. -/
theorem aside_change {id : Nat} (other : id ≠ contestId) (data : UpdateContestInput)
    {told : Handler Unit} (silent : OnlyE (Call.Aside contestId) told) :
    OnlyE (Call.Aside contestId) (do
      let updated ← call (.updateContest id data)
      told
      return updated) :=
  OnlyE.bind (aside_call other) fun _ => OnlyE.bind silent fun _ => onlyE_pure _

theorem aside_announceWinner (id : Nat) (winning : Option ContestSubmission) :
    OnlyE (Call.Aside contestId) (announceWinner id winning) := by
  cases winning with
  | none => exact onlyE_pure _
  | some submission => exact aside_call rfl

theorem aside_completed {id : Nat} (other : id ≠ contestId) (winnerId : Option String) :
    OnlyE (Call.Aside contestId) (call (.emit (.completed id winnerId))) :=
  aside_call (if_neg other)

theorem submitStory_aside (id : Nat) (authorId storyId userId : String) :
    OnlyE (Call.Aside contestId) (submitStory id authorId storyId userId) := by
  refine OnlyE.bind (aside_check _) fun _ => OnlyE.bind (aside_call trivial) fun _ => ?_
  refine OnlyE.bind (aside_check _) fun _ => OnlyE.bind (aside_check _) fun _ => ?_
  refine OnlyE.bind (aside_call trivial) fun _ => OnlyE.bind (aside_check _) fun _ => ?_
  refine OnlyE.bind (aside_call trivial) fun _ => OnlyE.bind (aside_check _) fun _ => ?_
  refine OnlyE.bind (aside_call trivial) fun _ => OnlyE.bind (aside_call rfl) fun _ => ?_
  exact onlyE_pure _

theorem reviewSubmission_aside (status : SubmissionStatus) (verb : String) (submissionId id : Nat)
    (userId : String) :
    OnlyE (Call.Aside contestId) (reviewSubmission status verb submissionId id userId) := by
  refine OnlyE.bind (aside_call trivial) fun _ => OnlyE.bind (aside_check _) fun _ => ?_
  refine aside_opening fun contest => OnlyE.bind (aside_check _) fun _ => ?_
  refine OnlyE.bind (aside_call trivial) fun _ => OnlyE.bind (aside_call rfl) fun _ => ?_
  exact onlyE_pure _

theorem castVote_aside (id submissionId : Nat) (userId : String) :
    OnlyE (Call.Aside contestId) (castVote id submissionId userId) := by
  refine OnlyE.bind (aside_call trivial) fun _ => OnlyE.bind (aside_check _) fun _ => ?_
  refine OnlyE.bind (aside_check _) fun _ => OnlyE.bind (aside_call trivial) fun _ => ?_
  refine OnlyE.bind (aside_check _) fun _ => OnlyE.bind (aside_call trivial) fun _ => ?_
  refine OnlyE.bind (aside_check _) fun _ => OnlyE.bind (aside_check _) fun _ => ?_
  refine OnlyE.bind (aside_check _) fun _ => OnlyE.bind (aside_call trivial) fun _ => ?_
  refine OnlyE.bind (aside_check _) fun _ => OnlyE.bind (aside_call trivial) fun _ => ?_
  refine OnlyE.bind (aside_check _) fun _ => OnlyE.bind (aside_call rfl) fun _ => ?_
  exact onlyE_pure _

theorem distributePrize_aside (data : DistributePrizeInput) (userId : String) :
    OnlyE (Call.Aside contestId) (distributePrize data userId) := by
  refine aside_opening fun contest => OnlyE.bind (aside_check _) fun _ => ?_
  refine OnlyE.bind (aside_call trivial) fun _ => OnlyE.bind (aside_check _) fun _ => ?_
  exact OnlyE.bind (aside_call rfl) fun _ => onlyE_pure _

end Aside

theorem Steps.map {α β : Type} (f : α → β) {p : Handler α} {bypasses : Prop}
    (steps : Steps contestId system bypasses p) : Steps contestId system bypasses (f <$> p) := by
  rw [Steps, wpE_map]
  exact steps

/-- Whatever the service is asked to do, it is a step in the life of each contest. -/
theorem Task.steps (task : Task) :
    Steps contestId system (task.Bypasses contestId system) task.handler := by
  cases task with
  | create text createdBy input => exact (create_steps text createdBy input).map _
  | update id input userId =>
    by_cases own : id = contestId
    · subst own
      exact (update_steps input userId).map _
    · refine Steps.of_aside (fun bypass => own bypass.1) (OnlyE.map _ ?_)
      refine aside_opening fun _ => aside_change own _ ?_
      exact aside_call rfl
  | start id userId =>
    by_cases own : id = contestId
    · subst own
      exact (start_steps userId).map _
    · refine Steps.of_aside not_false (OnlyE.map _ ?_)
      refine aside_opening fun _ => aside_change own _ ?_
      exact aside_call rfl
  | cancel id userId =>
    by_cases own : id = contestId
    · subst own
      exact (cancel_steps userId).map _
    · refine Steps.of_aside not_false (OnlyE.map _ ?_)
      refine aside_opening fun _ => aside_change own _ ?_
      exact aside_call rfl
  | complete id userId =>
    by_cases own : id = contestId
    · subst own
      exact (complete_steps userId).map _
    · refine Steps.of_aside not_false (OnlyE.map _ (aside_opening fun _ => ?_))
      refine OnlyE.bind (aside_call trivial) fun winning => OnlyE.bind (aside_call own) fun _ => ?_
      refine OnlyE.bind (aside_announceWinner id winning) fun _ => ?_
      exact OnlyE.bind (aside_completed own _) fun _ => onlyE_pure _
  | selectWinner id submissionId winnerId userId =>
    by_cases own : id = contestId
    · subst own
      exact (selectWinner_steps submissionId winnerId userId).map _
    · refine Steps.of_aside not_false (OnlyE.map _ (aside_opening fun _ => ?_))
      refine OnlyE.bind (aside_call trivial) fun _ => OnlyE.bind (aside_check _) fun _ => ?_
      refine OnlyE.bind (aside_check _) fun _ => OnlyE.bind (aside_call own) fun _ => ?_
      refine OnlyE.bind (aside_call rfl) fun _ => ?_
      exact OnlyE.bind (aside_completed own _) fun _ => onlyE_pure _
  | submitStory id authorId storyId userId =>
    exact Steps.of_aside not_false ((submitStory_aside id authorId storyId userId).map _)
  | approveSubmission submissionId id userId =>
    exact Steps.of_aside not_false ((reviewSubmission_aside _ _ submissionId id userId).map _)
  | rejectSubmission submissionId id userId =>
    exact Steps.of_aside not_false ((reviewSubmission_aside _ _ submissionId id userId).map _)
  | castVote id submissionId userId =>
    exact Steps.of_aside not_false ((castVote_aside id submissionId userId).map _)
  | distributePrize data userId =>
    exact Steps.of_aside not_false ((distributePrize_aside data userId).map _)

end Operations

/-- A request, with what the environment decides at its calls. -/
structure Request where
  task : Task
  choices : Nat → Choice

def System.step (system : System) (request : Request) : System :=
  (request.task.handler.run.eval exec request.choices system).2

section Runs
variable {contestId : Nat}

theorem System.step_steps (system : System) (request : Request) :
    View.Step (request.task.Bypasses contestId system) (system.view contestId)
      ((system.step request).view contestId) :=
  Program.eval_of_wp request.task.steps fun _ => trivial

/-- The end of a contest is on record and told. -/
structure System.Recorded (contestId : Nat) (system : System) : Prop where
  announced : (system.view contestId).Announced
  unwon : (system.view contestId).Unwon

theorem recorded_step_iff (system : System) (request : Request)
    (recorded : system.Recorded contestId) :
    (system.step request).Recorded contestId ↔ ¬ request.task.Bypasses contestId system := by
  have step : View.Step (request.task.Bypasses contestId system) (system.view contestId)
      ((system.step request).view contestId) := system.step_steps request
  rw [← step.announced_iff recorded.unwon recorded.announced]
  exact ⟨System.Recorded.announced, fun announced => ⟨announced, step.unwon recorded.unwon⟩⟩

/-- A contest that has ended is never written again. -/
theorem ended_run {system : System} {contest : Contest}
    (found : (system.view contestId).contest = some contest) (ended : contest.Ended)
    (requests : List Request) :
    ((Trace.run System.step system requests).view contestId).contest = some contest := by
  have keeps (before : System) (request : Request)
      (found : (before.view contestId).contest = some contest) :
      ((before.step request).view contestId).contest = some contest :=
    (before.step_steps request).ended found ended
  exact Trace.run_invariant_always keeps found requests

/-- Between requests a contest that has ended stays as it is, and its completion is told exactly
once with the winner on record, as long as no request completes it as a change of its status. -/
theorem ended_forever_iff {start : System} (recorded : start.Recorded contestId)
    (requests : List Request) :
    (∀ n k, ∀ contest ∈ (Trace.run System.step start (requests.take n)).tables.findContestById
        contestId, contest.Ended →
      (Trace.run System.step start (requests.take (n + k))).tables.findContestById contestId =
        some contest) ∧
    ((∀ n, ((Trace.run System.step start (requests.take n)).view contestId).Announced) ↔
      Trace.Meets System.step (fun system request =>
        ¬ request.task.Bypasses contestId system) start requests) := by
  constructor
  · intro n k contest found ended
    rw [List.take_add, Trace.run_append]
    exact ended_run found ended _
  · rw [Trace.meets_iff recorded_step_iff recorded]
    refine forall_congr' fun n => ⟨fun announced => ⟨announced, ?_⟩, System.Recorded.announced⟩
    have keeps (before : System) (request : Request) (unwon : (before.view contestId).Unwon) :
        ((before.step request).view contestId).Unwon :=
      (before.step_steps request).unwon unwon
    exact Trace.run_invariant_always keeps recorded.unwon _

end Runs

section Examples

def System.fresh : System := ⟨0, .empty, []⟩

theorem fresh_recorded (contestId : Nat) : System.fresh.Recorded contestId :=
  ⟨rfl, fun _ never => by cases never⟩

def Task.asked (task : Task) : Request := ⟨task, fun _ => {}⟩

def opened : List Request :=
  [Task.asked (.create ⟨id, id, fun _ _ => false⟩ "organiser" ⟨"tales", 100, 50⟩),
    Task.asked (.start 0 "organiser"), Task.asked (.submitStory 0 "author" "story" "author")]

theorem completed_told :
    ((Trace.run System.step .fresh ((opened ++ [Task.asked (.complete 0 "organiser")]).take 4)).view
      0).Announced :=
  ((ended_forever_iff (fresh_recorded 0) _).2.mpr (by decide)) 4

/-- The organiser sets the status of his contest to completed: nothing is told. -/
theorem completion_untold :
    ((Trace.run System.step .fresh (opened ++ [Task.asked
      (.update 0 { status := some .completed } "organiser")])).tables.findContestById 0).map
        Contest.status = some .completed ∧
    ((Trace.run System.step .fresh (opened ++ [Task.asked
      (.update 0 { status := some .completed } "organiser")])).view 0).completions = [] := by
  decide

end Examples
end Contests
