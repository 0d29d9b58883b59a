import Hakawi.Partitions.Fallback
import Hakawi.Stories.FreshReads

/-!
# Totals of reactions

Reactions are written to the partitioned table, and the repository reads them there. The
thresholds of an account upgrade and of the badges count them by a statement of their own, which
names the legacy table.
-/

namespace Partitions

open Common Effects
open Stories (Story)

namespace ReactionsService

/-- What the request is refused with is returned. -/
def addReaction (userId storyId type : String) : Method (Except Failure Unit) :=
  if type ∈ Social.VALID_REACTION_TYPES then do
    match ← ReactionsRepository.findByUserAndStory userId storyId with
    | some existing => let _ ← ReactionsRepository.update existing.id type
    | none => let _ ← ReactionsRepository.create userId storyId type
    return .ok ()
  else return .error (.notFound "Invalid reaction type")

def removeReaction (userId storyId : String) : Method (Except Failure Unit) := do
  match ← ReactionsRepository.findByUserAndStory userId storyId with
  | some _ =>
    ReactionsRepository.deleteByUserAndStory userId storyId
    return .ok ()
  | none => return .error (.notFound "Reaction not found")

end ReactionsService

/-- How many reactions of a story there are. -/
def Tables.total (tables : Tables) (storyId : String) : Nat :=
  tables.reactions.countP (·.storyId = storyId)

namespace Totals

structure World where
  stories : Stories.World
  reactions : Database

section Readers
variable (name : Nat → String) (world : World)

/-- `eq(stories.authorId, userId), eq(stories.status, 'published'), isNull(stories.deletedAt)` -/
def Counts (userId : String) (story : Story) : Prop :=
  story.authorId = userId ∧ story.status = "published" ∧ story.deletedAt = none

instance (userId : String) (story : Story) : Decidable (Counts userId story) :=
  inferInstanceAs (Decidable (_ ∧ _ ∧ _))

/-- The author's published stories that are not deleted. -/
def World.published (userId : String) : List Story :=
  world.stories.database.stories.rows.filter (Counts userId ·)

/-- `SELECT count(*) FROM ... INNER JOIN stories ON stories.id = story_id WHERE ...`; `name` is how
the server prints the id of a story. -/
def World.joined (source : Source) (userId : String) : Nat :=
  ((world.reactions.tables source).reactions.map fun r =>
    world.stories.database.stories.rows.countP fun s =>
      name s.id = r.storyId ∧ Counts userId s).sum

def UsersService.countStoryReactions (userId : String) : Nat := world.joined name .legacy userId

def BadgesService.countStoryReactions (userId : String) : Nat := world.joined name .legacy userId

/-- What the repository reports of some stories, added up. -/
def reported (stories : List Story) : Method Nat :=
  stories.foldlM (fun total s => do
    return total + (← ReactionsRepository.countReactions (name s.id))) 0

/-- While no statement fails, both totals of an author are the sum of what the repository reports
of the author's published stories. -/
def World.TotalsAgree (userId : String) : Prop :=
  ∀ choices : Nat → Choice, (∀ n, (choices n).failure = none) →
    ((reported name (world.published userId)).run.eval exec choices world.reactions).1 =
        .ok (UsersService.countStoryReactions name world userId) ∧
      ((reported name (world.published userId)).run.eval exec choices world.reactions).1 =
        .ok (BadgesService.countStoryReactions name world userId)

end Readers

section Steps
variable (ids : UuidText) (texts : Stories.JsonTexts) (unicode : Stories.Unicode)

/-- An operation, and what happens around its calls. -/
inductive Step where
  | story (step : Stories.Step)
  | addReaction (userId storyId type : String) (choices : Nat → Choice)
  | removeReaction (userId storyId : String) (choices : Nat → Choice)

def Step.after (world : World) : Step → World
  | story step => { world with stories := step.after ids texts unicode world.stories }
  | addReaction userId storyId type choices =>
    { world with reactions :=
      ((ReactionsService.addReaction userId storyId type).run.eval exec choices world.reactions).2 }
  | removeReaction userId storyId choices =>
    { world with reactions :=
      ((ReactionsService.removeReaction userId storyId).run.eval exec choices world.reactions).2 }

/-- What the service finds of a reader's reaction. -/
def found (db : Database) (userId storyId : String) (choices : Nat → Choice) :
    Except Thrown (Option Reaction) :=
  ((ReactionsRepository.findByUserAndStory userId storyId).run.eval exec choices db).1

/-- What happens around the statement after that. -/
def thenChoice (db : Database) (userId storyId : String) (choices : Nat → Choice) : Choice :=
  choices ((ReactionsRepository.findByUserAndStory userId storyId).run.calls exec choices db)

/-- Its answer may be lost. -/
def CarriedOut (choice : Choice) : Prop := ∀ error, choice.outcome ≠ .refused error

instance (choice : Choice) : Decidable (CarriedOut choice) :=
  match h : choice.outcome with
  | .performed => .isTrue fun error refused => by rw [h] at refused; cases refused
  | .lost _ => .isTrue fun error refused => by rw [h] at refused; cases refused
  | .refused error => .isFalse fun carried => carried error h

/-- By how many the reactions of a story become more in a step: by one that is created, less
those that are removed. -/
def Step.change (db : Database) (storyId : String) : Step → Int
  | story _ => 0
  | addReaction userId target type choices =>
    if target = storyId ∧ type ∈ Social.VALID_REACTION_TYPES then
      match found db userId target choices with
      | .ok none => if CarriedOut (thenChoice db userId target choices) then 1 else 0
      | _ => 0
    else 0
  | removeReaction userId target choices =>
    if target = storyId then
      match found db userId target choices with
      | .ok (some _) =>
        if CarriedOut (thenChoice db userId target choices) then
          -(db.partitioned.reactions.countP fun r => r.userId = userId ∧ r.storyId = target)
        else 0
      | _ => 0
    else 0

/-- Over a run. -/
def net (world : World) (storyId : String) : List Step → Int
  | [] => 0
  | step :: rest =>
    step.change world.reactions storyId + net (step.after ids texts unicode world) storyId rest

end Steps

section Sums
variable {name : Nat → String} {world : World} {userId : String}

theorem sum_countP_cons (reactions : List Reaction) (s : Story) (rest : List Story) :
    (reactions.map fun r => (s :: rest).countP fun s =>
      name s.id = r.storyId ∧ Counts userId s).sum =
        (if Counts userId s then reactions.countP (·.storyId = name s.id) else 0) +
          (reactions.map fun r => rest.countP fun s =>
            name s.id = r.storyId ∧ Counts userId s).sum := by
  induction reactions with
  | nil => simp
  | cons r reactions ih =>
    rw [List.map_cons, List.sum_cons, ih, List.map_cons, List.sum_cons, List.countP_cons]
    by_cases counts : Counts userId s
    · rw [if_pos counts, if_pos counts, List.countP_cons]
      by_cases here : r.storyId = name s.id
      · simp only [counts, here, and_true, decide_true, if_true]
        omega
      · have other : ¬ name s.id = r.storyId := fun same => here same.symm
        simp only [here, other, false_and, decide_false, Bool.false_eq_true, if_false]
        omega
    · rw [if_neg counts, if_neg counts]
      simp only [counts, and_false, decide_false, Bool.false_eq_true, if_false]
      omega

/-- A join counts each story's reactions. -/
theorem joined_eq_sum (source : Source) : world.joined name source userId =
    ((world.published userId).map fun s =>
      (world.reactions.tables source).total (name s.id)).sum := by
  rw [World.joined, World.published]
  generalize world.stories.database.stories.rows = stories
  induction stories with
  | nil => simp
  | cons s rest ih =>
    rw [sum_countP_cons, ih, List.filter_cons]
    by_cases counts : Counts userId s
    · simp [counts, Tables.total]
    · simp [counts]

end Sums

section Reports
variable {name : Nat → String} {db : Database}

/-- A statement does not fail. -/
def Answered (choice : Choice) : Prop := choice.failure = none

theorem wpE_countReactions (storyId : String) :
    wpE (Program.execSpec exec Answered) (ReactionsRepository.countReactions storyId)
      (fun result after => result = .ok (db.partitioned.total storyId) ∧ after = db) db := by
  intro choice answered
  rw [exec_select, answered]
  exact ⟨rfl, rfl⟩

theorem wpE_reported (stories : List Story) (total : Nat) :
    wpE (Program.execSpec exec Answered) (stories.foldlM (fun total s => do
      return total + (← ReactionsRepository.countReactions (name s.id))) total : Method Nat)
      (fun result after => result =
        .ok (total + (stories.map fun s => db.partitioned.total (name s.id)).sum) ∧ after = db)
      db := by
  induction stories generalizing total with
  | nil => exact ⟨rfl, rfl⟩
  | cons s rest ih =>
    have counts : wpE (Program.execSpec exec Answered) (do
        return total + (← ReactionsRepository.countReactions (name s.id)) : Method Nat)
        (fun result after => result = .ok (total + db.partitioned.total (name s.id)) ∧ after = db)
        db := by
      refine wpE_seq (Program.execSpec_monotone _ _) (wpE_countReactions (name s.id)) ?_ ?_
      · rintro e after ⟨thrown, -⟩
        cases thrown
      · rintro _ after ⟨⟨⟩, rfl⟩
        exact ⟨rfl, rfl⟩
    rw [List.foldlM_cons, List.map_cons, List.sum_cons, ← Nat.add_assoc]
    refine wpE_seq (Program.execSpec_monotone _ _) counts ?_ ?_
    · rintro e after ⟨thrown, -⟩
      cases thrown
    · rintro _ after ⟨⟨⟩, rfl⟩
      exact ih _

/-- The totals agree when as many rows of either table belong to the author's stories. -/
theorem totalsAgree_iff {world : World} {userId : String} : world.TotalsAgree name userId ↔
    ((world.published userId).map fun s =>
      world.reactions.partitioned.total (name s.id)).sum =
      ((world.published userId).map fun s => world.reactions.legacy.total (name s.id)).sum := by
  have reports (choices : Nat → Choice) (answered : ∀ n, (choices n).failure = none) :
      ((reported name (world.published userId)).run.eval exec choices world.reactions).1 =
        .ok ((world.published userId).map fun s =>
          world.reactions.partitioned.total (name s.id)).sum := by
    have reads : wpE (Program.execSpec exec Answered) (reported name (world.published userId)) _
        world.reactions := wpE_reported (world.published userId) 0
    rw [← Nat.zero_add (List.sum _)]
    exact (Program.eval_of_wp reads answered).1
  have counted : UsersService.countStoryReactions name world userId =
      ((world.published userId).map fun s => world.reactions.legacy.total (name s.id)).sum :=
    joined_eq_sum .legacy
  constructor
  · intro agree
    have users := (agree (fun _ => {}) fun _ => rfl).1
    rw [reports _ fun _ => rfl, counted] at users
    exact Except.ok.inj users
  · intro same choices answered
    have users : ((reported name (world.published userId)).run.eval exec choices
        world.reactions).1 = .ok (UsersService.countStoryReactions name world userId) := by
      rw [reports choices answered, same, counted]
    exact ⟨users, users⟩

end Reports

section Changes
variable {db : Database} {userId target : String} {choices : Nat → Choice}

theorem eval_find : (ReactionsRepository.findByUserAndStory userId target).run.eval exec choices db =
    (found db userId target choices, db) := by
  rw [found, ReactionsRepository.findByUserAndStory, Reading.eval_withFallback]

/-- What follows the search. -/
theorem eval_find_bind {α : Type} (f : Option Reaction → Method α) :
    (ReactionsRepository.findByUserAndStory userId target >>= f).run.eval exec choices db =
      match found db userId target choices with
      | .ok row => (f row).run.eval exec (fun n => choices (n +
          (ReactionsRepository.findByUserAndStory userId target).run.calls exec choices db)) db
      | .error e => (.error e, db) := by
  change ((ReactionsRepository.findByUserAndStory userId target).run >>=
    ExceptT.bindCont f).eval exec choices db = _
  rw [Program.eval_bind, eval_find]
  cases found db userId target choices <;> rfl

variable (db) in
/-- One write, and then nothing that could change anything. -/
theorem eval_write {α : Type} (write : Write) (a : α) (choices : Nat → Choice) :
    ((do
      let _ ← call (.write write)
      return a : Method α).run.eval exec choices db).2 =
      (exec (choices 0) db (.write write)).2 := by
  change (Program.eval exec (Program.bind (.call (.write write) .done) _) choices db).2 = _
  simp only [Program.bind, Program.eval]
  cases (exec (choices 0) db (.write write)).1 <;> rfl

theorem exec_write (choice : Choice) (write : Write) : (exec choice db (.write write)).2 =
    if CarriedOut choice then { db with partitioned := (db.partitioned.write choice write).2 }
    else db := by
  rcases choice with ⟨outcome, uuid, now⟩
  cases outcome with
  | performed => exact (if_pos nofun).symm
  | lost error => exact (if_pos nofun).symm
  | refused error => exact (if_neg fun carried => carried error rfl).symm

/-- What the search is answered with decides what is written. -/
theorem eval_addReaction {type : String} (valid : type ∈ Social.VALID_REACTION_TYPES) :
    ((ReactionsService.addReaction userId target type).run.eval exec choices db).2 =
      match found db userId target choices with
      | .ok (some existing) => (exec (thenChoice db userId target choices) db
          (.write (.setReactionType existing.id type))).2
      | .ok none => (exec (thenChoice db userId target choices) db
          (.write (.insertReaction userId target type))).2
      | .error _ => db := by
  rw [ReactionsService.addReaction, if_pos valid, eval_find_bind]
  cases found db userId target choices with
  | error e => rfl
  | ok row =>
    cases row with
    | none =>
      have written := eval_write db (.insertReaction userId target type)
        (Except.ok () : Except Failure Unit) fun n => choices (n +
          (ReactionsRepository.findByUserAndStory userId target).run.calls exec choices db)
      rw [Nat.zero_add] at written
      exact written
    | some existing =>
      have written := eval_write db (.setReactionType existing.id type)
        (Except.ok () : Except Failure Unit) fun n => choices (n +
          (ReactionsRepository.findByUserAndStory userId target).run.calls exec choices db)
      rw [Nat.zero_add] at written
      exact written

theorem eval_removeReaction :
    ((ReactionsService.removeReaction userId target).run.eval exec choices db).2 =
      match found db userId target choices with
      | .ok (some _) => (exec (thenChoice db userId target choices) db
          (.write (.deletePair userId target))).2
      | _ => db := by
  rw [ReactionsService.removeReaction, eval_find_bind]
  cases found db userId target choices with
  | error e => rfl
  | ok row =>
    cases row with
    | none => rfl
    | some existing =>
      have written : ((do
          ReactionsRepository.deleteByUserAndStory userId target
          return .ok () : Method (Except Failure Unit)).run.eval exec (fun n => choices (n +
            (ReactionsRepository.findByUserAndStory userId target).run.calls exec choices db))
          db).2 = (exec (choices (0 +
            (ReactionsRepository.findByUserAndStory userId target).run.calls exec choices db)) db
            (.write (.deletePair userId target))).2 := by
        change (Program.eval exec (Program.bind (Program.bind (.call (.write _) .done) _) _)
          _ db).2 = _
        simp only [Program.bind, Program.eval]
        cases (exec _ db (.write (.deletePair userId target))).1 <;> rfl
      rw [Nat.zero_add] at written
      exact written

theorem total_insert (choice : Choice) (tables : Tables) (type storyId : String) :
    (tables.write choice (.insertReaction userId target type)).2.total storyId =
      tables.total storyId + if target = storyId then 1 else 0 := by
  simp [Tables.write, Tables.total, List.countP_append]

theorem total_setType (choice : Choice) (tables : Tables) (id type storyId : String) :
    (tables.write choice (.setReactionType id type)).2.total storyId = tables.total storyId := by
  simp only [Tables.write, Tables.setReactions, Tables.total, List.countP_map]
  refine List.countP_congr fun r _ => ?_
  simp only [Function.comp_apply]
  split <;> rfl

variable (userId target) in
/-- The reader's reactions to a story go, and no other. -/
theorem total_delete (choice : Choice) (tables : Tables) (storyId : String) :
    (tables.write choice (.deletePair userId target)).2.total storyId +
      (if target = storyId then
        tables.reactions.countP fun r => r.userId = userId ∧ r.storyId = target else 0) =
      tables.total storyId := by
  simp only [Tables.write, Tables.deleteReactions, Tables.total]
  induction tables.reactions with
  | nil => simp
  | cons r rest ih =>
    by_cases own : r.userId = userId ∧ r.storyId = target
    · obtain ⟨user, rfl⟩ := own
      by_cases here : r.storyId = storyId
      · simp [user, here] at ih ⊢
        omega
      · simp [user, here] at ih ⊢
        omega
    · have kept : (!decide (r.userId = userId ∧ r.storyId = target)) = true := by simp [own]
      rw [List.filter_cons, if_pos kept, List.countP_cons, List.countP_cons, List.countP_cons]
      simp only [own, decide_false, Bool.false_eq_true, if_false, Nat.add_zero]
      omega

end Changes

section Runs
variable {ids : UuidText} {texts : Stories.JsonTexts} {unicode : Stories.Unicode}

variable (ids texts unicode) in
/-- A step leaves the legacy rows, and the others become more by what it changes. -/
theorem Step.total_after (world : World) (step : Step) (storyId : String) :
    (step.after ids texts unicode world).reactions.legacy = world.reactions.legacy ∧
      ((step.after ids texts unicode world).reactions.partitioned.total storyId : Int) =
        world.reactions.partitioned.total storyId + step.change world.reactions storyId := by
  cases step with
  | story step => exact ⟨rfl, (Int.add_zero _).symm⟩
  | addReaction userId target type choices =>
    simp only [Step.after, Step.change]
    by_cases valid : type ∈ Social.VALID_REACTION_TYPES
    · rw [eval_addReaction valid]
      cases found world.reactions userId target choices with
      | error e => simp
      | ok row =>
        cases row with
        | some existing =>
          simp only [exec_write]
          split <;> simp [total_setType]
        | none =>
          simp only [exec_write, valid, and_true]
          split
          · refine ⟨rfl, ?_⟩
            simp only [total_insert]
            split <;> simp
          · exact ⟨rfl, by split <;> simp⟩
    · have refused : (ReactionsService.addReaction userId target type).run.eval exec choices
          world.reactions = (.ok (.error (.notFound "Invalid reaction type")), world.reactions) := by
        rw [ReactionsService.addReaction, if_neg valid]
        rfl
      rw [refused]
      simp [valid]
  | removeReaction userId target choices =>
    simp only [Step.after, Step.change]
    rw [eval_removeReaction]
    cases found world.reactions userId target choices with
    | error e => simp
    | ok row =>
      cases row with
      | none => simp
      | some existing =>
        simp only [exec_write]
        split
        · refine ⟨rfl, ?_⟩
          have deleted := total_delete userId target
            (thenChoice world.reactions userId target choices) world.reactions.partitioned storyId
          split at deleted
          · simp_all
            omega
          · simp_all
        · exact ⟨rfl, by split <;> simp⟩

variable (ids texts unicode) in
/-- The same over a run. -/
theorem total_run (steps : List Step) (world : World) (storyId : String) :
    (Trace.run (Step.after ids texts unicode) world steps).reactions.legacy =
        world.reactions.legacy ∧
      ((Trace.run (Step.after ids texts unicode) world steps).reactions.partitioned.total storyId
        : Int) =
        world.reactions.partitioned.total storyId + net ids texts unicode world storyId steps := by
  induction steps generalizing world with
  | nil => exact ⟨rfl, (Int.add_zero _).symm⟩
  | cons step rest ih =>
    obtain ⟨legacy, total⟩ := ih (step.after ids texts unicode world)
    obtain ⟨kept, changed⟩ := step.total_after ids texts unicode world storyId
    refine ⟨legacy.trans kept, ?_⟩
    rw [Trace.run_cons, total, changed, net, Int.add_assoc]

/-- From tables that agree, after any run: both totals of an author are what the repository
reports if and only if, on the author's stories that are published then, as many reactions were
created as removed. -/
theorem totals_agree_iff {world : World} (name : Nat → String)
    (same : ∀ storyId, world.reactions.partitioned.total storyId =
      world.reactions.legacy.total storyId) (steps : List Step) (userId : String) :
    (Trace.run (Step.after ids texts unicode) world steps).TotalsAgree name userId ↔
      (((Trace.run (Step.after ids texts unicode) world steps).published userId).map fun s =>
        net ids texts unicode world (name s.id) steps).sum = 0 := by
  rw [totalsAgree_iff]
  generalize (Trace.run (Step.after ids texts unicode) world steps).published userId = stories
  have runs := total_run ids texts unicode steps world
  rw [(runs "").1]
  have sums : (((stories.map fun s => (Trace.run (Step.after ids texts unicode) world
      steps).reactions.partitioned.total (name s.id)).sum : Nat) : Int) =
      ((stories.map fun s => world.reactions.legacy.total (name s.id)).sum : Nat) +
        (stories.map fun s => net ids texts unicode world (name s.id) steps).sum := by
    induction stories with
    | nil => rfl
    | cons s rest ih =>
      simp only [List.map_cons, List.sum_cons, Nat.cast_add, ih, (runs (name s.id)).2,
        same (name s.id)]
      omega
  omega

end Runs

/-- An id as the server prints it. -/
def printed (id : Nat) : String :=
  Stories.JsonTexts.epoch.string (UuidText.hexadecimal.print id)

def World.empty : World := ⟨.empty, ⟨⟨[], []⟩, ⟨[], []⟩⟩⟩

/-- A story is published, and a reader likes it. -/
def liked : List Step :=
  [.story (Stories.calmly (.create "scheherazade" { title := Html.units "Night" })),
    .story (Stories.calmly (.publish (UuidText.hexadecimal.print 0) "scheherazade")),
    .addReaction "dunyazad" (printed 0) "like" fun _ => {}]

/-- The reader takes the reaction back. -/
theorem totals_agree_withdrawn : (Trace.run (Step.after .hexadecimal .epoch .ascii) World.empty
    (liked ++ [.removeReaction "dunyazad" (printed 0) fun _ => {}])).TotalsAgree printed
      "scheherazade" :=
  (totals_agree_iff printed (fun _ => rfl) _ "scheherazade").mpr (by decide)

theorem liked_uncounted : ¬ (Trace.run (Step.after .hexadecimal .epoch .ascii) World.empty
    liked).TotalsAgree printed "scheherazade" := by
  rw [totalsAgree_iff]
  decide

end Totals
end Partitions
