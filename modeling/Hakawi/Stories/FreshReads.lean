import Hakawi.Effects.Trace
import Hakawi.Stories.SoundMethods

/-!
# What reads of stories answer

The counters of a story are moved under its id alone, an update drops the keys after the tags
are written, and nobody drops the other spellings of an id: what is cached there stays. Where
nothing is, reads answer with the current row.
-/

namespace Stories
open Html Common Effects Caching
open Social (Optional)

section Answers

/-- What a read of a story without a cache answers, of a row that it finds. -/
def loaded : Option Story → Except Exception Story
  | none => .error storyNotFound
  | some story => if story.deletedAt.isSome then .error storyNotFound else .ok story

/-- What a viewer is to be shown of a row, or that there is none. -/
def shown (viewer : Option StoryViewer) (row : Option Story) : Except Exception Story :=
  match loaded row with
  | .error e => .error e
  | .ok story =>
    if story.status = PUBLIC_STORY_STATUS ∨ canReadUnpublishedStory story viewer then .ok story
    else .error storyNotFound

def Choice.Calm (choice : Choice) : Prop := ∀ call, choice.refuses call = none

theorem Choice.Calm.available {choice : Choice} (calm : choice.Calm) : choice.Available :=
  fun command => calm (.cache command)

variable {ids : UuidText} {texts : JsonTexts} {ok : Choice → Prop} {world : World}

/-- The check that comes after a read. -/
theorem wpE_readable {p : Method Story} {viewer : Option StoryViewer} {row : Option Story}
    (reads : wpE (Program.execSpec (World.exec ids) ok) p (fun result after =>
      Sound ids texts (fun _ => False) after ∧ result = loaded row) world) :
    wpE (Program.execSpec (World.exec ids) ok) (do
      let story ← p
      assertStoryIsReadableBy story viewer
      return story) (fun result after =>
        Sound ids texts (fun _ => False) after ∧ result = shown viewer row) world := by
  refine wpE_seq (Program.execSpec_monotone _ _) reads ?_ ?_
  · rintro e after ⟨fresh, answered⟩
    exact ⟨fresh, by rw [shown, ← answered]⟩
  · rintro story after ⟨fresh, answered⟩
    rw [shown, ← answered, assertStoryIsReadableBy]
    by_cases published : story.status = PUBLIC_STORY_STATUS
    · simp only [published, if_true, true_or]
      exact ⟨fresh, rfl⟩
    · cases readable : canReadUnpublishedStory story viewer
      · simp only [published, readable, if_false, or_self, Bool.false_eq_true]
        exact ⟨fresh, rfl⟩
      · simp only [published, readable, if_false, or_true, if_true]
        exact ⟨fresh, rfl⟩

theorem exec_calm {choice : Choice} (calm : choice.Calm) {id : Units} {key : Nat}
    (named : ids.parse id = some key) :
    World.exec ids choice world (.sql (.storyById id)) = (.ok (world.database.stories.find? key),
      { world with clock := world.clock + choice.elapsed }) := by
  refine exec_performed (calm _) ?_
  simp only [Database.perform, named]

theorem wpE_existing_calm {id : Units} {key : Nat} (named : ids.parse id = some key) :
    wpE (Program.execSpec (World.exec ids) Choice.Calm) (StoriesService.existing id)
      (fun result _ => result = loaded (world.database.stories.find? key)) world := by
  have found : wpE (Program.execSpec (World.exec ids) Choice.Calm)
      (StoriesRepository.findById id) (fun result _ =>
        result = .ok (world.database.stories.find? key)) world := by
    rw [StoriesRepository.findById, wpE_tryCatch]
    intro choice calm
    rw [exec_calm calm named]
    rfl
  refine wpE_seq (Program.execSpec_monotone _ _) found (fun e _ thrown => by cases thrown) ?_
  rintro row _ answered
  cases answered
  cases world.database.stories.find? key with
  | none => rfl
  | some story =>
    simp only [loaded]
    split <;> rfl

/-- What `findBySlug` loads. -/
def StoriesService.existingBySlug (slug : Units) : Method Story := do
  match ← StoriesRepository.findBySlug slug with
  | none => throw storyNotFound
  | some story => if story.deletedAt.isSome then throw storyNotFound else return story

theorem wpE_existingBySlug (fresh : Sound ids texts (fun _ => False) world) (slug : Units) :
    wpE (Program.execSpec (World.exec ids) ok) (StoriesService.existingBySlug slug)
      (fun result after => Sound ids texts (fun _ => False) after ∧
        after.database = world.database ∧ ∀ story, result = .ok story →
          Current ids world.database (units "slug:" ++ slug) story) world := by
  have ready : Ready ids texts [] (fun _ _ => True) world.database world :=
    ⟨fresh, rfl, fun _ _ _ _ => trivial⟩
  intro choice _
  obtain ⟨same, answers⟩ := exec_storyBySlug ids world choice slug
  have after : Ready ids texts [] (fun _ _ => True) world.database
      (World.exec ids choice world (.sql (.storyBySlug slug))).2 := ready.exec nofun rfl same
  generalize World.exec ids choice world (.sql (.storyBySlug slug)) = ended at after answers
  obtain ⟨result, later⟩ := ended
  cases result with
  | error e => exact ⟨after.sound, after.same, fun story returned => by cases returned⟩
  | ok found =>
    have row := answers found rfl
    cases found with
    | none => exact ⟨after.sound, after.same, fun story returned => by cases returned⟩
    | some story =>
      change wpE _ (if story.deletedAt.isSome then throw storyNotFound else return story) _ later
      split
      · exact ⟨after.sound, after.same, fun story returned => by cases returned⟩
      · rename_i alive
        refine ⟨after.sound, after.same, fun story' returned => ?_⟩
        cases returned
        obtain ⟨member, rfl⟩ := Store.Indexed.findBy?_eq_some_iff.mp row.symm
        exact ⟨member, by simpa using alive, Or.inl rfl⟩

theorem wpE_existingBySlug_calm (slug : Units) :
    wpE (Program.execSpec (World.exec ids) Choice.Calm) (StoriesService.existingBySlug slug)
      (fun result _ => result = loaded (world.database.stories.findBy? slug)) world := by
  intro choice calm
  have performed : world.database.perform ids (world.clock + choice.elapsed) (.storyBySlug slug) =
      .ok (world.database.stories.findBy? slug, world.database) := rfl
  rw [exec_performed (calm _) performed]
  change wpE _ (match world.database.stories.findBy? slug with
    | none => throw storyNotFound
    | some story => if story.deletedAt.isSome then throw storyNotFound else return story) _ _
  cases world.database.stories.findBy? slug with
  | none => rfl
  | some story =>
    simp only [loaded]
    split <;> rfl

theorem wpE_existing_current (fresh : Sound ids texts (fun _ => False) world) (id : Units) :
    wpE (Program.execSpec (World.exec ids) ok) (StoriesService.existing id)
      (fun result after => Sound ids texts (fun _ => False) after ∧
        after.database = world.database ∧ ∀ story, result = .ok story →
          Current ids world.database id story) world := by
  have ready : Ready ids texts id (fun _ _ => True) world.database world :=
    ⟨fresh, rfl, fun _ _ _ _ => trivial⟩
  refine wpE_mono (Program.execSpec_monotone _ _) ?_ (wpE_existing ready id)
  rintro result after ⟨still, known⟩
  refine ⟨still.sound, still.same, fun story returned => ?_⟩
  obtain ⟨member, named, alive⟩ := known story returned
  exact ⟨member, alive, Or.inr named⟩

/-- A read leaves the cache sound, whatever is answered. -/
theorem wpE_read (available : ∀ c, ok c → c.Available) {key : Units} {load : Method Story}
    (loads : ∀ between, Sound ids texts (fun _ => False) between →
      wpE (Program.execSpec (World.exec ids) ok) load (fun result after =>
        Sound ids texts (fun _ => False) after ∧ after.database = between.database ∧
          ∀ story, result = .ok story → Current ids between.database key story) between)
    (fresh : Sound ids texts (fun _ => False) world) (viewer : Option StoryViewer) :
    wpE (Program.execSpec (World.exec ids) ok) (do
      let story ← StoriesService.getOrSet (storyJson texts ids) key load
      assertStoryIsReadableBy story viewer
      return story) (fun _ after => Sound ids texts (fun _ => False) after) world := by
  have gets : wpE (Program.execSpec (World.exec ids) ok)
      (StoriesService.getOrSet (storyJson texts ids) key load)
      (fun _ after => Sound ids texts (fun _ => False) after ∧ True) world := by
    refine wpE_getOrSet available fresh (fun _ _ => trivial) fun between sound same => ?_
    refine wpE_mono (Program.execSpec_monotone _ _) ?_ (loads between sound)
    rintro result after ⟨still, kept, current⟩
    rw [same] at kept current
    exact ⟨still, kept, trivial, current⟩
  refine wpE_seq (Program.execSpec_monotone _ _) gets (fun _ _ ends => ends.1) ?_
  rintro story after ⟨still, -⟩
  rcases assertStoryIsReadableBy_cases story viewer with readable | hidden
  · rw [readable]
    exact still
  · rw [hidden]
    exact still

/-- In calm weather a read answers with the row, if its key is a name of that row alone. -/
theorem wpE_read_calm {key : Units} {load : Method Story} {row : Option Story}
    (loads : ∀ between, Sound ids texts (fun _ => False) between →
      between.database = world.database →
      wpE (Program.execSpec (World.exec ids) Choice.Calm) load (fun result after =>
        (Sound ids texts (fun _ => False) after ∧ after.database = world.database ∧
          ∀ story, result = .ok story → Current ids world.database key story) ∧
        result = loaded row) between)
    (fresh : Sound ids texts (fun _ => False) world)
    (one : ∀ story, Current ids world.database key story → row = some story)
    (viewer : Option StoryViewer) :
    wpE (Program.execSpec (World.exec ids) Choice.Calm) (do
      let story ← StoriesService.getOrSet (storyJson texts ids) key load
      assertStoryIsReadableBy story viewer
      return story) (fun result after =>
        Sound ids texts (fun _ => False) after ∧ result = shown viewer row) world := by
  refine wpE_readable (wpE_getOrSet (fun _ calm => calm.available) fresh (fun story current => ?_)
    fun between sound same => ?_)
  · rw [one story current, loaded, current.alive]
    rfl
  · refine wpE_mono (Program.execSpec_monotone _ _) ?_ (loads between sound same)
    rintro result after ⟨⟨still, kept, current⟩, answered⟩
    exact ⟨still, kept, answered, current⟩

variable (ids texts)

/-- Without failures, a read of a story by its id, spelled anyhow, or by its slug answers with
the row as it is, and with 404 where there is none or the viewer may not see it. -/
structure World.ReadsCurrent (world : World) : Prop where
  findById : ∀ choices : Nat → Choice, (∀ n, (choices n).Calm) → ∀ id key viewer,
    ids.parse id = some key →
      ((StoriesService.findById (storyJson texts ids) id viewer).run.eval (World.exec ids) choices
        world).1 = shown viewer (world.database.stories.find? key)
  findBySlug : ∀ choices : Nat → Choice, (∀ n, (choices n).Calm) → ∀ slug viewer,
    ((StoriesService.findBySlug (storyJson texts ids) slug viewer).run.eval (World.exec ids)
      choices world).1 = shown viewer (world.database.stories.findBy? slug)

variable {ids texts}

theorem Sound.readsCurrent (apart : ∀ slug, ids.parse (units "slug:" ++ slug) = none)
    (fresh : Sound ids texts (fun _ => False) world) : world.ReadsCurrent ids texts where
  findById choices calm id key viewer named := by
    have one : ∀ story, Current ids world.database id story →
        world.database.stories.find? key = some story := by
      rintro story ⟨member, -, rfl | names⟩
      · cases (apart story.slug).symm.trans named
      · exact Store.Table.find?_eq_some_iff.mpr ⟨member,
          Option.some.inj (names.symm.trans named)⟩
    have reads : wpE (Program.execSpec (World.exec ids) Choice.Calm)
        (StoriesService.findById (storyJson texts ids) id viewer) (fun result after =>
          Sound ids texts (fun _ => False) after ∧
            result = shown viewer (world.database.stories.find? key)) world := by
      refine wpE_read_calm (fun between sound same => ?_) fresh one viewer
      rw [← same]
      exact Program.wp_and (wpE_existing_current sound id) (wpE_existing_calm named)
    exact (Program.eval_of_wp reads calm).2
  findBySlug choices calm slug viewer := by
    have one : ∀ story, Current ids world.database (units "slug:" ++ slug) story →
        world.database.stories.findBy? slug = some story := by
      rintro story ⟨member, -, names | names⟩
      · exact Store.Indexed.findBy?_eq_some_iff.mpr ⟨member, (List.append_cancel_left names).symm⟩
      · cases (apart slug).symm.trans names
    have reads : wpE (Program.execSpec (World.exec ids) Choice.Calm)
        (StoriesService.findBySlug (storyJson texts ids) slug viewer) (fun result after =>
          Sound ids texts (fun _ => False) after ∧
            result = shown viewer (world.database.stories.findBy? slug)) world := by
      refine wpE_read_calm (fun between sound same => ?_) fresh one viewer
      rw [← same]
      exact Program.wp_and (wpE_existingBySlug sound slug) (wpE_existingBySlug_calm slug)
    exact (Program.eval_of_wp reads calm).2

end Answers

inductive Operation where
  | create (authorId : String) (input : CreateStoryInput)
  | update (id : Units) (input : UpdateStoryInput) (userId : String)
  | publish (id : Units) (userId : String)
  | archive (id : Units) (userId : String)
  | delete (id : Units) (userId : String)
  | incrementViewCount (id : Units) (viewer : StoryViewer)
  | findById (id : Units) (viewer : Option StoryViewer)
  | findBySlug (slug : Units) (viewer : Option StoryViewer)
  | reacted (storyId : Units)
  | reactionRemoved (storyId : Units)
  | commentCreated (storyId : Units) (parentId : Option Units)
  | commentDeleted (storyId : Units) (parentId : Option Units)
  | contentRemoved (targetType : String) (targetId : Units)

section Operations
variable (ids : UuidText) (texts : JsonTexts) (unicode : Unicode)

def Operation.run : Operation → Method Unit
  | create authorId input => do let _ ← StoriesService.create ids unicode authorId input
  | update id input userId => do let _ ← StoriesService.update id input userId
  | publish id userId => do let _ ← StoriesService.publish id userId
  | archive id userId => do let _ ← StoriesService.archive id userId
  | delete id userId => StoriesService.delete id userId
  | incrementViewCount id viewer => StoriesService.incrementViewCount id viewer
  | findById id viewer => do let _ ← StoriesService.findById (storyJson texts ids) id viewer
  | findBySlug slug viewer => do let _ ← StoriesService.findBySlug (storyJson texts ids) slug viewer
  | reacted storyId => StoriesEventHandler.handleStoryReacted storyId
  | reactionRemoved storyId => StoriesEventHandler.handleStoryReactionRemoved storyId
  | commentCreated storyId parentId => StoriesEventHandler.handleCommentCreated storyId parentId
  | commentDeleted storyId parentId => StoriesEventHandler.handleCommentDeleted storyId parentId
  | contentRemoved targetType targetId => handleModerationContentRemoved ids targetType targetId

/-- The story of a text is cached only under this text. -/
def World.CoveredById (world : World) (id : Units) : Prop :=
  world.Covered ids texts id fun _ text => text = id

/-- The story is cached only under this text and its slug. -/
def World.CoveredByKeys (world : World) (id : Units) : Prop :=
  world.Covered ids texts id fun story text => Dropped id story.slug text

/-- What an operation writes is cached only under the keys that it drops, and an update reaches
the point where it drops them, or has nothing to drop. -/
def Operation.Covers (world : World) (ok : Choice → Prop) : Operation → Prop
  | create _ _ | findById _ _ | findBySlug _ _ => True
  | update id input _ => world.CoveredByKeys ids texts id ∧
      (∀ choice, ok choice → TagsTaken choice world.database.tags id input.tags) ∨
      world.Covered ids texts id fun _ _ => False
  | publish id _ | archive id _ | delete id _ | incrementViewCount id _ =>
    world.CoveredByKeys ids texts id
  | reacted storyId | reactionRemoved storyId | commentCreated storyId none
  | commentDeleted storyId none => world.CoveredById ids texts storyId
  | commentCreated _ (some _) | commentDeleted _ (some _) => True
  | contentRemoved targetType targetId => targetType = "story" →
      world.Covered ids texts targetId fun story text =>
        Dropped (ids.print story.id) story.slug text

/-- An operation, and what happens around its calls. -/
structure Step where
  operation : Operation
  choices : Nat → Choice

def Step.after (world : World) (step : Step) : World :=
  ((step.operation.run ids texts unicode).run.eval (World.exec ids) step.choices world).2

/-- The store is available, and the operation leaves nothing cached that it makes stale. -/
def Step.Covers (world : World) (step : Step) : Prop :=
  (∀ n, (step.choices n).Available) ∧
    step.operation.Covers ids texts world fun choice => ∃ n, step.choices n = choice

end Operations

section Runs
variable {ids : UuidText} {texts : JsonTexts} {unicode : Unicode} {ok : Choice → Prop}
  {world : World}

/-- What is thrown is swallowed. -/
theorem wpE_swallowed {p : Method Unit} (does : wpE (Program.execSpec (World.exec ids) ok) p
    (fun _ after => Sound ids texts (fun _ => False) after) world) :
    wpE (Program.execSpec (World.exec ids) ok) (tryCatch p fun _ => return ())
      (fun _ after => Sound ids texts (fun _ => False) after) world := by
  rw [wpE_tryCatch]
  refine wpE_mono (Program.execSpec_monotone _ _) (fun result after fresh => ?_) does
  cases result <;> exact fresh

theorem wpE_discarded {α : Type} {p : Method α} (does : wpE (Program.execSpec (World.exec ids) ok) p
    (fun _ after => Sound ids texts (fun _ => False) after) world) :
    wpE (Program.execSpec (World.exec ids) ok) (do let _ ← p)
      (fun _ after => Sound ids texts (fun _ => False) after) world :=
  wpE_seq (Program.execSpec_monotone _ _) does (fun _ _ fresh => fresh) fun _ _ fresh => fresh

variable (available : ∀ c, ok c → c.Available) (fresh : Sound ids texts (fun _ => False) world)
include available fresh

theorem wpE_bump {storyId : Units} (count : Count)
    (covered : world.CoveredById ids texts storyId) :
    wpE (Program.execSpec (World.exec ids) ok) (StoriesEventHandler.bump storyId count)
      (fun _ after => Sound ids texts (fun _ => False) after) world := by
  have written : wpE (Program.execSpec (World.exec ids) ok) (query (.count storyId count))
      (fun result after => Sound ids texts (fun text => text = storyId) after ∧
        ∀ e, result = .error e → Sound ids texts (fun _ => False) after) world :=
    wpE_write fresh fun id' same => by
      cases same
      exact covered
  refine wpE_swallowed (wpE_seq (Program.execSpec_monotone _ _) written
    (fun e after ends => ends.2 e rfl) ?_)
  rintro _ after ⟨sound, -⟩
  refine wpE_mono (Program.execSpec_monotone _ _) (fun result last ends => ?_)
    (wpE_invalidateKey available storyId sound)
  exact ends.2.weaken fun text left => left.2 left.1

theorem wpE_contentRemoved {targetId : Units} (targetType : String)
    (covered : targetType = "story" → world.Covered ids texts targetId fun story text =>
      Dropped (ids.print story.id) story.slug text) :
    wpE (Program.execSpec (World.exec ids) ok)
      (handleModerationContentRemoved ids targetType targetId)
      (fun _ after => Sound ids texts (fun _ => False) after) world := by
  rw [handleModerationContentRemoved, wpE_ite]
  split
  · exact fresh
  rename_i story
  have ready : Ready ids texts targetId _ world.database world :=
    ⟨fresh, rfl, covered (not_not.mp story)⟩
  refine wpE_swallowed (wpE_seq (Program.execSpec_monotone _ _) (wpE_findById ready targetId)
    (fun _ _ ends => ends.1.sound) ?_)
  rintro found after ⟨still, known⟩
  cases found with
  | none => exact still.sound
  | some story =>
    simp only [wpE_ite]
    split
    · exact still.sound
    · refine wpE_delete available still.sound (fun text other cached named => ?_) story.authorId
      have same : story.id = other.id := Option.some.inj ((ids.parse_print story.id).symm.trans named)
      have dropped := still.covered text other cached ((known story rfl).2.trans (congrArg some same))
      rwa [← same] at dropped

/-- What each operation makes of the cache. -/
theorem wpE_run (possible : ∃ choice, ok choice) (operation : Operation)
    (covers : operation.Covers ids texts world ok) :
    wpE (Program.execSpec (World.exec ids) ok) (operation.run ids texts unicode)
      (fun _ after => Sound ids texts (fun _ => False) after) world := by
  cases operation with
  | create authorId input =>
    exact wpE_discarded (wpE_plain (plain_create ids unicode authorId input) fresh)
  | update id input userId =>
    refine wpE_discarded ?_
    rcases covers with ⟨covered, taken⟩ | uncached
    · exact wpE_update_of fresh covered (fun story after ready member named =>
        wpE_writeUpdate_taken available possible ready member named taken) userId
    · exact wpE_update_of fresh uncached (fun story after ready _ _ =>
        wpE_writeUpdate_uncached available ready) userId
  | publish id userId => exact wpE_discarded (wpE_publish available fresh covers userId)
  | archive id userId => exact wpE_discarded (wpE_archive available fresh covers userId)
  | delete id userId => exact wpE_delete available fresh covers userId
  | incrementViewCount id viewer => exact wpE_incrementViewCount available fresh covers viewer
  | findById id viewer =>
    exact wpE_discarded (wpE_read available
      (fun between sound => wpE_existing_current sound id) fresh viewer)
  | findBySlug slug viewer =>
    exact wpE_discarded (wpE_read available
      (fun between sound => wpE_existingBySlug sound slug) fresh viewer)
  | reacted storyId => exact wpE_bump available fresh .like covers
  | reactionRemoved storyId => exact wpE_bump available fresh .unlike covers
  | commentCreated storyId parentId =>
    cases parentId with
    | none => exact wpE_bump available fresh .comment covers
    | some parent => exact fresh
  | commentDeleted storyId parentId =>
    cases parentId with
    | none => exact wpE_bump available fresh .uncomment covers
    | some parent => exact fresh
  | contentRemoved targetType targetId =>
    exact wpE_contentRemoved available fresh targetType covers

omit available fresh in
theorem Sound.step {step : Step} (covers : step.Covers ids texts world)
    (fresh : Sound ids texts (fun _ => False) world) :
    Sound ids texts (fun _ => False) (step.after ids texts unicode world) := by
  have available : ∀ choice, (∃ n, step.choices n = choice) → choice.Available := by
    rintro _ ⟨n, rfl⟩
    exact covers.1 n
  exact Program.eval_of_wp (wpE_run available fresh ⟨_, 0, rfl⟩ step.operation covers.2)
    fun n => ⟨n, rfl⟩

end Runs

section Empty
variable {ids : UuidText} {texts : JsonTexts} {world : World} (empty : world.cache = .empty)
include empty

theorem live_of_empty (key : Units) : world.store.live key = none := by
  rw [World.store, empty]
  rfl

theorem covered_of_empty (id : Units) (dropped : Story → Units → Prop) :
    world.Covered ids texts id dropped := by
  rintro text story ⟨e, content, found, -⟩
  cases (live_of_empty empty _).symm.trans found

/-- Nothing is cached yet. -/
theorem sound_of_empty : Sound ids texts (fun _ => False) world := by
  refine ⟨⟨fun key _ e found => ?_, fun e found => ?_, fun e found => ?_⟩, ?_⟩
  · cases (live_of_empty empty key).symm.trans found
  · cases (live_of_empty empty _).symm.trans found
  · cases (live_of_empty empty _).symm.trans found
  · rintro text story ⟨e, content, found, -⟩ -
    cases (live_of_empty empty _).symm.trans found

end Empty

/-- In a run whose operations drop what they make stale, reads answer with the current rows after
each of them. -/
theorem stories_read_current {ids : UuidText} {texts : JsonTexts} {unicode : Unicode}
    (apart : ∀ slug, ids.parse (units "slug:" ++ slug) = none) {world : World}
    (empty : world.cache = .empty) {steps : List Step}
    (covers : Trace.Meets (Step.after ids texts unicode) (Step.Covers ids texts) world steps) :
    (Trace.run (Step.after ids texts unicode) world steps).ReadsCurrent ids texts :=
  Sound.readsCurrent apart (Trace.run_invariant (fun _ _ fresh covers => fresh.step covers)
    (sound_of_empty empty) covers)

/-- Nothing goes wrong and no time passes. -/
def calmly (operation : Operation) : Step := ⟨operation, fun _ => {}⟩

def publishedTale : List Step :=
  [calmly (.create "scheherazade" { title := units "Night", slug := .value (units "night") }),
    calmly (.publish (UuidText.hexadecimal.print 0) "scheherazade"),
    calmly (.findBySlug (units "night") none)]

/-- A story is read by its slug, and then a reader reacts to it: readers of the slug are shown the
old count. -/
def reactedTale : List Step := publishedTale ++ [calmly (.reacted (UuidText.hexadecimal.print 0))]

theorem reacted_stale : ¬ ∀ steps : List Step,
    (∀ step ∈ steps, ∀ n, (step.choices n).Available) →
    (Trace.run (Step.after .hexadecimal .epoch .ascii) World.empty steps).ReadsCurrent
      .hexadecimal .epoch := by
  intro always
  have available : ∀ step ∈ reactedTale, ∀ n, (step.choices n).Available := by
    intro step member n
    simp only [reactedTale, publishedTale, calmly, List.cons_append, List.nil_append,
      List.mem_cons, List.not_mem_nil, or_false] at member
    rcases member with rfl | rfl | rfl | rfl <;> exact fun _ => rfl
  have read := (always reactedTale available).findBySlug (fun _ => {}) (fun _ _ => rfl)
    (units "night") none
  revert read
  decide

theorem hexadecimal_apart (slug : Units) :
    UuidText.hexadecimal.parse (units "slug:" ++ slug) = none := by
  dsimp only [UuidText.hexadecimal]
  rw [if_neg]
  rintro ⟨-, digits⟩
  have first := digits 115 (List.mem_filter.mpr ⟨List.mem_append_left _ (by decide), by decide⟩)
  exact absurd first (by decide)

/-- Before the reader reacts, readers of the slug see the story as it is. -/
theorem publishedTale_current : (Trace.run (Step.after .hexadecimal .epoch .ascii) World.empty
    publishedTale).ReadsCurrent .hexadecimal .epoch := by
  have unread : (Step.after .hexadecimal .epoch .ascii World.empty (calmly (.create "scheherazade"
      { title := units "Night", slug := .value (units "night") }))).cache = .empty := rfl
  exact stories_read_current hexadecimal_apart rfl ⟨⟨fun _ _ => rfl, trivial⟩,
    ⟨fun _ _ => rfl, covered_of_empty unread _ _⟩, ⟨fun _ _ => rfl, trivial⟩, trivial⟩

end Stories
