import Hakawi.Stories.Alone

/-!
# What a refused request leaves behind

The row of a story and its tags are written by statements of their own, and the names of the
tags are looked up after the row is written. A request whose tags are refused has written its
row; one whose tags are taken has not, unless the cache fails between the writes and the event.
-/

namespace Stories
open Html Common Effects Caching
open Social (Optional)

/-- If it throws before its event was to be emitted, both tables are as they were. -/
def RefusedUntouched {α : Type} (world : World) (ended : Except Exception α × World) : Prop :=
  (∃ e, ended.1 = .error e) → ended.2.emitted = world.emitted →
    ended.2.database.stories = world.database.stories ∧
      ended.2.database.storyTags = world.database.storyTags

theorem World.SameRecords.untouched {α : Type} {before after : World}
    (same : before.SameRecords after) (result : Except Exception α) :
    RefusedUntouched before (result, after) := by
  intro _ _
  exact ⟨congrArg (·.stories) same.database, congrArg (·.storyTags) same.database⟩

section Tags
variable (weather : Choice)

/-- The tags of a request are taken: they are omitted, or an empty list, or every name is that
of a tag, no tag named twice, and the statements are carried out. -/
def TagsTaken (tags : List Tag) (storyId : Units) : Optional (List Units) → Prop
  | .undefined => True
  | .null => False
  | .value names =>
    if names.length = 0 then weather.refuses (.sql (.deleteTags storyId)) = none
    else weather.refuses (.sql (.tagsByName names)) = none ∧
      (∀ name ∈ names, (StoriesRepository.byName tags name).isSome) ∧
      (names.filterMap (StoriesRepository.byName tags)).Nodup ∧
      weather.refuses (.sql (.replaceTags storyId
        (names.filterMap (StoriesRepository.byName tags)))) = none

/-- What the replacement of the tags does: nothing if they are refused, and else nothing to the
stories. -/
structure Replaced (world : World) (storyId : Units) (tags : Optional (List Units))
    (ended : Except Exception Unit × World) : Prop where
  taken : ended.1 = .ok () ↔ TagsTaken weather world.database.tags storyId tags
  refused : ended.1 ≠ .ok () → ended.2.database = world.database
  stories : ended.2.database.stories = world.database.stories
  emitted : ended.2.emitted = world.emitted

variable {weather} {ids : UuidText} {world : World}

theorem Replaced.kept {storyId : Units} {tags : Optional (List Units)} {e : Exception}
    {after : World} (same : world.SameRecords after)
    (not : ¬ TagsTaken weather world.database.tags storyId tags) :
    Replaced weather world storyId tags (.error e, after) :=
  ⟨⟨nofun, fun taken => absurd taken not⟩, fun _ => same.database,
    congrArg (·.stories) same.database, same.emitted⟩

theorem byName_resolved {tags : List Tag} {names : List Units} {name : Units}
    (member : name ∈ names) :
    StoriesRepository.byName (tags.filter fun tag => tag.name ∈ names) name =
      StoriesRepository.byName tags name := by
  rw [StoriesRepository.byName, StoriesRepository.byName, ← List.filter_reverse,
    List.find?_filter]
  congr 2
  funext tag
  by_cases same : tag.name = name
  · simp [same, member]
  · simp [same]

theorem filterMap_byName_resolved {tags : List Tag} {names : List Units} :
    names.filterMap (StoriesRepository.byName (tags.filter fun tag => tag.name ∈ names)) =
      names.filterMap (StoriesRepository.byName tags) :=
  List.filterMap_congr fun _ member => byName_resolved member

theorem missing_iff {tags : List Tag} {names : List Units} :
    (names.filter fun name => (StoriesRepository.byName
      (tags.filter fun tag => tag.name ∈ names) name).isNone).length > 0 ↔
      ¬ ∀ name ∈ names, (StoriesRepository.byName tags name).isSome := by
  rw [gt_iff_lt, List.length_pos_iff_exists_mem]
  simp only [List.mem_filter, not_forall, Option.isSome_iff_ne_none, not_not,
    Option.isNone_iff_eq_none]
  constructor
  · rintro ⟨name, member, unknown⟩
    exact ⟨name, member, (byName_resolved member).symm.trans unknown⟩
  · rintro ⟨name, member, unknown⟩
    exact ⟨name, member, (byName_resolved member).trans unknown⟩

/-- The transaction that ends the replacement, the names being known. -/
theorem replaced_pairs {storyId : Units} {id : Nat} (named : ids.parse storyId = some id)
    {names : List Units} {between : World} (same : world.SameRecords between)
    (some : ¬ names.length = 0) (calm : weather.refuses (.sql (.tagsByName names)) = none)
    (all : ∀ name ∈ names, (StoriesRepository.byName world.database.tags name).isSome) :
    Replaced weather world storyId (.value names) ((query (.replaceTags storyId
      (names.filterMap (StoriesRepository.byName world.database.tags)))).alone ids weather
        between) := by
  cases refused : weather.refuses (.sql (.replaceTags storyId
      (names.filterMap (StoriesRepository.byName world.database.tags)))) with
  | some code =>
    rw [alone_query_error (answer_refused refused)]
    refine .kept (same.trans (.tick between weather)) fun taken => ?_
    rw [TagsTaken, if_neg some, refused] at taken
    cases taken.2.2.2
  | none =>
    have answered := answer_performed ids between refused
    simp only [Database.perform, named] at answered
    by_cases apart : (names.filterMap (StoriesRepository.byName world.database.tags)).Nodup
    · rw [if_pos apart] at answered
      rw [alone_query_ok answered]
      refine ⟨⟨fun _ => ?_, fun _ => rfl⟩, fun thrown => absurd rfl thrown,
        congrArg (·.stories) same.database, same.emitted⟩
      rw [TagsTaken, if_neg some]
      exact ⟨calm, all, apart, refused⟩
    · rw [if_neg apart] at answered
      rw [alone_query_error answered]
      refine .kept (same.trans (.tick between weather)) fun taken => ?_
      rw [TagsTaken, if_neg some] at taken
      exact apart taken.2.2.1

theorem replaced_replaceTags {storyId : Units} {id : Nat} (named : ids.parse storyId = some id)
    (names : List Units) : Replaced weather world storyId (.value names)
      ((StoriesRepository.replaceTags storyId (some names)).alone ids weather world) := by
  rw [StoriesRepository.replaceTags]
  by_cases empty : names.length = 0
  · rw [if_pos empty]
    cases refused : weather.refuses (.sql (.deleteTags storyId)) with
    | some code =>
      rw [alone_query_error (answer_refused refused)]
      refine .kept (.tick world weather) fun taken => ?_
      simp only [TagsTaken, if_pos empty, refused] at taken
      cases taken
    | none =>
      have answered := answer_performed ids world refused
      simp only [Database.perform, named, Except.mapError] at answered
      rw [alone_query_ok answered]
      refine ⟨⟨fun _ => ?_, fun _ => rfl⟩, fun thrown => absurd rfl thrown, rfl, rfl⟩
      rw [TagsTaken, if_pos empty]
      exact refused
  · rw [if_neg empty]
    cases refused : weather.refuses (.sql (.tagsByName names)) with
    | some code =>
      rw [alone_bind_error (alone_query_error (answer_refused refused))]
      refine .kept (.tick world weather) fun taken => ?_
      rw [TagsTaken, if_neg empty, refused] at taken
      cases taken.1
    | none =>
      have answered := answer_performed ids world refused
      simp only [Database.perform, Except.mapError] at answered
      rw [alone_bind_ok (alone_query_ok answered)]
      by_cases all : ∀ name ∈ names, (StoriesRepository.byName world.database.tags name).isSome
      · rw [if_neg fun some => missing_iff.mp some all, filterMap_byName_resolved]
        exact replaced_pairs named (.tick world weather) empty refused all
      · rw [if_pos (missing_iff.mpr all)]
        refine .kept (.tick world weather) fun taken => ?_
        rw [TagsTaken, if_neg empty] at taken
        exact all taken.2.1

variable (ids weather world) in
theorem replaced_replaceGivenTags {storyId : Units} {id : Nat} (named : ids.parse storyId = some id)
    (tags : Optional (List Units)) : Replaced weather world storyId tags
      ((StoriesService.replaceGivenTags storyId tags).alone ids weather world) := by
  cases tags with
  | undefined => exact ⟨⟨fun _ => trivial, fun _ => rfl⟩, fun thrown => absurd rfl thrown, rfl, rfl⟩
  | null => exact ⟨⟨nofun, False.elim⟩, fun _ => rfl, rfl, rfl⟩
  | value names => exact replaced_replaceTags named names

end Tags
section Create
variable (ids : UuidText) (weather : Choice) (world : World)

/-- The first candidate that no story has, if the reads are carried out up to it. -/
def World.freeSlug : List Units → Option Units
  | [] => none
  | candidate :: rest => match world.taken ids weather candidate with
    | .ok true => freeSlug rest
    | .ok false => some candidate
    | .error _ => none

/-- The slug under which a row is inserted, if the request gets that far. -/
def World.slugFor (unicode : Unicode) (input : CreateStoryInput) : Option Units :=
  match input.slug with
  | .value requested =>
    if (trim requested).length = 0 then none
    else world.freeSlug ids weather [trim requested]
  | .null => none
  | .undefined => match deriveStorySlug unicode input.title with
    | .error _ => none
    | .ok base =>
      world.freeSlug ids weather (storySlugCandidates base MAX_SLUG_COLLISION_ATTEMPTS)

variable {ids weather world} {values : Units → NewStory}

/-- A rejected insert is never recognised as a lost race. -/
theorem alone_tryInsert {values : NewStory} {handler : Exception → Method Story}
    (rethrows : ∀ e : Exception, e.isUniqueViolation = false → handler e = throw e) :
    Method.alone ids weather (tryCatch (StoriesRepository.create values) handler) world =
      (StoriesRepository.create values).alone ids weather world := by
  rw [alone_tryCatch, StoriesRepository.create]
  cases answered : world.answer ids weather (.insertStory values) with
  | ok result =>
    obtain ⟨story, database⟩ := result
    rw [alone_query_ok answered]
  | error e =>
    rw [alone_query_error answered]
    change (handler e).alone ids weather _ = _
    rw [rethrows e (isUniqueViolation_of_answer answered), alone_throw]

variable (ids weather world) in
/-- How the search for a slug ends: with an exception before any row is written, or at the
insert of a row whose slug is free. -/
def Searched (values : Units → NewStory) (slug : Option Units)
    (ended : Except Exception Story × World) : Prop :=
  match slug with
  | none => ∃ e after, ended = (.error e, after) ∧ world.SameRecords after
  | some slug => world.taken ids weather slug = .ok false ∧ ∃ between,
      world.SameRecords between ∧
        ended = (StoriesRepository.create (values slug)).alone ids weather between

theorem taken_of_same {between : World} (same : world.SameRecords between) (slug : Units) :
    between.taken ids weather slug = world.taken ids weather slug := by
  rw [World.taken, World.taken, World.answer, World.answer, same.database]
  rfl

theorem freeSlug_of_same {between : World} (same : world.SameRecords between)
    (candidates : List Units) :
    between.freeSlug ids weather candidates = world.freeSlug ids weather candidates := by
  induction candidates with
  | nil => rfl
  | cons candidate rest ih => rw [World.freeSlug, World.freeSlug, taken_of_same same, ih]

theorem searched_insertFirstFree (exhausted : Exception) (candidates : List Units)
    (world : World) : Searched ids weather world values
      (world.freeSlug ids weather candidates)
      ((StoriesService.insertFirstFree values exhausted candidates).alone ids weather world) := by
  induction candidates generalizing world with
  | nil => exact ⟨exhausted, world, rfl, .refl world⟩
  | cons candidate rest ih =>
    have here := alone_slugIsTaken ids weather world candidate
    rw [StoriesService.insertFirstFree, World.freeSlug]
    cases taken : world.taken ids weather candidate with
    | error e =>
      rw [taken] at here
      rw [alone_bind_error here]
      exact ⟨e, _, rfl, .tick world weather⟩
    | ok taken' =>
      rw [taken] at here
      rw [alone_bind_ok here]
      cases taken' with
      | true =>
        have later := ih (world.tick weather)
        rw [freeSlug_of_same (.tick world weather)] at later
        simp only [if_true]
        cases found : world.freeSlug ids weather rest with
        | none =>
          rw [found] at later
          obtain ⟨e, after, ended, same⟩ := later
          exact ⟨e, after, ended, .trans (.tick world weather) same⟩
        | some slug =>
          rw [found] at later
          obtain ⟨free, between, same, ended⟩ := later
          rw [taken_of_same (.tick world weather)] at free
          exact ⟨free, between, .trans (.tick world weather) same, ended⟩
      | false =>
        refine ⟨taken, world.tick weather, .tick world weather, ?_⟩
        rw [if_neg (by decide), alone_tryInsert fun e plain => by rw [plain]; rfl]

variable (ids weather world) in
theorem searched_insertWithResolvedSlug (unicode : Unicode) (authorId : String)
    (data : CreateStoryInput) : Searched ids weather world
      (data.values authorId) (world.slugFor ids weather unicode data)
      ((StoriesService.insertWithResolvedSlug unicode authorId data).alone ids weather world) := by
  rw [StoriesService.insertWithResolvedSlug, World.slugFor]
  cases data.slug with
  | null => exact ⟨_, world, rfl, .refl world⟩
  | undefined =>
    simp only
    cases derived : deriveStorySlug unicode data.title with
    | error e => exact ⟨e, world, rfl, .refl world⟩
    | ok base => exact searched_insertFirstFree _ _ world
  | value requested =>
    simp only
    by_cases empty : (trim requested).length = 0
    · rw [if_pos empty, if_pos empty]
      exact ⟨emptySlug, world, rfl, .refl world⟩
    · rw [if_neg empty, if_neg empty, World.freeSlug]
      have here := alone_slugIsTaken ids weather world
        (trim requested)
      cases taken : world.taken ids weather (trim requested) with
      | error e =>
        rw [taken] at here
        rw [alone_bind_error here]
        exact ⟨e, _, rfl, .tick world weather⟩
      | ok taken' =>
        rw [taken] at here
        rw [alone_bind_ok here]
        cases taken' with
        | true => exact ⟨slugConflict, _, rfl, .tick world weather⟩
        | false =>
          refine ⟨taken, world.tick weather, .tick world weather, ?_⟩
          rw [if_neg (by decide), alone_tryInsert fun e plain => by rw [plain]; rfl]

/-- A free slug is inserted, unless the statement is not carried out. -/
theorem answer_insertStory (values : NewStory) {between : World}
    (same : world.SameRecords between) (free : world.taken ids weather values.slug = .ok false)
    (calm : weather.refuses (.sql (.insertStory values)) = none) :
    ∃ story database, between.answer ids weather (.insertStory values) = .ok (story, database) ∧
      story.id = world.database.stories.next ∧ database.tags = world.database.tags ∧
      database.stories.rows = world.database.stories.rows ++ [story] := by
  have absent : world.database.stories.findBy? values.slug = none := by
    rw [World.taken, World.answer] at free
    split at free
    · cases free
    · simpa [Database.perform, Except.mapError, Except.map] using free
  have answered := answer_performed ids between calm
  simp only [Database.perform, same.database] at answered
  cases inserted : world.database.stories.insert?
      (Story.new values (between.tick weather).clock) fun _ => rfl with
  | none =>
    have taken := Store.Indexed.insert?_eq_none_iff.mp inserted
    change (world.database.stories.findBy? values.slug).isSome at taken
    rw [absent] at taken
    cases taken
  | some stories =>
    rw [inserted] at answered
    refine ⟨_, _, answered, rfl, rfl, ?_⟩
    have rows := congrArg (·.rows) (Store.Indexed.toTable_of_insert? inserted)
    exact rows

variable (ids weather world) in
/-- Whenever the row is inserted, the tags are taken. -/
def World.CreateKeeps (unicode : Unicode) (authorId : String) (input : CreateStoryInput) : Prop :=
  let data := { input with content := sanitizeStoryContent input.content }
  ∀ slug, world.slugFor ids weather unicode data = some slug →
    weather.refuses (.sql (.insertStory (data.values authorId slug))) = none →
    TagsTaken weather world.database.tags (ids.print world.database.stories.next) input.tags

theorem create_untouched_iff (unicode : Unicode) (authorId : String) (input : CreateStoryInput) :
    RefusedUntouched world
        ((StoriesService.create ids unicode authorId input).alone ids weather world) ↔
      world.CreateKeeps ids weather unicode authorId input := by
  rw [StoriesService.create, World.CreateKeeps]
  simp only
  generalize told : ({ input with content := sanitizeStoryContent input.content }
    : CreateStoryInput) = data
  have searched := searched_insertWithResolvedSlug ids weather world unicode authorId data
  cases found : world.slugFor ids weather unicode data with
  | none =>
    rw [found] at searched
    obtain ⟨e, after, ended, same⟩ := searched
    rw [alone_bind_error ended]
    exact ⟨fun _ => nofun, fun _ => same.untouched _⟩
  | some slug =>
    rw [found] at searched
    obtain ⟨free, between, same, ended⟩ := searched
    cases refused : weather.refuses (.sql (.insertStory (data.values authorId slug))) with
    | some code =>
      have rejected : (StoriesRepository.create (data.values authorId slug)).alone ids weather
          between = _ := alone_query_error (answer_refused refused)
      rw [alone_bind_error (ended.trans rejected)]
      refine ⟨fun _ slug' same' calm => ?_, fun _ => (same.trans (.tick _ _)).untouched _⟩
      cases same'
      rw [refused] at calm
      cases calm
    | none =>
      obtain ⟨story, database, answered, named, tagged, rows⟩ :=
        answer_insertStory (data.values authorId slug) same free refused
      have inserted : (StoriesRepository.create (data.values authorId slug)).alone ids weather
          between = _ := alone_query_ok answered
      rw [alone_bind_ok (ended.trans inserted)]
      have replaced := replaced_replaceGivenTags weather ids
        { between.tick weather with database } (ids.parse_print story.id) input.tags
      have condition : (∀ slug', some slug = some slug' →
          weather.refuses (.sql (.insertStory (data.values authorId slug'))) = none →
          TagsTaken weather world.database.tags (ids.print world.database.stories.next)
            input.tags) ↔ TagsTaken weather database.tags (ids.print story.id) input.tags := by
        rw [tagged, named]
        exact ⟨fun keeps => keeps slug rfl refused, fun taken _ _ _ => taken⟩
      rw [condition, ← replaced.taken]
      generalize replacing : (StoriesService.replaceGivenTags (ids.print story.id)
        input.tags).alone ids weather { between.tick weather with database } = step at replaced ⊢
      obtain ⟨result, after⟩ := step
      cases result with
      | error e =>
        rw [alone_bind_error replacing]
        refine ⟨fun untouched => ?_, nofun⟩
        have before := (untouched ⟨e, rfl⟩ (replaced.emitted.trans same.emitted)).1
        have longer := congrArg (·.rows.length) (replaced.stories.symm.trans before)
        simp only [rows, List.length_append, List.length_singleton] at longer
        omega
      | ok u =>
        rw [alone_bind_ok replacing]
        refine ⟨fun _ => rfl, fun _ _ silent => ?_⟩
        have grown := (emitted_alone_emit ids weather
          (.created story.id authorId (toStorySnapshot story)) (fun _ => (pure story : Method Story))
          fun _ _ => rfl).symm.trans silent
        have still : after.emitted = world.emitted := replaced.emitted.trans same.emitted
        rw [still] at grown
        have longer := congrArg List.length grown
        rw [List.length_append, List.length_singleton] at longer
        omega

end Create

section Update
variable (ids : UuidText) (weather : Choice) (world : World)

/-- The row of a story is written: the request passes the checks and its statement is carried
out. `between` is the world before the statement. -/
structure World.Rewrites (id : Units) (input : UpdateStoryInput) (userId : String)
    (story written : Story) (between : World) (database : Database) : Prop where
  found : world.existing ids weather id = .ok story
  own : story.authorId = userId
  free : ∀ slug, input.probes story = some slug → world.taken ids weather slug = .ok false
  after : between = if (input.probes story).isSome then (world.tick weather).tick weather
    else world.tick weather
  carried : between.answer ids weather (.updateStory id input.updates.toChanges) =
    .ok (some written, database)

/-- Once the row is written, as in `between`, the tags are taken and the two keys are dropped,
unless all that is written was there before. -/
def WrittenKeeps (id : Units) (input : UpdateStoryInput) (story : Story) (between : World) : Prop :=
  let replaced := ((StoriesService.replaceGivenTags id input.tags).alone ids weather between).2
  TagsTaken weather world.database.tags id input.tags ∧
      ((StoriesService.invalidateStoryCache id story.slug).alone ids weather replaced).1 = .ok () ∨
    between.database.stories = world.database.stories ∧
      (TagsTaken weather world.database.tags id input.tags →
        replaced.database.storyTags = world.database.storyTags)

def World.UpdateKeeps (id : Units) (input : UpdateStoryInput) (userId : String) : Prop :=
  ∀ story written between database,
    world.Rewrites ids weather id input userId story written between database →
    WrittenKeeps ids weather world id input story { between.tick weather with database }

variable {ids weather world} {id : Units} {input : UpdateStoryInput} {story : Story}

theorem writeUpdate_untouched_iff (found : world.existing ids weather id = .ok story)
    {between : World} (same : world.SameRecords between) :
    RefusedUntouched world
        ((StoriesService.writeUpdate id input story).alone ids weather between) ↔
      ∀ written database,
        between.answer ids weather (.updateStory id input.updates.toChanges) =
          .ok (some written, database) →
        WrittenKeeps ids weather world id input story { between.tick weather with database } := by
  obtain ⟨key, named, -, -⟩ := existing_eq_ok found
  rw [StoriesService.writeUpdate, StoriesRepository.update]
  rcases answer_updateStory found same input.updates.toChanges with
    ⟨e, rejected⟩ | ⟨written, stories, answered⟩
  · rw [alone_bind_error (alone_query_error rejected), rejected]
    exact ⟨fun _ _ _ => nofun, fun _ => (same.trans (.tick between weather)).untouched _⟩
  · rw [alone_bind_ok (alone_query_ok answered), answered]
    have condition : (∀ written' database',
        Except.ok (some written, { world.database with stories }) =
          (Except.ok (some written', database') : Except Exception _) →
        WrittenKeeps ids weather world id input story
          { between.tick weather with database := database' }) ↔
        WrittenKeeps ids weather world id input story
          { between.tick weather with database := { world.database with stories } } :=
      ⟨fun all => all _ _ rfl, fun keeps _ _ same' => by
        cases same'
        exact keeps⟩
    rw [condition, WrittenKeeps]
    have replaced := replaced_replaceGivenTags weather ids
      { between.tick weather with database := { world.database with stories } } named input.tags
    generalize replacing : (StoriesService.replaceGivenTags id input.tags).alone ids weather
      { between.tick weather with database := { world.database with stories } } = step
      at replaced ⊢
    obtain ⟨result, after⟩ := step
    cases result with
    | error e =>
      rw [alone_bind_error replacing]
      have refused : ¬ TagsTaken weather world.database.tags id input.tags :=
        fun taken => nomatch replaced.taken.mpr taken
      have left := replaced.refused nofun
      constructor
      · intro untouched
        have before := untouched ⟨e, rfl⟩ (replaced.emitted.trans same.emitted)
        exact Or.inr ⟨(congrArg (·.stories) left).symm.trans before.1,
          fun taken => absurd taken refused⟩
      · rintro (⟨taken, -⟩ | ⟨stands, -⟩) _ _
        · exact absurd taken refused
        · exact ⟨(congrArg (·.stories) left).trans stands, congrArg (·.storyTags) left⟩
    | ok u =>
      rw [alone_bind_ok replacing]
      have taken : TagsTaken weather world.database.tags id input.tags := replaced.taken.mp rfl
      have frame := alone_invalidateStoryCache_frame ids weather id
        story.slug after
      generalize dropping : (StoriesService.invalidateStoryCache id story.slug).alone ids weather
        after = step at frame ⊢
      obtain ⟨result, dropped⟩ := step
      cases result with
      | error e =>
        rw [alone_bind_error dropping]
        have stories := (congrArg (·.stories) frame.database).trans replaced.stories
        have storyTags := congrArg (·.storyTags) frame.database
        constructor
        · intro untouched
          have before := untouched ⟨e, rfl⟩
            (frame.emitted.trans (replaced.emitted.trans same.emitted))
          exact Or.inr ⟨stories.symm.trans before.1, fun _ => storyTags.symm.trans before.2⟩
        · rintro (⟨-, never⟩ | ⟨stands, kept⟩) _ _
          · cases never
          · exact ⟨stories.trans stands, storyTags.trans (kept taken)⟩
      | ok u =>
        rw [alone_bind_ok dropping]
        refine ⟨fun _ => Or.inl ⟨taken, rfl⟩, fun _ _ silent => ?_⟩
        have grown := (emitted_alone_emit ids weather
          (.updated id input.updates (toStorySnapshot written))
          (fun _ => StoriesService.returned (some written)) fun _ _ => rfl).symm.trans silent
        have still : dropped.emitted = world.emitted :=
          frame.emitted.trans (replaced.emitted.trans same.emitted)
        rw [still] at grown
        have longer := congrArg List.length grown
        rw [List.length_append, List.length_singleton] at longer
        omega

theorem update_untouched_iff (id : Units) (input : UpdateStoryInput) (userId : String) :
    RefusedUntouched world ((StoriesService.update id input userId).alone ids weather world) ↔
      world.UpdateKeeps ids weather id input userId := by
  rw [alone_update]
  cases found : world.existing ids weather id with
  | error e =>
    refine ⟨fun _ story _ _ _ rewrites => ?_, fun _ => (World.SameRecords.tick _ _).untouched _⟩
    cases found.symm.trans rewrites.found
  | ok story =>
    simp only
    by_cases own : story.authorId = userId
    · have settled {between : World} (same : world.SameRecords between)
          (free : ∀ slug, input.probes story = some slug → world.taken ids weather slug = .ok false)
          (after : between = if (input.probes story).isSome then
            (world.tick weather).tick weather else world.tick weather) :
          RefusedUntouched world
              ((StoriesService.writeUpdate id input story).alone ids weather between) ↔
            world.UpdateKeeps ids weather id input userId := by
        rw [writeUpdate_untouched_iff found same]
        constructor
        · intro keeps story' written between' database rewrites
          cases found.symm.trans rewrites.found
          obtain rfl : between' = between := rewrites.after.trans after.symm
          exact keeps written database rewrites.carried
        · intro keeps written database carried
          exact keeps story written between database ⟨found, own, free, after, carried⟩
      have twice := (World.SameRecords.tick world weather).trans (.tick (world.tick weather) weather)
      rw [if_neg (not_not.mpr own)]
      cases probed : input.probes story with
      | none =>
        refine settled (.tick world weather) (fun slug never => ?_) (by rw [probed]; rfl)
        cases probed.symm.trans never
      | some slug =>
        simp only
        have early (blocked : world.taken ids weather slug ≠ .ok false) (e : Exception) :
            RefusedUntouched world ((.error e : Except Exception Story),
                (world.tick weather).tick weather) ↔ world.UpdateKeeps ids weather id input userId := by
          refine ⟨fun _ story' _ _ _ rewrites => ?_, fun _ => twice.untouched _⟩
          cases found.symm.trans rewrites.found
          exact absurd (rewrites.free slug probed) blocked
        cases taken : world.taken ids weather slug with
        | error e => exact early (by rw [taken]; nofun) e
        | ok taken' =>
          cases taken' with
          | true => exact early (by rw [taken]; nofun) slugConflict
          | false =>
            refine settled twice (fun slug' same => ?_) (by rw [probed]; rfl)
            obtain rfl : slug = slug' := Option.some.inj (probed.symm.trans same)
            exact taken
    · rw [if_pos own]
      refine ⟨fun _ story' _ _ _ rewrites => ?_, fun _ => (World.SameRecords.tick _ _).untouched _⟩
      cases found.symm.trans rewrites.found
      exact absurd rewrites.own own

end Update

inductive Request where
  | create (authorId : String) (input : CreateStoryInput)
  | update (id : Units) (input : UpdateStoryInput) (userId : String)

section Requests
variable (ids : UuidText) (unicode : Unicode) (weather : Choice) (world : World)

def Request.method : Request → Method Story
  | create authorId input => StoriesService.create ids unicode authorId input
  | update id input userId => StoriesService.update id input userId

/-- What is written before the event is not followed by an exception, or was there before. -/
def Request.Keeps : Request → Prop
  | create authorId input => world.CreateKeeps ids weather unicode authorId input
  | update id input userId => world.UpdateKeeps ids weather id input userId

theorem request_untouched_iff (request : Request) :
    RefusedUntouched world ((request.method ids unicode).alone ids weather world) ↔
      request.Keeps ids unicode weather world := by
  cases request with
  | create authorId input => exact create_untouched_iff unicode authorId input
  | update id input userId => exact update_untouched_iff id input userId

end Requests

/-- A story whose only tag nobody has created. -/
def untagged : Request :=
  .create "scheherazade" { title := units "Night", tags := .value [units "poetry"] }

def World.empty : World := ⟨0, ⟨.empty, [], []⟩, .empty, []⟩

theorem untagged_stays : ¬ RefusedUntouched World.empty
    ((untagged.method .hexadecimal .ascii).alone .hexadecimal {} World.empty) := by
  intro untouched
  have refused : ((untagged.method .hexadecimal .ascii).alone .hexadecimal {} World.empty).1 =
      .error (StoriesRepository.unknownTags [units "poetry"]) := by decide
  have silent : ((untagged.method .hexadecimal .ascii).alone .hexadecimal {} World.empty).2.emitted =
      [] := by decide
  have rows : ((untagged.method .hexadecimal .ascii).alone .hexadecimal {}
      World.empty).2.database.stories.rows.length = 1 := by decide
  rw [(untouched ⟨_, refused⟩ silent).1] at rows
  cases rows

end Stories
