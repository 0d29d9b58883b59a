import Hakawi.Stories.Service

/-!
# Operations run alone

While an operation runs alone, the same choices of the environment hold for all of its calls.
Each method is given by the result and the world it ends with.
-/

namespace Stories
open Html Common Effects Caching
open Social (Optional)

section Alone
variable (ids : UuidText) (weather : Choice)

def Method.alone {α : Type} (p : Method α) (world : World) : Except Exception α × World :=
  p.run.eval (World.exec ids) (fun _ => weather) world

def World.tick (world : World) : World := { world with clock := world.clock + weather.elapsed }

variable {ids weather} {α β : Type}

@[simp] theorem alone_throw (e : Exception) (world : World) :
    Method.alone ids weather (throw e : Method α) world = (.error e, world) := rfl

theorem alone_bind (p : Method α) (f : α → Method β) (world : World) :
    Method.alone ids weather (p >>= f) world = match p.alone ids weather world with
      | (.ok a, world) => (f a).alone ids weather world
      | (.error e, world) => (.error e, world) := by
  change (p.run >>= ExceptT.bindCont f).eval _ _ world = _
  rw [Program.eval_bind, Method.alone]
  generalize p.run.eval (World.exec ids) (fun _ => weather) world = ended
  obtain ⟨result, after⟩ := ended
  cases result <;> rfl

theorem alone_tryCatch (p : Method α) (handler : Exception → Method α) (world : World) :
    Method.alone ids weather (tryCatch p handler) world = match p.alone ids weather world with
      | (.ok a, world) => (.ok a, world)
      | (.error e, world) => (handler e).alone ids weather world := by
  rw [Method.alone, eval_tryCatch, Method.alone]
  generalize p.run.eval (World.exec ids) (fun _ => weather) world = ended
  obtain ⟨result, after⟩ := ended
  cases result <;> rfl

/-- A part that returns is followed by the rest. -/
theorem alone_bind_ok {p : Method α} {f : α → Method β} {world after : World} {a : α}
    (returns : p.alone ids weather world = (.ok a, after)) :
    Method.alone ids weather (p >>= f) world = (f a).alone ids weather after := by
  rw [alone_bind, returns]

theorem alone_bind_error {p : Method α} {f : α → Method β} {world after : World} {e : Exception}
    (throws : p.alone ids weather world = (.error e, after)) :
    Method.alone ids weather (p >>= f) world = (.error e, after) := by
  rw [alone_bind, throws]

end Alone

section Statements
variable (ids : UuidText) (weather : Choice)

/-- What a statement answers and makes of the database, in the given weather. -/
def World.answer (world : World) (statement : Statement) :
    Except Exception (statement.Answer × Database) :=
  match weather.refuses (.sql statement) with
  | some code => .error (.drizzle (.failed code))
  | none => (world.database.perform ids (world.tick weather).clock statement).mapError .drizzle

variable {ids weather} {world : World}

theorem alone_query {statement : Statement} :
    Method.alone ids weather (query statement) world =
      match world.answer ids weather statement with
      | .ok (a, database) => (.ok a, { world.tick weather with database })
      | .error e => (.error e, world.tick weather) := by
  change ((World.exec ids weather world (.sql statement)).1,
    (World.exec ids weather world (.sql statement)).2) = _
  simp only [World.exec, World.answer]
  cases weather.refuses (.sql statement) with
  | some code => rfl
  | none =>
    simp only [World.tick]
    cases world.database.perform ids (world.clock + weather.elapsed) statement with
    | error e => rfl
    | ok answered => rfl

theorem alone_query_ok {statement : Statement} {answer : statement.Answer} {database : Database}
    (answered : world.answer ids weather statement = .ok (answer, database)) :
    Method.alone ids weather (query statement) world =
      (.ok answer, { world.tick weather with database }) := by
  rw [alone_query, answered]

theorem alone_query_error {statement : Statement} {e : Exception}
    (rejected : world.answer ids weather statement = .error e) :
    Method.alone ids weather (query statement) world = (.error e, world.tick weather) := by
  rw [alone_query, rejected]

theorem answer_refused {statement : Statement} {code : Option String}
    (refused : weather.refuses (.sql statement) = some code) :
    world.answer ids weather statement = .error (.drizzle (.failed code)) := by
  rw [World.answer, refused]

variable (ids world) in
theorem answer_performed {statement : Statement} (calm : weather.refuses (.sql statement) = none) :
    world.answer ids weather statement =
      (world.database.perform ids (world.tick weather).clock statement).mapError .drizzle := by
  rw [World.answer, calm]

/-- What a rejected statement throws has no code. -/
theorem code_of_answer {statement : Statement} {e : Exception}
    (rejected : world.answer ids weather statement = .error e) : e.code = none := by
  rw [World.answer] at rejected
  split at rejected
  · cases rejected
    rfl
  · cases performed : world.database.perform ids (world.tick weather).clock statement with
    | error cause =>
      rw [performed] at rejected
      cases rejected
      rfl
    | ok answered =>
      rw [performed] at rejected
      cases rejected

theorem isUniqueViolation_of_answer {statement : Statement} {e : Exception}
    (rejected : world.answer ids weather statement = .error e) : e.isUniqueViolation = false := by
  rw [Exception.isUniqueViolation, code_of_answer rejected]
  rfl

end Statements

section Reads
variable (ids : UuidText) (weather : Choice) (world : World)

/-- What a read of one story by its id answers. -/
def World.found (id : Units) : Except Exception (Option Story) :=
  (world.answer ids weather (.storyById id)).map (·.1)

/-- Whether a slug is taken, soft-deleted stories included. -/
def World.taken (slug : Units) : Except Exception Bool :=
  (world.answer ids weather (.storyBySlug slug)).map (·.1.isSome)

/-- The story that an operation goes on with. -/
def World.existing (id : Units) : Except Exception Story := do
  match ← world.found ids weather id with
  | none => throw storyNotFound
  | some story => if story.deletedAt.isSome then throw storyNotFound else return story

theorem alone_findById (id : Units) :
    Method.alone ids weather (StoriesRepository.findById id) world =
      (world.found ids weather id, world.tick weather) := by
  rw [StoriesRepository.findById, alone_tryCatch, alone_query, World.found]
  cases answered : world.answer ids weather (.storyById id) with
  | error e =>
    have plain : ¬ e.code = some "22P02" := by
      rw [code_of_answer answered]
      nofun
    simp only [plain, if_false]
    rfl
  | ok result =>
    obtain ⟨story, database⟩ := result
    have same : database = world.database := by
      rw [World.answer] at answered
      split at answered
      · cases answered
      · simp only [Database.perform] at answered
        split at answered
        · cases answered
        · cases answered
          rfl
    rw [same]
    rfl

theorem alone_slugIsTaken (slug : Units) :
    Method.alone ids weather (StoriesService.slugIsTaken slug) world =
      (world.taken ids weather slug, world.tick weather) := by
  rw [StoriesService.slugIsTaken, StoriesRepository.findBySlug, alone_bind, alone_query, World.taken]
  cases answered : world.answer ids weather (.storyBySlug slug) with
  | error e => rfl
  | ok result =>
    obtain ⟨story, database⟩ := result
    have same : database = world.database := by
      rw [World.answer] at answered
      split at answered
      · cases answered
      · cases answered
        rfl
    rw [same]
    rfl

theorem alone_existing (id : Units) :
    Method.alone ids weather (StoriesService.existing id) world =
      (world.existing ids weather id, world.tick weather) := by
  rw [StoriesService.existing, alone_bind, alone_findById, World.existing]
  cases world.found ids weather id with
  | error e => rfl
  | ok found =>
    cases found with
    | none => rfl
    | some story =>
      simp only
      cases deleted : story.deletedAt.isSome with
      | true =>
        simp only [if_true]
        rw [alone_throw]
        exact Prod.ext (by simp [bind, Except.bind, deleted]; rfl) rfl
      | false =>
        exact Prod.ext (by simp [bind, Except.bind, deleted]; rfl) rfl

end Reads

/-- Between the two worlds no statement has written and nothing was to be emitted. -/
structure World.SameRecords (before after : World) : Prop where
  database : after.database = before.database
  emitted : after.emitted = before.emitted

theorem World.SameRecords.refl (world : World) : world.SameRecords world := ⟨rfl, rfl⟩

theorem World.SameRecords.tick (world : World) (weather : Choice) :
    world.SameRecords (world.tick weather) := ⟨rfl, rfl⟩

theorem World.SameRecords.trans {first second third : World} (early : first.SameRecords second)
    (late : second.SameRecords third) : first.SameRecords third :=
  ⟨late.database.trans early.database, late.emitted.trans early.emitted⟩

section Parts
variable {ids : UuidText} {weather : Choice} {α β : Type}

/-- The cache touches neither the database nor the events. -/
theorem viaCache_frame (p : Program (CacheCall Story) CacheResult (Except Failure α))
    (world : World) :
    world.SameRecords ((viaCache p).eval (World.exec ids) (fun _ => weather) world).2 := by
  induction p generalizing world with
  | done result => exact .refl world
  | call op next ih =>
    cases op with
    | readDatabase => exact ih _ world
    | changeDatabase change => exact ih _ world
    | valkey command =>
      have step : world.SameRecords (World.exec ids weather world (.cache command)).2 := by
        rw [World.exec]
        split
        · exact ⟨rfl, rfl⟩
        · exact ⟨rfl, rfl⟩
      exact step.trans (ih _ _)

theorem alone_cache_frame (p : CacheCalls Story α) (world : World) :
    world.SameRecords ((cache p).alone ids weather world).2 := viaCache_frame p.run world

variable (ids weather) in
/-- The event counts as emitted also when that fails. -/
theorem emitted_alone_emit (event : Event) (f : Unit → Method α) {world : World}
    (quiet : ∀ u (world : World), ((f u).alone ids weather world).2.emitted = world.emitted) :
    (Method.alone ids weather (emit event >>= f) world).2.emitted = world.emitted ++ [event] := by
  rw [alone_bind]
  cases refused : weather.refuses (.emit event) with
  | some code =>
    have ended : (emit event).alone ids weather world = (.error (.store disconnected),
        { world.tick weather with emitted := world.emitted ++ [event] }) := by
      change ((World.exec ids weather world (.emit event)).1,
        (World.exec ids weather world (.emit event)).2) = _
      simp only [World.exec, refused, World.tick]
      rfl
    rw [ended]
  | none =>
    have ended : (emit event).alone ids weather world = (.ok (),
        { world.tick weather with emitted := world.emitted ++ [event] }) := by
      change ((World.exec ids weather world (.emit event)).1,
        (World.exec ids weather world (.emit event)).2) = _
      simp only [World.exec, refused, World.tick]
      rfl
    rw [ended]
    exact quiet () _

theorem alone_bind_frame {p : Method α} {f : α → Method β} {world : World}
    (first : world.SameRecords (p.alone ids weather world).2)
    (rest : ∀ a (world : World), world.SameRecords ((f a).alone ids weather world).2) :
    world.SameRecords (Method.alone ids weather (p >>= f) world).2 := by
  rw [alone_bind]
  generalize p.alone ids weather world = ended at first ⊢
  obtain ⟨result, after⟩ := ended
  cases result with
  | error e => exact first
  | ok a => exact first.trans (rest a after)

variable (ids weather) in
theorem alone_invalidateStoryCache_frame (id slug : Units) (world : World) :
    world.SameRecords ((StoriesService.invalidateStoryCache id slug).alone ids weather world).2 := by
  refine alone_bind_frame (alone_cache_frame _ _) fun _ world => ?_
  refine alone_bind_frame (alone_cache_frame _ _) fun _ world => ?_
  split
  · exact alone_cache_frame _ _
  · exact .refl world

end Parts

section Existing
variable {ids : UuidText} {weather : Choice} {world : World} {id : Units} {story : Story}

theorem existing_eq_ok (found : world.existing ids weather id = .ok story) :
    ∃ key, ids.parse id = some key ∧ world.database.stories.find? key = some story ∧
      story.deletedAt = none := by
  rw [World.existing, World.found, World.answer] at found
  split at found
  · cases found
  · simp only [Database.perform] at found
    cases named : ids.parse id with
    | none =>
      rw [named] at found
      cases found
    | some key =>
      rw [named] at found
      change (match world.database.stories.find? key with
        | none => throw storyNotFound
        | some story => if story.deletedAt.isSome then throw storyNotFound else return story)
        = Except.ok story at found
      cases stored : world.database.stories.find? key with
      | none =>
        rw [stored] at found
        cases found
      | some story' =>
        rw [stored] at found
        cases deleted : story'.deletedAt with
        | some time =>
          simp only [deleted, Option.isSome_some, if_true] at found
          cases found
        | none =>
          simp only [deleted, Option.isSome_none] at found
          cases found
          exact ⟨key, rfl, stored, deleted⟩

/-- The statement that updates a story that is there is rejected, or writes its row. -/
theorem answer_updateStory (found : world.existing ids weather id = .ok story) {between : World}
    (same : world.SameRecords between) (changes : Changes) :
    (∃ e, between.answer ids weather (.updateStory id changes) = .error e) ∨
      ∃ written stories, between.answer ids weather (.updateStory id changes) =
        .ok (some written, { world.database with stories }) := by
  obtain ⟨key, named, stored, -⟩ := existing_eq_ok found
  cases refused : weather.refuses (.sql (.updateStory id changes)) with
  | some code => exact Or.inl ⟨_, answer_refused refused⟩
  | none =>
    rw [answer_performed ids between refused, same.database]
    simp only [Database.perform, named, Database.update, stored]
    cases set : story.set changes (between.tick weather).clock with
    | error e => exact Or.inl ⟨_, rfl⟩
    | ok written =>
      simp only [Database.rewrite]
      cases modified : world.database.stories.modify? key
          (fun s => { written with id := s.id }) fun _ => rfl with
      | none => exact Or.inl ⟨_, rfl⟩
      | some stories => exact Or.inr ⟨written, stories, rfl⟩

end Existing

section Update
variable {ids : UuidText} {weather : Choice} {world : World}

def UpdateStoryInput.updates (input : UpdateStoryInput) : UpdateStoryInput :=
  { input with content := sanitizeStoryContent input.content }

/-- The slug that an update looks up, if it does. -/
def UpdateStoryInput.probes (input : UpdateStoryInput) (story : Story) : Option Units :=
  match input.slug with
  | .value slug => if slug.length > 0 ∧ slug ≠ story.slug then some slug else none
  | _ => none

/-- What an update does once its checks are passed. -/
def StoriesService.writeUpdate (id : Units) (input : UpdateStoryInput) (story : Story) :
    Method Story := do
  let written ← StoriesRepository.update id input.updates.toChanges
  replaceGivenTags id input.tags
  invalidateStoryCache id story.slug
  emit (.updated id input.updates (← snapshot written))
  returned written

theorem StoriesService.update_eq (id : Units) (input : UpdateStoryInput) (userId : String) :
    update id input userId = (do
      let story ← existing id
      if story.authorId ≠ userId then
        throw (.forbidden (units "You can only update your own stories"))
      match input.slug with
      | .value slug =>
        if slug.length > 0 ∧ slug ≠ story.slug then
          if ← slugIsTaken slug then throw slugConflict
      | _ => pure ()
      writeUpdate id input story) := rfl

theorem alone_update (id : Units) (input : UpdateStoryInput) (userId : String) :
    (StoriesService.update id input userId).alone ids weather world =
      match world.existing ids weather id with
      | .error e => (.error e, world.tick weather)
      | .ok story =>
        if story.authorId ≠ userId then
          (.error (.forbidden (units "You can only update your own stories")), world.tick weather)
        else match input.probes story with
          | none => (StoriesService.writeUpdate id input story).alone ids weather
              (world.tick weather)
          | some slug => match world.taken ids weather slug with
            | .error e => (.error e, (world.tick weather).tick weather)
            | .ok true => (.error slugConflict, (world.tick weather).tick weather)
            | .ok false => (StoriesService.writeUpdate id input story).alone ids weather
                ((world.tick weather).tick weather) := by
  have here := alone_existing ids weather world id
  rw [StoriesService.update_eq]
  cases found : world.existing ids weather id with
  | error e =>
    rw [found] at here
    rw [alone_bind_error here]
  | ok story =>
    rw [found] at here
    rw [alone_bind_ok here]
    by_cases own : story.authorId = userId
    · simp only [own, ne_eq, not_true_eq_false, if_false]
      rw [UpdateStoryInput.probes]
      have probe : ∀ slug, (StoriesService.slugIsTaken slug).alone ids weather
          (world.tick weather) = (world.taken ids weather slug,
            (world.tick weather).tick weather) := fun slug =>
        alone_slugIsTaken ids weather (world.tick weather) slug
      cases given : input.slug with
      | undefined => rfl
      | null => rfl
      | value slug =>
        simp only
        by_cases looked : slug.length > 0 ∧ slug ≠ story.slug
        · rw [if_pos looked, if_pos looked]
          have answer := probe slug
          cases taken : world.taken ids weather slug with
          | error e =>
            rw [taken] at answer
            rw [alone_bind_error answer]
            simp only [taken]
          | ok taken' =>
            rw [taken] at answer
            rw [alone_bind_ok answer]
            simp only [taken]
            cases taken' <;> rfl
        · rw [if_neg looked, if_neg looked]
    · simp only [own, ne_eq, not_false_eq_true, if_true]
      rfl

end Update
end Stories
