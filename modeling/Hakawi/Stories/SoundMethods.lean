import Hakawi.Stories.Cached
import Hakawi.Stories.Refusals

/-!
# What the methods leave in the cache

Each method that writes a row drops the keys that it knows of. Where the row is cached nowhere
else, and the method reaches that point, what is cached afterwards is current, also when it
throws.
-/

namespace Stories
open Html Common Effects Caching
open Social (Optional)

section Calls
variable (ids : UuidText) (texts : JsonTexts)

/-- The story that a text names is cached only where it is dropped. -/
def World.Covered (world : World) (id : Units) (dropped : Story → Units → Prop) : Prop :=
  ∀ text story, world.Cached ids texts text story → ids.parse id = some story.id →
    dropped story text

/-- Before an operation has written anything. -/
structure Ready (id : Units) (dropped : Story → Units → Prop) (db : Database) (world : World) :
    Prop where
  sound : Sound ids texts (fun _ => False) world
  same : world.database = db
  covered : world.Covered ids texts id dropped

variable {ids texts} {ok : Choice → Prop} {id : Units} {dropped : Story → Units → Prop}
  {db : Database} {world : World} {gone : Units → Prop}

theorem Ready.exec {choice : Choice} {call : Call} (ready : Ready ids texts id dropped db world)
    (plain : ∀ command, call ≠ .cache command) (reads : call.writes = none)
    (same : (World.exec ids choice world call).2.database = world.database) :
    Ready ids texts id dropped db (World.exec ids choice world call).2 := by
  have leaves := ready.sound.tidy.wait (fun _ _ => False) choice.elapsed
  refine ⟨ready.sound.exec plain fun _ written => absurd written (by rw [reads]; nofun),
    same.trans ready.same, fun text story cached named => ?_⟩
  have later : Leaves IsStoryKey STORIES_CACHE_TAG (fun _ _ => False) (fun _ => False)
      world.store (World.exec ids choice world call).2.store := by
    rw [store_exec plain]
    exact leaves
  obtain ⟨old, -⟩ | ⟨-, never, -⟩ := cached_of_later later cached
  · exact ready.covered text story old named
  · exact never.elim

variable (ids world) in
theorem exec_storyById (choice : Choice) (id : Units) :
    (World.exec ids choice world (.sql (.storyById id))).2.database = world.database ∧
      ∀ found, (World.exec ids choice world (.sql (.storyById id))).1 = .ok found →
        ∃ key, ids.parse id = some key ∧ found = world.database.stories.find? key := by
  simp only [World.exec]
  split
  · exact ⟨rfl, fun found answered => by cases answered⟩
  · simp only [Database.perform]
    cases named : ids.parse id with
    | none => exact ⟨rfl, fun found answered => by cases answered⟩
    | some key =>
      refine ⟨rfl, ?_⟩
      rintro _ ⟨⟩
      exact ⟨key, rfl, rfl⟩

variable (ids world) in
theorem exec_storyBySlug (choice : Choice) (slug : Units) :
    (World.exec ids choice world (.sql (.storyBySlug slug))).2.database = world.database ∧
      ∀ found, (World.exec ids choice world (.sql (.storyBySlug slug))).1 = .ok found →
        found = world.database.stories.findBy? slug := by
  simp only [World.exec]
  split
  · exact ⟨rfl, fun found answered => by cases answered⟩
  · refine ⟨rfl, ?_⟩
    rintro _ ⟨⟩
    rfl

theorem wpE_findById (ready : Ready ids texts id dropped db world) (named : Units) :
    wpE (Program.execSpec (World.exec ids) ok) (StoriesRepository.findById named)
      (fun result after => Ready ids texts id dropped db after ∧ ∀ story,
        result = .ok (some story) → story ∈ db.stories.rows ∧ ids.parse named = some story.id)
      world := by
  rw [StoriesRepository.findById, wpE_tryCatch]
  intro choice _
  obtain ⟨same, answers⟩ := exec_storyById ids world choice named
  have after : Ready ids texts id dropped db
      (World.exec ids choice world (.sql (.storyById named))).2 :=
    ready.exec (fun _ => by simp) rfl same
  generalize World.exec ids choice world (.sql (.storyById named)) = ended at after answers
  obtain ⟨result, later⟩ := ended
  cases result with
  | ok found =>
    refine ⟨after, fun story returned => ?_⟩
    cases returned
    obtain ⟨key, parsed, stored⟩ := answers _ rfl
    rw [ready.same] at stored
    exact ⟨db.stories.mem_of_find? stored.symm, parsed.trans
      (congrArg some (db.stories.key_of_find? stored.symm).symm)⟩
  | error e =>
    change wpE _ (if e.code = some "22P02" then return none else throw e) _ later
    split
    · exact ⟨after, fun story returned => by cases returned⟩
    · exact ⟨after, fun story returned => by cases returned⟩

theorem wpE_existing (ready : Ready ids texts id dropped db world) (named : Units) :
    wpE (Program.execSpec (World.exec ids) ok) (StoriesService.existing named)
      (fun result after => Ready ids texts id dropped db after ∧ ∀ story, result = .ok story →
        story ∈ db.stories.rows ∧ ids.parse named = some story.id ∧ story.deletedAt = none)
      world := by
  refine wpE_seq (Program.execSpec_monotone _ _) (wpE_findById ready named) ?_ ?_
  · rintro e after ⟨still, -⟩
    exact ⟨still, fun story returned => by cases returned⟩
  · rintro found after ⟨still, known⟩
    cases found with
    | none => exact ⟨still, fun story returned => by cases returned⟩
    | some story =>
      simp only [wpE_ite]
      split
      · exact ⟨still, fun story returned => by cases returned⟩
      · rename_i alive
        refine ⟨still, fun story' returned => ?_⟩
        cases returned
        exact ⟨(known story rfl).1, (known story rfl).2, by simpa using alive⟩

/-- A statement that writes a row; one that is rejected writes nothing. -/
theorem wpE_write {statement : Statement} (sound : Sound ids texts (fun _ => False) world)
    (covered : ∀ id, (Call.sql statement).writes = some id → ∀ text story,
      world.Cached ids texts text story → ids.parse id = some story.id → gone text) :
    wpE (Program.execSpec (World.exec ids) ok) (query statement) (fun result after =>
      Sound ids texts gone after ∧
        ∀ e, result = .error e → Sound ids texts (fun _ => False) after) world := by
  intro choice _
  have some : Sound ids texts gone world := sound.weaken fun _ => False.elim
  refine ⟨some.exec (fun _ other => by cases other) covered, fun e rejected => ?_⟩
  have leaves : Leaves IsStoryKey STORIES_CACHE_TAG (fun _ _ => False) (fun _ => False) world.store
      (World.exec ids choice world (.sql statement)).2.store := by
    rw [store_exec fun _ other => by cases other]
    exact sound.tidy.wait (fun _ _ => False) choice.elapsed
  have same : (World.exec ids choice world (.sql statement)).2.database = world.database := by
    simp only [World.exec] at rejected ⊢
    split at rejected
    · rfl
    · split at rejected
      · rfl
      · cases rejected
  exact (sound.leaves same leaves fun _ _ _ never => never.elim).weaken fun _ left => left.1

/-- Calls that write no row of a story and leave the cache alone. -/
def Call.Plain (call : Call) : Prop := (∀ command, call ≠ .cache command) ∧ call.writes = none

theorem wpE_plain {α : Type} {p : Method α} (plain : OnlyE Call.Plain p)
    (sound : Sound ids texts gone world) :
    wpE (Program.execSpec (World.exec ids) ok) p (fun _ after => Sound ids texts gone after)
      world := by
  have keeps : ∀ choice world call, Call.Plain call → Sound ids texts gone world →
      Sound ids texts gone (World.exec ids choice world call).2 :=
    fun choice world call plain sound => sound.exec plain.1 fun id written => by
      rw [plain.2] at written
      cases written
  exact plain.only.wp_inv keeps sound

end Calls

section PlainParts
variable {α β : Type}

theorem plain_now : OnlyE Call.Plain now := ⟨⟨fun _ => (by simp), rfl⟩, fun _ => trivial⟩

theorem plain_emit (event : Event) : OnlyE Call.Plain (emit event) :=
  ⟨⟨fun _ => (by simp), rfl⟩, fun _ => trivial⟩

theorem plain_query {statement : Statement} (reads : (Call.sql statement).writes = none) :
    OnlyE Call.Plain (query statement) := ⟨⟨fun _ => (by simp), reads⟩, fun _ => trivial⟩

theorem plain_ite {c : Prop} [Decidable c] {p q : Method α} (first : OnlyE Call.Plain p)
    (second : OnlyE Call.Plain q) : OnlyE Call.Plain (if c then p else q) := by
  split
  · exact first
  · exact second

theorem plain_replaceGivenTags (storyId : Units) (tags : Optional (List Units)) :
    OnlyE Call.Plain (StoriesService.replaceGivenTags storyId tags) := by
  cases tags with
  | undefined => exact onlyE_pure ()
  | null => exact onlyE_throw _
  | value names =>
    refine plain_ite (plain_query rfl) ((plain_query rfl).bind fun resolved => ?_)
    exact plain_ite (onlyE_throw _) (plain_query rfl)

theorem plain_insertFirstFree (values : Units → NewStory) (exhausted : Exception)
    (candidates : List Units) :
    OnlyE Call.Plain (StoriesService.insertFirstFree values exhausted candidates) := by
  induction candidates with
  | nil => exact onlyE_throw _
  | cons candidate rest ih =>
    have probe : OnlyE Call.Plain (StoriesService.slugIsTaken candidate) :=
      (plain_query rfl).bind fun _ => onlyE_pure _
    refine probe.bind fun taken => plain_ite ih ?_
    exact (plain_query rfl).tryCatch fun e => plain_ite ih (onlyE_throw e)

theorem plain_insertWithResolvedSlug (unicode : Unicode) (authorId : String)
    (data : CreateStoryInput) :
    OnlyE Call.Plain (StoriesService.insertWithResolvedSlug unicode authorId data) := by
  rw [StoriesService.insertWithResolvedSlug]
  cases data.slug with
  | undefined =>
    have derived : OnlyE Call.Plain (liftM (deriveStorySlug unicode data.title) : Method Units) :=
      ⟨trivial⟩
    exact derived.bind fun base => plain_insertFirstFree _ _ _
  | null => exact onlyE_throw _
  | value requested =>
    have probe : OnlyE Call.Plain (StoriesService.slugIsTaken (trim requested)) :=
      (plain_query rfl).bind fun _ => onlyE_pure _
    have inserts : OnlyE Call.Plain
        (tryCatch (StoriesRepository.create (data.values authorId (trim requested))) fun error =>
          if error.isUniqueViolation then throw slugConflict else throw error) :=
      (plain_query rfl).tryCatch fun e => plain_ite (onlyE_throw _) (onlyE_throw _)
    have probed := probe.bind fun taken : Bool =>
      plain_ite (c := taken = true) ((onlyE_throw slugConflict).bind fun _ : Unit => inserts) inserts
    exact plain_ite ((onlyE_throw _).bind fun _ => probed) probed

theorem plain_create (ids : UuidText) (unicode : Unicode) (authorId : String)
    (input : CreateStoryInput) :
    OnlyE Call.Plain (StoriesService.create ids unicode authorId input) :=
  (plain_insertWithResolvedSlug unicode authorId _).bind fun story =>
    (plain_replaceGivenTags _ _).bind fun _ => (plain_emit _).bind fun _ => onlyE_pure story

end PlainParts

section Writers
variable {ids : UuidText} {texts : JsonTexts} {ok : Choice → Prop} {world : World}

theorem exec_performed {choice : Choice} {statement : Statement} {answer : statement.Answer}
    {db : Database} (calm : choice.refuses (.sql statement) = none)
    (performed : world.database.perform ids (world.clock + choice.elapsed) statement =
      .ok (answer, db)) :
    World.exec ids choice world (.sql statement) =
      (.ok answer, { world with clock := world.clock + choice.elapsed, database := db }) := by
  simp only [World.exec, calm, performed]

/-- Tags that are taken are replaced. -/
theorem wpE_tagsTaken {id : Units} {key : Nat} (named : ids.parse id = some key)
    {given : Optional (List Units)} (possible : ∃ choice, ok choice)
    (taken : ∀ choice, ok choice → TagsTaken choice world.database.tags id given) :
    wpE (Program.execSpec (World.exec ids) ok) (StoriesService.replaceGivenTags id given)
      (fun result _ => result = .ok ()) world := by
  cases given with
  | undefined => rfl
  | null => exact possible.elim fun choice chosen => (taken choice chosen).elim
  | value names =>
    change wpE _ (StoriesRepository.replaceTags id (some names)) _ _
    rw [StoriesRepository.replaceTags]
    by_cases empty : names.length = 0
    · rw [if_pos empty]
      intro choice chosen
      have calm := taken choice chosen
      rw [TagsTaken, if_pos empty] at calm
      have performed : world.database.perform ids (world.clock + choice.elapsed) (.deleteTags id) =
          .ok ((), { world.database with
            storyTags := world.database.storyTags.filter fun pair => pair.1 ≠ key }) := by
        simp only [Database.perform, named]
      rw [exec_performed calm performed]
      rfl
    · rw [if_neg empty]
      simp only [TagsTaken, if_neg empty] at taken
      have resolves : wpE (Program.execSpec (World.exec ids) ok) (query (.tagsByName names))
          (fun result after => result = .ok (world.database.tags.filter fun tag =>
            tag.name ∈ names) ∧ after.database = world.database) world := by
        intro choice chosen
        have performed : world.database.perform ids (world.clock + choice.elapsed)
            (.tagsByName names) = .ok (world.database.tags.filter fun tag => tag.name ∈ names,
              world.database) := rfl
        rw [exec_performed (taken choice chosen).1 performed]
        exact ⟨rfl, rfl⟩
      refine wpE_seq (Program.execSpec_monotone _ _) resolves
        (fun e _ rejected => by cases rejected.1) ?_
      rintro _ after ⟨⟨⟩, same⟩
      obtain ⟨choice, chosen⟩ := possible
      rw [if_neg fun some => missing_iff.mp some (taken choice chosen).2.1]
      intro choice chosen
      obtain ⟨-, -, apart, calm⟩ := taken choice chosen
      have performed : after.database.perform ids (after.clock + choice.elapsed)
          (.replaceTags id (names.filterMap (StoriesRepository.byName world.database.tags))) =
          .ok ((), { after.database with
            storyTags := (after.database.storyTags.filter fun pair => pair.1 ≠ key) ++
              (names.filterMap (StoriesRepository.byName world.database.tags)).map
                fun tagId => (key, tagId) }) := by
        simp only [Database.perform, named, apart, if_true]
      rw [filterMap_byName_resolved, exec_performed calm performed]
      rfl

theorem tags_of_update {db db' : Database} {id : Nat} {changes : Changes} {now : Int}
    {written : Option Story} (updated : db.update id changes now = .ok (written, db')) :
    db'.tags = db.tags := by
  rw [Database.update] at updated
  split at updated
  · cases updated
    rfl
  · split at updated
    · cases updated
    · simp only [Database.rewrite] at updated
      split at updated <;> cases updated
      rfl

theorem tags_of_exec (choice : Choice) (id : Units) (changes : Changes) :
    (World.exec ids choice world (.sql (.updateStory id changes))).2.database.tags =
      world.database.tags := by
  simp only [World.exec]
  split
  · rfl
  · split
    · rfl
    · rename_i performed
      simp only [Database.perform] at performed
      split at performed
      · cases performed
      · exact tags_of_update performed

/-- The row that is cached is the one an operation found. -/
theorem Ready.dropped {id : Units} {db : Database} {story : Story}
    (ready : Ready ids texts id (fun story => Dropped id story.slug) db world)
    (member : story ∈ db.stories.rows) (named : ids.parse id = some story.id) (text : Units)
    (other : Story) (cached : world.Cached ids texts text other)
    (same : ids.parse id = some other.id) : Dropped id story.slug text := by
  have current := (ready.sound.current text other cached fun never => never).member
  rw [ready.same] at current
  have equal : other = story := List.inj_on_of_nodup_map db.stories.unique current member
    (Option.some.inj (same.symm.trans named))
  rw [← equal]
  exact ready.covered text other cached same

variable (available : ∀ c, ok c → c.Available)
include available

/-- What is left to do once the row is written. -/
theorem wpE_dropping {β : Type} {id slug : Units} {rest : Method β} (plain : OnlyE Call.Plain rest)
    (sound : Sound ids texts (Dropped id slug) world) :
    wpE (Program.execSpec (World.exec ids) ok)
      (StoriesService.invalidateStoryCache id slug >>= fun _ => rest)
      (fun _ after => Sound ids texts (fun _ => False) after) world := by
  refine wpE_seq (Program.execSpec_monotone _ _) (wpE_invalidateStoryCache available sound)
    (fun e _ thrown => by cases thrown.1) ?_
  rintro _ after ⟨-, fresh⟩
  exact wpE_plain plain fresh

/-- A statement that writes the row an operation found, and what is left to do. -/
theorem wpE_writing {β : Type} {id : Units} {db : Database} {story : Story}
    {statement : Statement} {rest : statement.Answer → Method β}
    (plain : ∀ answer, OnlyE Call.Plain (rest answer))
    (writes : (Call.sql statement).writes = some id)
    (ready : Ready ids texts id (fun story => Dropped id story.slug) db world)
    (member : story ∈ db.stories.rows) (named : ids.parse id = some story.id) :
    wpE (Program.execSpec (World.exec ids) ok) (query statement >>= fun answer =>
      StoriesService.invalidateStoryCache id story.slug >>= fun _ => rest answer)
      (fun _ after => Sound ids texts (fun _ => False) after) world := by
  have written : wpE (Program.execSpec (World.exec ids) ok) (query statement)
      (fun result after => Sound ids texts (Dropped id story.slug) after ∧
        ∀ e, result = .error e → Sound ids texts (fun _ => False) after) world :=
    wpE_write ready.sound fun id' same => by
      cases writes.symm.trans same
      exact ready.dropped member named
  refine wpE_seq (Program.execSpec_monotone _ _) written (fun e after ends => ends.2 e rfl) ?_
  rintro answer after ⟨sound, -⟩
  exact wpE_dropping available (plain answer) sound

end Writers

section Methods
variable {ids : UuidText} {texts : JsonTexts} {ok : Choice → Prop} {world : World}

theorem plain_snapshot (written : Option Story) :
    OnlyE Call.Plain (StoriesService.snapshot written) := by
  cases written with
  | none => exact onlyE_throw _
  | some story => exact onlyE_pure _

theorem plain_returned (written : Option Story) :
    OnlyE Call.Plain (StoriesService.returned written) := by
  cases written with
  | none => exact onlyE_throw _
  | some story => exact onlyE_pure _

/-- The event of a written row, and the answer. -/
theorem plain_announce (event : StorySnapshot → Event) (written : Option Story) :
    OnlyE Call.Plain (do
      emit (event (← StoriesService.snapshot written))
      StoriesService.returned written) :=
  (plain_snapshot written).bind fun story => (plain_emit (event story)).bind fun _ =>
    plain_returned written

/-- What an operation does with the story it finds. -/
theorem wpE_found {β : Type} {id : Units} {dropped : Story → Units → Prop}
    {f : Story → Method β} (fresh : Sound ids texts (fun _ => False) world)
    (covered : world.Covered ids texts id dropped)
    (goes : ∀ story after, Ready ids texts id dropped world.database after →
      story ∈ world.database.stories.rows → ids.parse id = some story.id →
      wpE (Program.execSpec (World.exec ids) ok) (f story)
        (fun _ after => Sound ids texts (fun _ => False) after) after) :
    wpE (Program.execSpec (World.exec ids) ok) (StoriesService.existing id >>= f)
      (fun _ after => Sound ids texts (fun _ => False) after) world := by
  have ready : Ready ids texts id dropped world.database world := ⟨fresh, rfl, covered⟩
  refine wpE_seq (Program.execSpec_monotone _ _) (wpE_existing ready id)
    (fun e after ends => ends.1.sound) ?_
  rintro story after ⟨still, known⟩
  exact goes story after still (known story rfl).1 (known story rfl).2.1

theorem assertStoryIsReadableBy_cases (story : Story) (viewer : Option StoryViewer) :
    assertStoryIsReadableBy story viewer = pure () ∨
      assertStoryIsReadableBy story viewer = throw storyNotFound := by
  rw [assertStoryIsReadableBy]
  split
  · exact Or.inl rfl
  · split
    · exact Or.inl rfl
    · exact Or.inr rfl

variable (available : ∀ c, ok c → c.Available) {id : Units}
  (fresh : Sound ids texts (fun _ => False) world)
  (covered : world.Covered ids texts id fun story => Dropped id story.slug)
include available fresh covered

theorem wpE_publish (userId : String) :
    wpE (Program.execSpec (World.exec ids) ok) (StoriesService.publish id userId)
      (fun _ after => Sound ids texts (fun _ => False) after) world := by
  refine wpE_found fresh covered fun story after ready member named => ?_
  simp only [wpE_ite]
  split
  · exact ready.sound
  split
  · exact ready.sound
  split
  · exact ready.sound
  intro choice _
  have later : Ready ids texts id _ _ (World.exec ids choice after .now).2 :=
    ready.exec (fun _ => by simp) rfl rfl
  exact wpE_writing available (fun written => plain_announce _ written) rfl later member named

theorem wpE_archive (userId : String) :
    wpE (Program.execSpec (World.exec ids) ok) (StoriesService.archive id userId)
      (fun _ after => Sound ids texts (fun _ => False) after) world := by
  refine wpE_found fresh covered fun story after ready member named => ?_
  simp only [wpE_ite]
  split
  · exact ready.sound
  split
  · exact ready.sound
  exact wpE_writing available (fun written => plain_announce _ written) rfl ready member named

theorem wpE_delete (userId : String) :
    wpE (Program.execSpec (World.exec ids) ok) (StoriesService.delete id userId)
      (fun _ after => Sound ids texts (fun _ => False) after) world := by
  refine wpE_found fresh covered fun story after ready member named => ?_
  simp only [wpE_ite]
  split
  · exact ready.sound
  exact wpE_writing available (fun _ => plain_emit _) rfl ready member named

theorem wpE_incrementViewCount (viewer : StoryViewer) :
    wpE (Program.execSpec (World.exec ids) ok) (StoriesService.incrementViewCount id viewer)
      (fun _ after => Sound ids texts (fun _ => False) after) world := by
  refine wpE_found fresh covered fun story after ready member named => ?_
  rcases assertStoryIsReadableBy_cases story (some viewer) with readable | hidden
  · have counted : wpE (Program.execSpec (World.exec ids) ok) (query (.count id .view))
        (fun result after => Sound ids texts (Dropped id story.slug) after ∧
          ∀ e, result = .error e → Sound ids texts (fun _ => False) after) after :=
      wpE_write ready.sound fun id' same => by
        cases same
        exact ready.dropped member named
    rw [readable]
    change wpE _ (query (.count id .view) >>= fun _ =>
      StoriesService.invalidateCachedStoryKeys id story.slug) _ after
    refine wpE_seq (Program.execSpec_monotone _ _) counted (fun e after ends => ends.2 e rfl) ?_
    rintro _ after ⟨sound, -⟩
    exact wpE_mono (Program.execSpec_monotone _ _) (fun _ _ ends => ends.2)
      (wpE_invalidateCachedStoryKeys available sound)
  · rw [hidden]
    exact ready.sound

end Methods

section Update
variable {ids : UuidText} {texts : JsonTexts} {ok : Choice → Prop} {world : World} {id : Units}
  {input : UpdateStoryInput}

/-- The checks of an update. -/
theorem wpE_update_of {dropped : Story → Units → Prop}
    (fresh : Sound ids texts (fun _ => False) world)
    (covered : world.Covered ids texts id dropped)
    (writes : ∀ story after, Ready ids texts id dropped world.database after →
      story ∈ world.database.stories.rows → ids.parse id = some story.id →
      wpE (Program.execSpec (World.exec ids) ok) (StoriesService.writeUpdate id input story)
        (fun _ after => Sound ids texts (fun _ => False) after) after) (userId : String) :
    wpE (Program.execSpec (World.exec ids) ok) (StoriesService.update id input userId)
      (fun _ after => Sound ids texts (fun _ => False) after) world := by
  rw [StoriesService.update_eq]
  refine wpE_found fresh covered fun story after ready member named => ?_
  simp only [wpE_ite]
  split
  · exact ready.sound
  cases input.slug with
  | undefined => exact writes story after ready member named
  | null => exact writes story after ready member named
  | value slug =>
    simp only [wpE_ite]
    split
    · intro choice _
      have later : Ready ids texts id dropped world.database
          (World.exec ids choice after (.sql (.storyBySlug slug))).2 :=
        ready.exec (fun _ => by simp) rfl (exec_storyBySlug ids after choice slug).1
      generalize World.exec ids choice after (.sql (.storyBySlug slug)) = ended at later
      obtain ⟨result, between⟩ := ended
      cases result with
      | error e => exact later.sound
      | ok found =>
        cases found with
        | some other => exact later.sound
        | none => exact writes story between later member named
    · exact writes story after ready member named

theorem plain_updated (written : Option Story) :
    OnlyE Call.Plain (do
      emit (.updated id input.updates (← StoriesService.snapshot written))
      StoriesService.returned written) := plain_announce _ written

variable (available : ∀ c, ok c → c.Available) {db : Database} {story : Story}
include available

/-- The tags are taken. -/
theorem wpE_writeUpdate_taken (possible : ∃ choice, ok choice)
    (ready : Ready ids texts id (fun story => Dropped id story.slug) db world)
    (member : story ∈ db.stories.rows) (named : ids.parse id = some story.id)
    (taken : ∀ choice, ok choice → TagsTaken choice db.tags id input.tags) :
    wpE (Program.execSpec (World.exec ids) ok) (StoriesService.writeUpdate id input story)
      (fun _ after => Sound ids texts (fun _ => False) after) world := by
  have written : wpE (Program.execSpec (World.exec ids) ok)
      (query (.updateStory id input.updates.toChanges)) (fun result after =>
        (Sound ids texts (Dropped id story.slug) after ∧
          ∀ e, result = .error e → Sound ids texts (fun _ => False) after) ∧
        after.database.tags = world.database.tags) world := by
    refine Program.wp_and (wpE_write ready.sound fun id' same => ?_)
      fun choice _ => tags_of_exec choice id _
    cases same
    exact ready.dropped member named
  refine wpE_seq (Program.execSpec_monotone _ _) written (fun e after ends => ends.1.2 e rfl) ?_
  rintro written after ⟨⟨sound, -⟩, tags⟩
  have replaced : wpE (Program.execSpec (World.exec ids) ok)
      (StoriesService.replaceGivenTags id input.tags) (fun result after =>
        Sound ids texts (Dropped id story.slug) after ∧ result = .ok ()) after := by
    refine Program.wp_and (wpE_plain (plain_replaceGivenTags id input.tags) sound)
      (wpE_tagsTaken named possible fun choice chosen => ?_)
    rw [tags, ready.same]
    exact taken choice chosen
  refine wpE_seq (Program.execSpec_monotone _ _) replaced (fun e _ ends => by cases ends.2) ?_
  rintro _ after ⟨sound, -⟩
  exact wpE_dropping available (plain_updated written) sound

/-- The story is not cached. -/
theorem wpE_writeUpdate_uncached
    (ready : Ready ids texts id (fun _ _ => False) db world) :
    wpE (Program.execSpec (World.exec ids) ok) (StoriesService.writeUpdate id input story)
      (fun _ after => Sound ids texts (fun _ => False) after) world := by
  have written : wpE (Program.execSpec (World.exec ids) ok)
      (query (.updateStory id input.updates.toChanges)) (fun result after =>
        Sound ids texts (fun _ => False) after ∧
          ∀ e, result = .error e → Sound ids texts (fun _ => False) after) world :=
    wpE_write ready.sound fun id' same => by
      cases same
      exact ready.covered
  refine wpE_seq (Program.execSpec_monotone _ _) written (fun e after ends => ends.1) ?_
  rintro written after ⟨fresh, -⟩
  refine wpE_seq (Program.execSpec_monotone _ _)
    (wpE_plain (plain_replaceGivenTags id input.tags) fresh) (fun _ _ fresh => fresh) ?_
  intro _ after fresh
  exact wpE_dropping available (plain_updated written) (fresh.weaken fun _ => False.elim)

end Update

section Reads
variable {ids : UuidText} {texts : JsonTexts} {ok : Choice → Prop} {world : World}
  (available : ∀ c, ok c → c.Available)
include available

/-- A hit returns what is current, a miss what is loaded. -/
theorem wpE_getOrSet {P : Except Exception Story → Prop} {key : Units} {load : Method Story}
    (fresh : Sound ids texts (fun _ => False) world)
    (hits : ∀ story, Current ids world.database key story → P (.ok story))
    (loads : ∀ between, Sound ids texts (fun _ => False) between →
      between.database = world.database →
      wpE (Program.execSpec (World.exec ids) ok) load (fun result after =>
        Sound ids texts (fun _ => False) after ∧ after.database = world.database ∧ P result ∧
          ∀ story, result = .ok story → Current ids world.database key story) between) :
    wpE (Program.execSpec (World.exec ids) ok)
      (StoriesService.getOrSet (storyJson texts ids) key load)
      (fun result after => Sound ids texts (fun _ => False) after ∧ P result) world := by
  have looks := wpE_get STORY_CACHE_NAMESPACE key (storyJson texts ids).revive isStoryKey_apart
    fresh.tidy ⟨key, rfl⟩
  refine wpE_seq (Program.execSpec_monotone _ _) (wpE_cache available looks) ?_ ?_
  · rintro e after ⟨_, state, thrown, ⟨-, found, rfl, -⟩, -⟩
    cases thrown
  rintro found _ ⟨_, state, returned, ⟨leaves, _, rfl, revived⟩, rfl⟩
  cases returned
  have looked := fresh.still leaves
  cases found with
  | some story =>
    obtain ⟨e, text, live, holds, reads⟩ := revived story rfl
    exact ⟨looked, hits story (fresh.current key story ⟨e, text, live, holds, reads⟩
      fun never => never)⟩
  | none =>
    have snapshot := wpE_readTagGenerationSnapshot [STORIES_CACHE_TAG] isStoryKey_apart looked.tidy
      (D := Story)
    refine wpE_seq (Program.execSpec_monotone _ _) (wpE_cache available snapshot) ?_ ?_
    · rintro e after ⟨_, state, thrown, ⟨-, generations, rfl⟩, -⟩
      cases thrown
    rintro generations _ ⟨_, state', returned, ⟨leaves', _, rfl⟩, rfl⟩
    refine wpE_seq (Program.execSpec_monotone _ _) (loads _ (looked.still leaves') rfl)
      (fun e after ends => ⟨ends.1, ends.2.2.1⟩) ?_
    rintro loaded after ⟨sound, same, holds, current⟩
    have stores := wpE_set STORY_CACHE_NAMESPACE key ((storyJson texts ids).stringify loaded)
      (by decide : 0 < STORY_CACHE_TTL_SECONDS) [STORIES_CACHE_TAG] generations isStoryKey_apart
      sound.tidy ⟨key, rfl⟩ (D := Story)
    refine wpE_seq (Program.execSpec_monotone _ _) (wpE_cache available stores) ?_ ?_
    · rintro e last ⟨_, state, thrown, ⟨-, _, rfl⟩, -⟩
      cases thrown
    rintro _ _ ⟨_, state'', -, ⟨leaves'', _, rfl⟩, rfl⟩
    have stored : Sound ids texts (fun _ => False)
        { after with clock := state''.clock, cache := state''.store } := by
      refine sound.stored rfl leaves'' fun text content story put revives => ?_
      obtain ⟨here, rfl⟩ := put
      cases storyKey_injective here
      rw [parseJson_stringify] at revives
      cases reviveStoryDates_stringify revives
      rw [same]
      exact current loaded rfl
    exact ⟨stored, holds⟩

end Reads

end Stories
