import Hakawi.Stories.FreshReads

/-!
# What the operations on stories have left to do

An operation that writes a row owes the cache the keys that it drops afterwards: the id as it was
spelled and, where it has found one, the slug. A read fills one key, with the row that it has
loaded, if the generation is still the one it has seen.
-/

namespace Stories
open Html Common Effects Caching

/-- How far a read is. -/
inductive Filling where
  | start
  /-- The key has been looked up. -/
  | missed
  /-- The generation has been read, unless that failed. -/
  | loading (generation : Option Text)
  /-- The row has been loaded. -/
  | checking (generation : Text) (row : Story)
  /-- Nothing is to be checked any more. -/
  | storing (row : Story)
  | finished

/-- The row that a read holds. -/
def Filling.held : Filling → Option Story
  | .checking _ row | .storing row => some row
  | _ => none

inductive Errand where
  | read (text : Units) (filling : Filling)
  /-- The slug that was found, what is still to be dropped, the text whose key has been deleted and
  whose generation is to be raised, and how far the sweep of the searches is: its index has been
  read, and these keys are to be deleted, or it has been deleted itself. -/
  | change (slug : Option Units) (owed : List Units) (raising : Option Units)
      (sweep : Option (Option (List Units)))

/-- The texts that are dropped after a write. -/
def dropped (id : Units) : Option Units → List Units
  | none => [id]
  | some slug => if slug.length > 0 then [id, units "slug:" ++ slug] else [id]

def Operation.start : Operation → Errand
  | findById id _ => .read id .start
  | findBySlug slug _ => .read (units "slug:" ++ slug) .start
  | _ => .change none [] none none

namespace Errand

def owed : Errand → List Units
  | change _ owed _ _ => owed
  | _ => []

def raising : Errand → Option Units
  | change _ _ raising _ => raising
  | _ => none

def held : Errand → Option Story
  | read _ filling => filling.held
  | _ => none

/-- Nothing is left to do in the cache. -/
def Settled (g : Errand) : Prop := g.owed = [] ∧ g.raising = none

/-- The rest of a read that has loaded a row. -/
def holding (row : Story) : Option Text → Filling
  | some generation => .checking generation row
  | none => .storing row

/-- A row that is found. -/
def found (g : Errand) (row : Story) : Errand :=
  match g with
  | read text (.loading generation) =>
    read text (if row.deletedAt.isSome then .finished else holding row generation)
  | change _ owed raising sweep => change (some row.slug) owed raising sweep
  | g => g

/-- A row that is written. -/
def wrote (g : Errand) (id : Units) : Errand :=
  match g with
  | change slug [] none none => change slug (dropped id slug) none none
  | g => g

def told (g : Errand) : (statement : Statement) → statement.Answer → Errand
  | .storyById _, some row => g.found row
  | .storyBySlug _, some row => match g with
    | read text filling => (read text filling).found row
    | g => g
  | .updateStory id _, _ => g.wrote id
  | .softDelete id, _ => g.wrote id
  | .count id _, _ => g.wrote id
  | _, _ => g

def answered : Errand → (command : Command Units) → command.Answer → Errand
  | read text .start, .get _, _ => read text .missed
  | read text .missed, .get _, generation =>
    read text (.loading (some (Option.getD generation INITIAL_TAG_GENERATION)))
  | read text (.checking before row), .get _, generation =>
    if before != Option.getD generation INITIAL_TAG_GENERATION then read text .finished
    else read text (.storing row)
  | read text (.storing _), .set _ _ _, _ => read text .finished
  | change slug owed raising none, .smembers _, keys => change slug owed raising (some (some keys))
  | change slug owed raising (some (some (_ :: keys))), .del _, _ =>
    change slug owed raising (some (some keys))
  | change slug owed raising (some (some [])), .del _, _ => change slug owed raising (some none)
  | change slug owed raising (some none), .incr _, _ => change slug owed raising none
  | change slug (text :: owed) none none, .del _, _ => change slug owed (some text) none
  | change slug owed (some _) none, .incr _, _ => change slug owed none none
  | g, _, _ => g

/-- After a command that failed. A sweep that fails is given up, and so is a read. -/
def failed : Errand → Command Units → Errand
  | read text .missed, .get _ => read text (.loading none)
  | read text _, _ => read text .finished
  | change slug owed raising _, _ => change slug owed raising none

def next (g : Errand) : (call : Call) → call.Result → Errand
  | .sql statement, .ok answer => g.told statement answer
  | .cache command, .ok answer => g.answered command answer
  | .cache command, .error _ => g.failed command
  | _, _ => g

end Errand

variable (ids : UuidText) (texts : JsonTexts)

/-- What may be called next. -/
inductive Allowed : Errand → Call → Prop where
  | now (g : Errand) : Allowed g .now
  | emit (g : Errand) (event : Event) : Allowed g (.emit event)
  | ask {slug owed raising sweep} {statement : Statement}
      (reads : (Call.sql statement).writes = none) :
      Allowed (.change slug owed raising sweep) (.sql statement)
  | write {slug} {statement : Statement} {id : Units}
      (writes : (Call.sql statement).writes = some id) :
      Allowed (.change slug [] none none) (.sql statement)
  | readIndex (slug owed raising tag) :
      Allowed (.change slug owed raising none) (.cache (.smembers (tagIndexKey tag)))
  | delete (slug owed raising key keys) :
      Allowed (.change slug owed raising (some (some (key :: keys)))) (.cache (.del key))
  | deleteIndex (slug owed raising tag) :
      Allowed (.change slug owed raising (some (some []))) (.cache (.del (tagIndexKey tag)))
  | bump (slug owed raising tag) :
      Allowed (.change slug owed raising (some none)) (.cache (.incr (tagGenerationKey tag)))
  | drop (slug text owed) :
      Allowed (.change slug (text :: owed) none none) (.cache (.del (storyKey text)))
  | unlist (slug owed text) : Allowed (.change slug owed (some text) none)
      (.cache (.srem (tagIndexKey STORIES_CACHE_TAG) (storyKey text)))
  | raise (slug owed text) : Allowed (.change slug owed (some text) none)
      (.cache (.incr (tagGenerationKey STORIES_CACHE_TAG)))
  | lookUp (text) : Allowed (.read text .start) (.cache (.get (storyKey text)))
  | dropCorrupt (text) : Allowed (.read text .missed) (.cache (.del (storyKey text)))
  | snapshot (text) :
      Allowed (.read text .missed) (.cache (.get (tagGenerationKey STORIES_CACHE_TAG)))
  | loadById (text generation id) : Allowed (.read text (.loading generation)) (.sql (.storyById id))
  | loadBySlug (text generation slug) :
      Allowed (.read text (.loading generation)) (.sql (.storyBySlug slug))
  | compare (text generation row) : Allowed (.read text (.checking generation row))
      (.cache (.get (tagGenerationKey STORIES_CACHE_TAG)))
  | store (text row) : Allowed (.read text (.storing row)) (.cache (.set (storyKey text)
      (stringify (row.stringify texts ids)) (some STORY_CACHE_TTL_SECONDS)))
  | list (text) : Allowed (.read text .finished)
      (.cache (.sadd (tagIndexKey STORIES_CACHE_TAG) (storyKey text)))
  | extend (text) : Allowed (.read text .finished)
      (.cache (.expire (tagIndexKey STORIES_CACHE_TAG) TAG_INDEX_TTL_SECONDS))

def errands : Protocol Call Call.Result Errand := ⟨Allowed ids texts, Errand.next⟩

/-- The calls of the cache service among the calls of an operation. -/
def onCache {X : Type} (spec : Program.OpSpec Call Call.Result X) :
    Program.OpSpec (CacheCall Story) CacheResult X
  | .valkey command, Q, x => spec (.cache command) Q x
  | .readDatabase, Q, x => Q (.error queryFailed) x
  | .changeDatabase _, Q, x => Q (.error queryFailed) x

section Cache
variable {ids texts} {α : Type} {X : Type}

theorem onCache_monotone {spec : Program.OpSpec Call Call.Result X} (mono : spec.Monotone) :
    (onCache spec).Monotone := by
  intro op Q Q' x weaker holds
  cases op with
  | valkey command => exact mono _ _ _ _ weaker holds
  | readDatabase => exact weaker _ _ holds
  | changeDatabase change => exact weaker _ _ holds

theorem wpE_cache_eq (spec : Program.OpSpec Call Call.Result X) (p : CacheCalls Story α)
    (Q : Except Exception α → X → Prop) (x : X) :
    wpE spec (cache p) Q x = wpE (onCache spec) p (fun result y => Q (result.mapError .store) y) x := by
  change (viaCache p.run).wp spec Q x = p.run.wp (onCache spec) _ x
  generalize p.run = program
  induction program generalizing x with
  | done result => rfl
  | call op next ih =>
    cases op with
    | valkey command =>
      have rest : (fun r => (viaCache (next r)).wp spec Q) =
          fun r => (next r).wp (onCache spec) fun result y => Q (result.mapError .store) y :=
        funext fun r => funext (ih r)
      exact congrArg (fun Q => spec (.cache command) Q x) rest
    | readDatabase => exact ih _ _
    | changeDatabase change => exact ih _ _

end Cache

section Parts
variable {ids texts} {α β : Type} {g : Errand} {text slug id : Units} {found : Option Units}
  {owed : List Units} {raising : Option Units} {sweep : Option (Option (List Units))}

local instance : Inhabited Errand := ⟨.change none [] none none⟩

/-- A command of the cache service, what it answers and what is left to do. -/
theorem wpE_sent {command : Command Units} {Q : Except Failure command.Answer → Errand → Prop}
    (allowed : Allowed ids texts g (.cache command)) (fails : ∀ e, Q (.error e) (g.failed command))
    (holds : ∀ answer, Q (.ok answer) (g.answered command answer)) :
    wpE (onCache (errands ids texts).spec) (send command) Q g := by
  refine ⟨allowed, fun result => ?_⟩
  cases result with
  | error e => exact fails e
  | ok answer => exact holds answer

/-- A sweep that is over, or that was given up, has left the rest to do. -/
theorem wpE_swept (tags : List Units) :
    wpE (onCache (errands ids texts).spec) (TaggedCacheService.invalidateTags tags)
      (fun result g' => result = .ok () ∧ g' = .change found owed raising none)
      (.change found owed raising none) := by
  have mono := onCache_monotone (errands ids texts).spec_monotone
  have deletes (keys : List Units) : wpE (onCache (errands ids texts).spec)
      (forM keys fun key => send (.del key)) (fun result g' =>
        (∀ e, result = .error e → g' = .change found owed raising none) ∧
        (result = .ok () → g' = .change found owed raising (some (some []))))
      (.change found owed raising (some (some keys))) := by
    induction keys with
    | nil => exact ⟨fun _ => nofun, fun _ => rfl⟩
    | cons key rest ih =>
      have deleted : wpE (onCache (errands ids texts).spec) (send (.del key)) (fun result g' =>
          (∀ e, result = .error e → g' = .change found owed raising none) ∧
          (result = .ok () → g' = .change found owed raising (some (some rest))))
          (.change found owed raising (some (some (key :: rest)))) :=
        wpE_sent (.delete ..) (fun _ => ⟨fun _ _ => rfl, nofun⟩) fun _ => ⟨nofun, fun _ => rfl⟩
      change wpE _ (send (.del key) >>= fun _ => forM rest fun key => send (.del key)) _ _
      refine wpE_seq mono deleted (fun e g' ends => ⟨fun _ _ => ends.1 e rfl, nofun⟩) ?_
      rintro ⟨⟩ g' ends
      rw [ends.2 rfl]
      exact ih
  have swept (tag : Units) : wpE (onCache (errands ids texts).spec)
      (tryCatch (sweepTag tag) fun _ => return ())
      (fun result g' => result = .ok () ∧ g' = .change found owed raising none)
      (.change found owed raising none) := by
    have does : wpE (onCache (errands ids texts).spec) (sweepTag tag)
        (fun _ g' => g' = .change found owed raising none) (.change found owed raising none) := by
      refine wpE_seq mono (P := fun result g' =>
        (∀ e, result = .error e → g' = .change found owed raising none) ∧
        ∀ keys, result = .ok keys → g' = .change found owed raising (some (some keys)))
        (wpE_sent (.readIndex ..) (fun _ => ⟨fun _ _ => rfl, fun _ => nofun⟩) fun keys =>
          ⟨fun _ => nofun, fun _ same => by cases same; rfl⟩) (fun e g' ends => ends.1 e rfl) ?_
      rintro keys g' ⟨-, ends⟩
      rw [ends keys rfl]
      refine wpE_seq mono (deletes keys) (fun e g' ends => ends.1 e rfl) ?_
      rintro ⟨⟩ g' ⟨-, ends⟩
      rw [ends rfl]
      refine wpE_seq mono (P := fun result g' =>
        (∀ e, result = .error e → g' = .change found owed raising none) ∧
        (result = .ok () → g' = .change found owed raising (some none)))
        (wpE_sent (.deleteIndex ..) (fun _ => ⟨fun _ _ => rfl, nofun⟩) fun _ =>
          ⟨fun _ => nofun, fun _ => rfl⟩) (fun e g' ends => ends.1 e rfl) ?_
      rintro ⟨⟩ g' ⟨-, ends⟩
      rw [ends rfl]
      exact ⟨.bump .., fun result => by cases result <;> rfl⟩
    rw [wpE_tryCatch]
    refine wpE_mono mono (fun result g' ends => ?_) does
    cases result with
    | ok u => exact ⟨rfl, ends⟩
    | error e => exact ⟨rfl, ends⟩
  induction tags with
  | nil => exact ⟨rfl, rfl⟩
  | cons tag rest ih =>
    change wpE _ (forM (tag :: rest) fun tag => tryCatch (sweepTag tag) fun _ => return ()) _ _
    rw [List.forM_cons]
    refine wpE_seq mono (swept tag) (fun e g' ends => nomatch ends.1) ?_
    rintro ⟨⟩ g' ⟨-, rfl⟩
    exact ih

theorem wpE_dropText : wpE (errands ids texts).spec
    (cache (TaggedCacheService.invalidateKey STORY_CACHE_NAMESPACE text [STORIES_CACHE_TAG]))
    (fun result g' => result = .ok () → g' = .change found owed none none)
    (.change found (text :: owed) none none) := by
  rw [wpE_cache_eq]
  refine ⟨.drop .., fun deleted => ?_⟩
  cases deleted with
  | error e => exact nofun
  | ok u =>
    refine ⟨.unlist .., fun removed => ?_⟩
    cases removed with
    | error e => exact nofun
    | ok u =>
      refine ⟨.raise .., fun raised => ?_⟩
      cases raised with
      | error e => exact nofun
      | ok n => exact fun _ => rfl

/-- An operation that drops the keys of a story is settled. -/
theorem wpE_dropTexts : wpE (errands ids texts).spec
    (StoriesService.invalidateCachedStoryKeys id slug)
    (fun result g' => result = .ok () → g' = .change found [] none none)
    (.change found (dropped id (some slug)) none none) := by
  rw [StoriesService.invalidateCachedStoryKeys, dropped]
  by_cases long : slug.length > 0
  · simp only [long, if_true]
    refine wpE_seq (errands ids texts).spec_monotone wpE_dropText (fun _ _ _ => nofun) ?_
    intro _ g' ends
    rw [ends rfl]
    exact wpE_dropText
  · simp only [long, if_false]
    refine wpE_seq (errands ids texts).spec_monotone wpE_dropText (fun _ _ _ => nofun) ?_
    intro _ g' ends
    exact fun _ => ends rfl

theorem wpE_dropStory : wpE (errands ids texts).spec (StoriesService.invalidateStoryCache id slug)
    (fun result g' => result = .ok () → g' = .change found [] none none)
    (.change found (dropped id (some slug)) none none) := by
  refine wpE_seq (errands ids texts).spec_monotone (P := fun result g' => result = .ok () ∧
    g' = .change found (dropped id (some slug)) none none) ?_ (fun _ _ ends => nomatch ends.1) ?_
  · rw [wpE_cache_eq]
    refine wpE_mono (onCache_monotone (errands ids texts).spec_monotone) ?_ (wpE_swept _)
    rintro _ g' ⟨rfl, ends⟩
    exact ⟨rfl, ends⟩
  · rintro _ g' ⟨-, rfl⟩
    exact wpE_dropTexts

variable (found owed raising sweep) in
/-- An operation that asks the database learns a slug at most. -/
theorem next_asked {statement : Statement} (reads : (Call.sql statement).writes = none)
    (answer : (Call.sql statement).Result) :
    ∃ found', (Errand.change found owed raising sweep).next (.sql statement) answer =
      .change found' owed raising sweep := by
  cases answer with
  | error e => exact ⟨_, rfl⟩
  | ok answer =>
    cases statement with
    | storyById id | storyBySlug slug => cases answer <;> exact ⟨_, rfl⟩
    | updateStory | softDelete | count => cases reads
    | insertStory | tagsByName | deleteTags | replaceTags => exact ⟨_, rfl⟩

/-- Calls that neither write a row nor touch the cache leave what is owed as it is. -/
theorem wpE_asking {p : Method α} (plain : OnlyE Call.Plain p) :
    wpE (errands ids texts).spec p (fun _ g' => ∃ found', g' = .change found' owed raising sweep)
      (.change found owed raising sweep) := by
  obtain ⟨only⟩ := plain
  rw [wpE]
  generalize p.run = program at only
  induction program generalizing found with
  | done result => exact ⟨found, rfl⟩
  | call op next ih =>
    obtain ⟨⟨command, reads⟩, rest⟩ := only
    cases op with
    | now => exact ⟨.now _, fun time => ih time (rest time)⟩
    | emit event => exact ⟨.emit _ event, fun sent => ih sent (rest sent)⟩
    | cache command' => exact absurd rfl (command command')
    | sql statement =>
      refine ⟨.ask reads, fun answer => ?_⟩
      obtain ⟨found', same⟩ := next_asked found owed raising sweep reads answer
      change (next answer).wp _ _ ((Errand.change found owed raising sweep).next _ answer)
      rw [same]
      exact ih answer (rest answer)

theorem wpE_findByIdFound : wpE (errands ids texts).spec (StoriesRepository.findById id)
    (fun result g' => (∃ found', g' = .change found' owed raising sweep) ∧
      ∀ story, result = .ok (some story) → g' = .change (some story.slug) owed raising sweep)
    (.change found owed raising sweep) := by
  rw [StoriesRepository.findById, wpE_tryCatch]
  refine ⟨.ask rfl, fun answer => ?_⟩
  cases answer with
  | error e =>
    change wpE _ (if e.code = some "22P02" then return none else throw e) _ _
    split
    · exact ⟨⟨found, rfl⟩, fun story returned => by cases returned⟩
    · exact ⟨⟨found, rfl⟩, fun story returned => by cases returned⟩
  | ok row =>
    cases row with
    | none => exact ⟨⟨found, rfl⟩, fun story returned => by cases returned⟩
    | some story =>
      refine ⟨⟨_, rfl⟩, ?_⟩
      rintro _ ⟨⟩
      rfl

/-- The story an operation finds, with its slug. -/
theorem wpE_existingFound : wpE (errands ids texts).spec (StoriesService.existing id)
    (fun result g' => (∃ found', g' = .change found' owed raising sweep) ∧
      ∀ story, result = .ok story → g' = .change (some story.slug) owed raising sweep)
    (.change found owed raising sweep) := by
  refine wpE_seq (errands ids texts).spec_monotone wpE_findByIdFound
    (fun e g' ends => ⟨ends.1, fun story returned => by cases returned⟩) ?_
  rintro row g' ⟨still, known⟩
  cases row with
  | none => exact ⟨still, fun story returned => by cases returned⟩
  | some story =>
    simp only [wpE_ite]
    split
    · exact ⟨still, fun story returned => by cases returned⟩
    · refine ⟨still, ?_⟩
      rintro _ ⟨⟩
      exact known story rfl

/-- A statement that writes a row, and the keys that are dropped for it. -/
theorem wpE_wroteStory {statement : Statement} (writes : (Call.sql statement).writes = some id)
    {rest : statement.Answer → Method β} {Q : Except Exception β → Errand → Prop}
    (fails : ∀ e, Q (.error e) (.change found [] none none))
    (goes : ∀ answer, wpE (errands ids texts).spec (rest answer) Q
      (.change found (dropped id found) none none)) :
    wpE (errands ids texts).spec (query statement >>= rest) Q (.change found [] none none) := by
  refine ⟨.write writes, fun result => ?_⟩
  cases result with
  | error e => exact fails e
  | ok answer =>
    have told : (Errand.change found [] none none).told statement answer =
        .change found (dropped id found) none none := by
      cases statement <;> cases writes <;> rfl
    change wpE _ (rest answer) Q ((Errand.change found [] none none).told statement answer)
    rw [told]
    exact goes answer

/-- The keys are dropped, and what comes afterwards leaves it at that. -/
theorem wpE_settling {rest : Method β} (plain : OnlyE Call.Plain rest) :
    wpE (errands ids texts).spec (StoriesService.invalidateStoryCache id slug >>= fun _ => rest)
      (fun result g' => ∀ a, result = .ok a → g'.Settled)
      (.change found (dropped id (some slug)) none none) := by
  refine wpE_seq (errands ids texts).spec_monotone wpE_dropStory
    (fun e g' _ a returned => by cases returned) ?_
  intro _ g' ends
  rw [ends rfl]
  refine wpE_mono (errands ids texts).spec_monotone ?_ (wpE_asking plain)
  rintro result _ ⟨found', rfl⟩ a -
  exact ⟨rfl, rfl⟩

/-- What an operation does with the story that it finds. -/
theorem wpE_onFound {f : Story → Method β}
    (goes : ∀ story, wpE (errands ids texts).spec (f story)
      (fun result g' => ∀ a, result = .ok a → g'.Settled) (.change (some story.slug) [] none none)) :
    wpE (errands ids texts).spec (StoriesService.existing id >>= f)
      (fun result g' => ∀ a, result = .ok a → g'.Settled) (.change found [] none none) := by
  refine wpE_seq (errands ids texts).spec_monotone wpE_existingFound
    (fun e g' _ a returned => by cases returned) ?_
  rintro story g' ⟨-, known⟩
  rw [known story rfl]
  exact goes story

end Parts

section Operations
variable {ids texts} {α : Type} {text slug id : Units} {found : Option Units}

/-- A result that is thrown settles nothing. -/
theorem settled_thrown {e : Exception} {g : Errand} :
    ∀ a : α, (Except.error e : Except Exception α) = .ok a → g.Settled :=
  fun a returned => by cases returned

theorem wpE_publishSettles (userId : String) :
    wpE (errands ids texts).spec (StoriesService.publish id userId)
      (fun result g' => ∀ a, result = .ok a → g'.Settled) (.change found [] none none) := by
  refine wpE_onFound fun story => ?_
  simp only [wpE_ite]
  split
  · exact settled_thrown
  split
  · exact settled_thrown
  split
  · exact settled_thrown
  refine ⟨.now _, fun time => ?_⟩
  exact wpE_wroteStory rfl (fun e => settled_thrown) fun written =>
    wpE_settling (plain_announce _ written)

theorem wpE_archiveSettles (userId : String) :
    wpE (errands ids texts).spec (StoriesService.archive id userId)
      (fun result g' => ∀ a, result = .ok a → g'.Settled) (.change found [] none none) := by
  refine wpE_onFound fun story => ?_
  simp only [wpE_ite]
  split
  · exact settled_thrown
  split
  · exact settled_thrown
  exact wpE_wroteStory rfl (fun e => settled_thrown) fun written =>
    wpE_settling (plain_announce _ written)

theorem wpE_deleteSettles (userId : String) :
    wpE (errands ids texts).spec (StoriesService.delete id userId)
      (fun result g' => ∀ a, result = .ok a → g'.Settled) (.change found [] none none) := by
  refine wpE_onFound fun story => ?_
  simp only [wpE_ite]
  split
  · exact settled_thrown
  exact wpE_wroteStory rfl (fun e => settled_thrown) fun _ => wpE_settling (plain_emit _)

theorem wpE_viewSettles (viewer : StoryViewer) :
    wpE (errands ids texts).spec (StoriesService.incrementViewCount id viewer)
      (fun result g' => ∀ a, result = .ok a → g'.Settled) (.change found [] none none) := by
  refine wpE_onFound fun story => ?_
  rcases assertStoryIsReadableBy_cases story (some viewer) with readable | hidden
  · rw [readable]
    refine wpE_wroteStory rfl (fun e => settled_thrown) fun _ => ?_
    refine wpE_mono (errands ids texts).spec_monotone (fun result g' ends u returned => ?_)
      wpE_dropTexts
    rw [ends returned]
    exact ⟨rfl, rfl⟩
  · rw [hidden]
    exact settled_thrown

theorem wpE_writeUpdateSettles (input : UpdateStoryInput) (story : Story) :
    wpE (errands ids texts).spec (StoriesService.writeUpdate id input story)
      (fun result g' => ∀ a, result = .ok a → g'.Settled)
      (.change (some story.slug) [] none none) := by
  refine wpE_wroteStory rfl (fun e => settled_thrown) fun written => ?_
  refine wpE_seq (errands ids texts).spec_monotone
    (wpE_asking (plain_replaceGivenTags id input.tags)) (fun e g' _ => settled_thrown) ?_
  rintro _ _ ⟨found', rfl⟩
  exact wpE_settling (plain_updated written)

theorem wpE_updateSettles (input : UpdateStoryInput) (userId : String) :
    wpE (errands ids texts).spec (StoriesService.update id input userId)
      (fun result g' => ∀ a, result = .ok a → g'.Settled) (.change found [] none none) := by
  rw [StoriesService.update_eq]
  refine wpE_onFound fun story => ?_
  simp only [wpE_ite]
  split
  · exact settled_thrown
  cases input.slug with
  | undefined => exact wpE_writeUpdateSettles input story
  | null => exact wpE_writeUpdateSettles input story
  | value slug =>
    simp only [wpE_ite]
    split
    · refine ⟨.ask rfl, fun result => ?_⟩
      cases result with
      | error e => exact settled_thrown
      | ok row =>
        cases row with
        | some other => exact settled_thrown
        | none => exact wpE_writeUpdateSettles input story
    · exact wpE_writeUpdateSettles input story

theorem wpE_bumpFollows (count : Count) :
    wpE (errands ids texts).spec (StoriesEventHandler.bump id count) (fun _ _ => True)
      (.change none [] none none) := by
  rw [StoriesEventHandler.bump, wpE_tryCatch]
  refine wpE_mono (errands ids texts).spec_monotone (Q := fun _ _ => True)
    (fun result g' _ => by cases result <;> trivial) ?_
  refine wpE_wroteStory rfl (fun _ => trivial) fun _ => ?_
  exact wpE_mono (errands ids texts).spec_monotone (fun _ _ _ => trivial) wpE_dropText

theorem wpE_contentRemovedFollows (targetType : String) (targetId : Units) :
    wpE (errands ids texts).spec (handleModerationContentRemoved ids targetType targetId)
      (fun _ _ => True) (.change none [] none none) := by
  rw [handleModerationContentRemoved, wpE_ite]
  split
  · trivial
  rw [wpE_tryCatch]
  refine wpE_mono (errands ids texts).spec_monotone (Q := fun _ _ => True)
    (fun result g' _ => by cases result <;> trivial) ?_
  refine wpE_seq (errands ids texts).spec_monotone wpE_findByIdFound (fun _ _ _ => trivial) ?_
  rintro row _ ⟨⟨found', rfl⟩, -⟩
  cases row with
  | none => trivial
  | some story =>
    simp only [wpE_ite]
    split
    · trivial
    · exact wpE_mono (errands ids texts).spec_monotone (fun _ _ _ => trivial)
        (wpE_deleteSettles story.authorId)

end Operations

section Reads
variable {ids texts} {text : Units}

theorem settled_read (filling : Filling) : (Errand.read text filling).Settled := ⟨rfl, rfl⟩

variable (ids texts) in
/-- The load of a read: what it returns is held. -/
def Holds (text : Units) (load : Method Story) : Prop :=
  ∀ generation, wpE (errands ids texts).spec load (fun result g' => g'.Settled ∧
    ∀ row, result = .ok row → g' = .read text (Errand.holding row generation))
    (.read text (.loading generation))

theorem holds_found {row : Story} {generation : Option Text} :
    wpE (errands ids texts).spec
      (if row.deletedAt.isSome then throw storyNotFound else return row : Method Story)
      (fun result g' => g'.Settled ∧ ∀ row, result = .ok row → g' = .read text (Errand.holding row generation))
      ((Errand.read text (.loading generation)).found row) := by
  simp only [wpE_ite, Errand.found]
  split
  · exact ⟨⟨rfl, rfl⟩, fun row returned => by cases returned⟩
  · refine ⟨⟨rfl, rfl⟩, ?_⟩
    rintro _ ⟨⟩
    rfl

theorem holds_existing (id : Units) :
    Holds ids texts text (StoriesService.existing id) := by
  intro generation
  have found : wpE (errands ids texts).spec (StoriesRepository.findById id) (fun result g' =>
      g'.Settled ∧ ∀ row, result = .ok (some row) →
        g' = (Errand.read text (.loading generation)).found row)
      (.read text (.loading generation)) := by
    rw [StoriesRepository.findById, wpE_tryCatch]
    refine ⟨.loadById .., fun answer => ?_⟩
    cases answer with
    | error e =>
      change wpE _ (if e.code = some "22P02" then return none else throw e) _ _
      split
      · exact ⟨⟨rfl, rfl⟩, fun row returned => by cases returned⟩
      · exact ⟨⟨rfl, rfl⟩, fun row returned => by cases returned⟩
    | ok row =>
      cases row with
      | none => exact ⟨⟨rfl, rfl⟩, fun row returned => by cases returned⟩
      | some story =>
        refine ⟨⟨rfl, rfl⟩, ?_⟩
        rintro _ ⟨⟩
        rfl
  refine wpE_seq (errands ids texts).spec_monotone found
    (fun e g' ends => ⟨ends.1, fun row returned => by cases returned⟩) ?_
  rintro row g' ⟨settled, known⟩
  cases row with
  | none => exact ⟨settled, fun row returned => by cases returned⟩
  | some story =>
    rw [known story rfl]
    exact holds_found

theorem holds_existingBySlug (slug : Units) :
    Holds ids texts text (StoriesService.existingBySlug slug) := by
  intro generation
  refine ⟨.loadBySlug .., fun answer => ?_⟩
  cases answer with
  | error e => exact ⟨⟨rfl, rfl⟩, fun row returned => by cases returned⟩
  | ok row =>
    cases row with
    | none => exact ⟨⟨rfl, rfl⟩, fun row returned => by cases returned⟩
    | some story => exact holds_found

/-- What a read has loaded is put away, if it is to be. -/
theorem wpE_put (row : Story) (generation : Option Text) :
    wpE (onCache (errands ids texts).spec) (TaggedCacheService.set STORY_CACHE_NAMESPACE text
      ((storyJson texts ids).stringify row) STORY_CACHE_TTL_SECONDS [STORIES_CACHE_TAG]
      (generation.map fun generation => [generation]))
      (fun _ g' => g'.Settled) (.read text (Errand.holding row generation)) := by
  have stores : wpE (onCache (errands ids texts).spec) (do
      send (.set (storyKey text) (stringify (row.stringify texts ids))
        (some STORY_CACHE_TTL_SECONDS))
      forM [STORIES_CACHE_TAG] fun tag => indexTagKey tag (storyKey text) : CacheCalls Story Unit)
      (fun _ g' => g'.Settled) (.read text (.storing row)) := by
    refine ⟨.store .., fun stored => ?_⟩
    cases stored with
    | error e => exact settled_read _
    | ok u =>
      refine ⟨.list .., fun listed => ?_⟩
      cases listed with
      | error e => exact settled_read _
      | ok u => exact ⟨.extend .., fun extended => by cases extended <;> exact settled_read _⟩
  have puts : wpE (onCache (errands ids texts).spec) (storeUnlessInvalidated (storyKey text)
      (row.stringify texts ids) STORY_CACHE_TTL_SECONDS [STORIES_CACHE_TAG]
      (generation.map fun generation => [generation])) (fun _ g' => g'.Settled)
      (.read text (Errand.holding row generation)) := by
    cases generation with
    | none => exact stores
    | some generation =>
      refine ⟨.compare .., fun result => ?_⟩
      cases result with
      | error e => exact settled_read _
      | ok answer =>
        change wpE _ (if tagGenerationsChanged [generation]
            ([] ++ [Option.getD answer INITIAL_TAG_GENERATION]) then return () else _) _
          (if generation != Option.getD answer INITIAL_TAG_GENERATION then _ else _)
        have same : tagGenerationsChanged [generation]
            ([] ++ [Option.getD answer INITIAL_TAG_GENERATION]) =
              (generation != Option.getD answer INITIAL_TAG_GENERATION) := by
          simp [tagGenerationsChanged]
        rw [same]
        split
        · exact settled_read _
        · exact stores
  refine (wpE_tryCatch _ _ _ _ _).mpr ?_
  refine wpE_mono (onCache_monotone (errands ids texts).spec_monotone) (fun result g' ends => ?_)
    puts
  cases result <;> exact ends

theorem wpE_getOrSetSettles {load : Method Story}
    (holds : Holds ids texts text load) :
    wpE (errands ids texts).spec (StoriesService.getOrSet (storyJson texts ids) text load)
      (fun _ g' => g'.Settled) (.read text .start) := by
  have mono := (errands ids texts).spec_monotone
  have looks : wpE (errands ids texts).spec (cache (TaggedCacheService.get STORY_CACHE_NAMESPACE
      text (storyJson texts ids).revive)) (fun result g' => g'.Settled ∧
        (result = .ok none → g' = .read text .missed)) (.read text .start) := by
    rw [wpE_cache_eq]
    refine wpE_seq (onCache_monotone mono) (P := fun result g' => g'.Settled ∧
      ∀ cached, result = .ok cached → g' = .read text .missed)
      (wpE_sent (.lookUp ..) (fun _ => ⟨settled_read _, fun _ same => by cases same⟩)
        fun _ => ⟨settled_read _, fun _ _ => rfl⟩) (fun e g' ends => ⟨ends.1, nofun⟩) ?_
    rintro cached g' ⟨settled, ends⟩
    rw [ends cached rfl]
    cases cached with
    | none => exact ⟨settled_read _, fun _ => rfl⟩
    | some json =>
      dsimp only
      split
      · exact ⟨settled_read _, fun _ => rfl⟩
      · refine ⟨.dropCorrupt .., fun deleted => ?_⟩
        cases deleted with
        | error e => exact ⟨settled_read _, nofun⟩
        | ok u => exact ⟨settled_read _, fun _ => rfl⟩
  have snapshot : wpE (errands ids texts).spec
      (cache (readTagGenerationSnapshot (D := Story) [STORIES_CACHE_TAG])) (fun result g' =>
        ∃ generation : Option Text, result = .ok (generation.map fun generation => [generation]) ∧
          g' = Errand.read text (.loading generation)) (Errand.read text .missed) := by
    rw [wpE_cache_eq]
    refine ⟨.snapshot .., fun result => ?_⟩
    cases result with
    | error e => exact ⟨none, rfl, rfl⟩
    | ok answer => exact ⟨some _, rfl, rfl⟩
  refine wpE_seq mono looks (fun e g' ends => ends.1) ?_
  rintro found g' ⟨settled, missed⟩
  cases found with
  | some story => exact settled
  | none =>
    rw [missed rfl]
    refine wpE_seq mono snapshot (fun e g' ends => ?_) ?_
    · obtain ⟨generation, never, -⟩ := ends
      cases never
    rintro _ _ ⟨generation, ⟨⟩, rfl⟩
    refine wpE_seq mono (holds generation) (fun e g' ends => ends.1) ?_
    rintro row g' ⟨-, held⟩
    rw [held row rfl]
    refine wpE_seq mono (P := fun _ g' => g'.Settled) ?_ (fun _ _ settled => settled)
      fun _ _ settled => settled
    rw [wpE_cache_eq]
    exact wpE_put row generation

theorem wpE_readSettles {load : Method Story}
    (holds : Holds ids texts text load) (viewer : Option StoryViewer) :
    wpE (errands ids texts).spec (do
      let story ← StoriesService.getOrSet (storyJson texts ids) text load
      assertStoryIsReadableBy story viewer
      return story) (fun _ g' => g'.Settled) (.read text .start) := by
  refine wpE_seq (errands ids texts).spec_monotone (wpE_getOrSetSettles holds)
    (fun _ _ settled => settled) ?_
  intro story g' settled
  rcases assertStoryIsReadableBy_cases story viewer with readable | hidden
  · rw [readable]
    exact settled
  · rw [hidden]
    exact settled

end Reads

/-- The operations of the service; the handlers of events swallow what goes wrong. -/
def Operation.ThroughService : Operation → Prop
  | create _ _ | update _ _ _ | publish _ _ | archive _ _ | delete _ _ | incrementViewCount _ _
  | findById _ _ | findBySlug _ _ => True
  | reacted _ | reactionRemoved _ | commentCreated _ _ | commentDeleted _ _
  | contentRemoved _ _ => False

/-- An operation of the service that returns has dropped what it owes. -/
theorem reaches_run (unicode : Unicode) (operation : Operation) :
    (errands ids texts).Reaches (fun result g => operation.ThroughService → result = .ok () →
      g.Settled) operation.start (operation.run ids texts unicode).run := by
  have mono := (errands ids texts).spec_monotone
  have discards {α : Type} {p : Method α} {g : Errand} (does : wpE (errands ids texts).spec p
      (fun result g' => ∀ a, result = .ok a → g'.Settled) g) :
      wpE (errands ids texts).spec (do let _ ← p) (fun result g' => True → result = .ok () →
        g'.Settled) g :=
    wpE_seq mono does (fun e g' _ _ returned => by cases returned) fun a g' ends _ _ => ends a rfl
  have follows {p : Method Unit} {g : Errand} (does : wpE (errands ids texts).spec p
      (fun _ _ => True) g) : wpE (errands ids texts).spec p (fun result g' => False →
        result = .ok () → g'.Settled) g :=
    wpE_mono mono (fun _ _ _ never => never.elim) does
  cases operation with
  | create authorId input =>
    refine discards (wpE_mono mono ?_ (wpE_asking (plain_create ids unicode authorId input)))
    rintro result _ ⟨found', rfl⟩ a -
    exact ⟨rfl, rfl⟩
  | update id input userId => exact discards (wpE_updateSettles input userId)
  | publish id userId => exact discards (wpE_publishSettles userId)
  | archive id userId => exact discards (wpE_archiveSettles userId)
  | delete id userId =>
    exact wpE_mono mono (fun _ _ ends _ returned => ends () returned) (wpE_deleteSettles userId)
  | incrementViewCount id viewer =>
    exact wpE_mono mono (fun _ _ ends _ returned => ends () returned) (wpE_viewSettles viewer)
  | findById id viewer =>
    exact discards (wpE_mono mono (fun _ _ settled _ _ => settled)
      (wpE_readSettles (holds_existing id) viewer))
  | findBySlug slug viewer =>
    exact discards (wpE_mono mono (fun _ _ settled _ _ => settled)
      (wpE_readSettles (holds_existingBySlug slug) viewer))
  | reacted storyId => exact follows (wpE_bumpFollows .like)
  | reactionRemoved storyId => exact follows (wpE_bumpFollows .unlike)
  | commentCreated storyId parentId =>
    cases parentId with
    | none => exact follows (wpE_bumpFollows .comment)
    | some parent => exact follows trivial
  | commentDeleted storyId parentId =>
    cases parentId with
    | none => exact follows (wpE_bumpFollows .uncomment)
    | some parent => exact follows trivial
  | contentRemoved targetType targetId =>
    exact follows (wpE_contentRemovedFollows targetType targetId)

end Stories
