import Hakawi.Caching.TaggedCacheService
import Hakawi.SanitizeHtml.Sanitizer
import Hakawi.Stories.Slugs
import Hakawi.Stories.Tables

/-!
# The stories service

Its operations are programs over statements, commands of the cache and events. A story is cached
twice, under its id as the caller spelled it and under its slug. Each operation that writes a
row drops the two keys by a call of its own, after the write.
-/

namespace Stories
open Html Common Effects Caching
open Social (Optional)

structure StorySnapshot where
  id : Nat
  authorId : String
  title : Units
  slug : Units
  excerpt : Option Units
  content : Option Units
  coverImage : Option Units
  status : String
  publishedAt : Option Int
  deriving DecidableEq

def toStorySnapshot (story : Story) : StorySnapshot := { story with }

structure CreateStoryInput where
  title : Units
  slug : Optional Units := .undefined
  excerpt : Optional Units := .undefined
  content : Optional Units := .undefined
  coverImage : Optional Units := .undefined
  categoryId : Optional String := .undefined
  tags : Optional (List Units) := .undefined

structure UpdateStoryInput extends Changes where
  tags : Optional (List Units) := .undefined
  deriving DecidableEq

inductive Event where
  | created (storyId : Nat) (authorId : String) (story : StorySnapshot)
  | updated (storyId : Units) (updatedFields : UpdateStoryInput) (story : StorySnapshot)
  | published (storyId : Units) (publishedAt : Int) (story : StorySnapshot)
  | archived (storyId : Units) (story : StorySnapshot)
  | deleted (storyId : Units) (authorId : String)
  deriving DecidableEq

inductive Call where
  /-- `new Date()` -/
  | now
  | sql (statement : Statement)
  | cache (command : Command Units)
  | emit (event : Event)

def Call.Result : Call → Type
  | .now => Int
  | .sql statement => Except Exception statement.Answer
  | .cache command => Except Failure command.Answer
  | .emit _ => Except Exception Unit

abbrev Method (α : Type) : Type := Fallible Call Call.Result Exception α

structure World where
  /-- In milliseconds. -/
  clock : Int
  database : Database
  cache : Valkey Units
  /-- The events that were to be emitted, in order. -/
  emitted : List Event

structure Choice where
  /-- Milliseconds since the last call. -/
  elapsed : Nat := 0
  /-- The calls that fail without being carried out, for reasons other than the data they
  name, with the code of the error. -/
  refuses : Call → Option (Option String) := fun _ => none

def World.exec (ids : UuidText) (choice : Choice) (world : World) (call : Call) :
    call.Result × World :=
  let time : Int := world.clock + choice.elapsed
  match call with
  | .now => (time, { world with clock := time })
  | .sql statement => match choice.refuses (.sql statement) with
    | some code => (.error (.drizzle (.failed code)), { world with clock := time })
    | none => match world.database.perform ids time statement with
      | .error e => (.error (.drizzle e), { world with clock := time })
      | .ok (answer, database) => (.ok answer, { world with clock := time, database })
  | .cache command => match choice.refuses (.cache command) with
    | some _ => (.error disconnected, { world with clock := time })
    | none =>
      ((world.cache.exec time command).1,
        { world with clock := time, cache := (world.cache.exec time command).2 })
  | .emit event =>
    (match choice.refuses (.emit event) with
      | some _ => .error (.store disconnected)
      | none => .ok (),
      { world with clock := time, emitted := world.emitted ++ [event] })

def now : Method Int := ExceptT.mk (.call .now fun time => .done (.ok time))

def query (statement : Statement) : Method statement.Answer :=
  ExceptT.mk (.call (.sql statement) .done)

def emit (event : Event) : Method Unit := ExceptT.mk (.call (.emit event) .done)

/-- What a method of the cache service does, which reads no database of its own. -/
def viaCache {α : Type} (p : Program (CacheCall Story) CacheResult (Except Failure α)) :
    Program Call Call.Result (Except Exception α) :=
  match p with
  | .done result => .done (result.mapError .store)
  | .call (.valkey command) next => .call (.cache command) fun answer => viaCache (next answer)
  | .call .readDatabase next => viaCache (next (.error queryFailed))
  | .call (.changeDatabase _) next => viaCache (next (.error queryFailed))

def cache {α : Type} (p : CacheCalls Story α) : Method α := ExceptT.mk (viaCache p.run)

namespace StoriesRepository

def findById (id : Units) : Method (Option Story) :=
  tryCatch (query (.storyById id)) fun error =>
    if error.code = some "22P02" then return none else throw error

def findBySlug (slug : Units) : Method (Option Story) := query (.storyBySlug slug)

def create (values : NewStory) : Method Story := query (.insertStory values)

def update (id : Units) (changes : Changes) : Method (Option Story) :=
  query (.updateStory id changes)

def unknownTags (missing : List Units) : Exception :=
  .badRequest ((if missing.length > 1 then units "Unknown tags: " else units "Unknown tag: ") ++
    (units ", ").intercalate missing ++ units ". Tags are created by an administrator.")

/-- `new Map(resolved.map(...)).get(name)`: the last tag of a name. -/
def byName (resolved : List Tag) (name : Units) : Option Nat :=
  (resolved.reverse.find? (·.name = name)).map (·.id)

/-- `none` is null, which has no length. -/
def replaceTags (storyId : Units) : Option (List Units) → Method Unit
  | none => throw .typeError
  | some names => do
    if names.length = 0 then query (.deleteTags storyId)
    else
      let resolved ← query (.tagsByName names)
      let missing := names.filter fun name => (byName resolved name).isNone
      if missing.length > 0 then throw (unknownTags missing)
      query (.replaceTags storyId (names.filterMap (byName resolved)))

end StoriesRepository

def STORY_CACHE_NAMESPACE : Units := units "story"

def STORIES_CACHE_TAG : Units := units "stories"

def SEARCH_CACHE_TAG : Units := units "search"

def STORY_CACHE_TTL_SECONDS : Int := 600

def PUBLIC_STORY_STATUS : String := "published"

/-- `moderates` is what the permissions of the account say of unpublished stories. -/
structure StoryViewer where
  sub : String
  moderates : Bool

def canReadUnpublishedStory (story : Story) : Option StoryViewer → Bool
  | none => false
  | some viewer => viewer.sub = story.authorId || viewer.moderates

def storyNotFound : Exception := .notFound (units "Story not found")

def assertStoryIsReadableBy (story : Story) (viewer : Option StoryViewer) : Method Unit :=
  if story.status = PUBLIC_STORY_STATUS then return ()
  else if canReadUnpublishedStory story viewer then return ()
  else throw storyNotFound

def slugConflict : Exception := .conflict (units "Story slug already exists")

def emptySlug : Exception :=
  .badRequest (units "Slug must not be empty; omit it to have the server derive one from the title")

def slugsExhausted (base : Units) : Exception :=
  .conflict (units "Could not derive a free slug from \"" ++ base ++
    units s!"\" after {MAX_SLUG_COLLISION_ATTEMPTS} attempts. " ++
    units "Send an explicit \"slug\" to choose the URL yourself.")

def sanitizeStoryContent : Optional Units → Optional Units
  | .value content => .value (SanitizeHtml.sanitizeHtml content)
  | content => content

def CreateStoryInput.values (input : CreateStoryInput) (authorId : String) (slug : Units) :
    NewStory :=
  { authorId, title := input.title, slug, status := "draft"
    excerpt := input.excerpt.orNull
    content := input.content.orNull
    coverImage := input.coverImage.orNull
    categoryId := input.categoryId.orNull }

/-- How a cached story is written and read back. -/
structure StoryJson where
  stringify : Story → Json
  /-- `reviveStoryDates`, `none` when it throws. -/
  revive : Json → Option (Option Story)

namespace StoriesService
open StoriesRepository

def slugIsTaken (slug : Units) : Method Bool := do
  return (← findBySlug slug).isSome

/-- The walk over the candidates. -/
def insertFirstFree (values : Units → NewStory) (exhausted : Exception) :
    List Units → Method Story
  | [] => throw exhausted
  | candidate :: rest => do
    if ← slugIsTaken candidate then insertFirstFree values exhausted rest
    else tryCatch (StoriesRepository.create (values candidate)) fun error =>
      if error.isUniqueViolation then insertFirstFree values exhausted rest else throw error

def insertWithResolvedSlug (unicode : Unicode) (authorId : String) (data : CreateStoryInput) :
    Method Story :=
  match data.slug with
  | .value requested => do
    let slug := trim requested
    if slug.length = 0 then throw emptySlug
    if ← slugIsTaken slug then throw slugConflict
    tryCatch (StoriesRepository.create (data.values authorId slug)) fun error =>
      if error.isUniqueViolation then throw slugConflict else throw error
  | .null => throw .typeError
  | .undefined => do
    let base ← liftM (deriveStorySlug unicode data.title)
    insertFirstFree (data.values authorId) (slugsExhausted base)
      (storySlugCandidates base MAX_SLUG_COLLISION_ATTEMPTS)

def replaceGivenTags (storyId : Units) : Optional (List Units) → Method Unit
  | .undefined => return ()
  | tags => replaceTags storyId tags.orNull

def create (ids : UuidText) (unicode : Unicode) (authorId : String) (input : CreateStoryInput) :
    Method Story := do
  let data := { input with content := sanitizeStoryContent input.content }
  let story ← insertWithResolvedSlug unicode authorId data
  replaceGivenTags (ids.print story.id) data.tags
  emit (.created story.id authorId (toStorySnapshot story))
  return story

def invalidateCachedStoryKeys (id slug : Units) : Method Unit := do
  cache (TaggedCacheService.invalidateKey STORY_CACHE_NAMESPACE id [STORIES_CACHE_TAG])
  if slug.length > 0 then
    cache (TaggedCacheService.invalidateKey STORY_CACHE_NAMESPACE (units "slug:" ++ slug)
      [STORIES_CACHE_TAG])

def invalidateStoryCache (id slug : Units) : Method Unit := do
  cache (TaggedCacheService.invalidateTags [SEARCH_CACHE_TAG])
  invalidateCachedStoryKeys id slug

/-- The story an operation is about, if there is one that is not deleted. -/
def existing (id : Units) : Method Story := do
  match ← findById id with
  | none => throw storyNotFound
  | some story => if story.deletedAt.isSome then throw storyNotFound else return story

/-- The snapshot of a row that an update did not find is a property of `undefined`. -/
def snapshot : Option Story → Method StorySnapshot
  | none => throw .typeError
  | some story => return toStorySnapshot story

def returned : Option Story → Method Story
  | none => throw .typeError
  | some story => return story

def update (id : Units) (input : UpdateStoryInput) (userId : String) : Method Story := do
  let story ← existing id
  if story.authorId ≠ userId then
    throw (.forbidden (units "You can only update your own stories"))
  match input.slug with
  | .value slug =>
    if slug.length > 0 ∧ slug ≠ story.slug then
      if ← slugIsTaken slug then throw slugConflict
  | _ => pure ()
  let updates := { input with content := sanitizeStoryContent input.content }
  let written ← StoriesRepository.update id updates.toChanges
  replaceGivenTags id input.tags
  invalidateStoryCache id story.slug
  emit (.updated id updates (← snapshot written))
  returned written

def publish (id : Units) (userId : String) : Method Story := do
  let story ← existing id
  if story.authorId ≠ userId then
    throw (.forbidden (units "You can only publish your own stories"))
  if story.status = "published" then throw (.forbidden (units "Story is already published"))
  if story.status = "archived" then throw (.forbidden (units "Cannot publish an archived story"))
  let publishedAt ← now
  let updated ← StoriesRepository.update id
    { status := some "published", publishedAt := some publishedAt }
  invalidateStoryCache id story.slug
  emit (.published id publishedAt (← snapshot updated))
  returned updated

def archive (id : Units) (userId : String) : Method Story := do
  let story ← existing id
  if story.authorId ≠ userId then
    throw (.forbidden (units "You can only archive your own stories"))
  if story.status = "archived" then throw (.forbidden (units "Story is already archived"))
  let updated ← StoriesRepository.update id { status := some "archived" }
  invalidateStoryCache id story.slug
  emit (.archived id (← snapshot updated))
  returned updated

def delete (id : Units) (userId : String) : Method Unit := do
  let story ← existing id
  if story.authorId ≠ userId then
    throw (.forbidden (units "You can only delete your own stories"))
  query (.softDelete id)
  invalidateStoryCache id story.slug
  emit (.deleted id story.authorId)

def incrementViewCount (id : Units) (viewer : StoryViewer) : Method Unit := do
  let story ← existing id
  assertStoryIsReadableBy story (some viewer)
  query (.count id .view)
  invalidateCachedStoryKeys id story.slug

/-- `TaggedCacheService.getOrSet` with a load that may throw; of the entry the value only. -/
def getOrSet (json : StoryJson) (key : Units) (load : Method Story) : Method Story := do
  match ← cache (TaggedCacheService.get STORY_CACHE_NAMESPACE key json.revive) with
  | some story => return story
  | none =>
    let generations ← cache (readTagGenerationSnapshot [STORIES_CACHE_TAG])
    let loaded ← load
    cache (TaggedCacheService.set STORY_CACHE_NAMESPACE key (json.stringify loaded)
      STORY_CACHE_TTL_SECONDS [STORIES_CACHE_TAG] generations)
    return loaded

def findById (json : StoryJson) (id : Units) (viewer : Option StoryViewer) : Method Story := do
  let story ← getOrSet json id (existing id)
  assertStoryIsReadableBy story viewer
  return story

def findBySlug (json : StoryJson) (slug : Units) (viewer : Option StoryViewer) :
    Method Story := do
  let story ← getOrSet json (units "slug:" ++ slug) do
    match ← StoriesRepository.findBySlug slug with
    | none => throw storyNotFound
    | some story => if story.deletedAt.isSome then throw storyNotFound else return story
  assertStoryIsReadableBy story viewer
  return story

end StoriesService

namespace StoriesEventHandler

/-- A failure is logged and swallowed. -/
def bump (storyId : Units) (count : Count) : Method Unit :=
  tryCatch (do
    query (.count storyId count)
    cache (TaggedCacheService.invalidateKey STORY_CACHE_NAMESPACE storyId [STORIES_CACHE_TAG]))
    fun _ => return ()

def handleStoryReacted (storyId : Units) : Method Unit := bump storyId .like

def handleStoryReactionRemoved (storyId : Units) : Method Unit := bump storyId .unlike

/-- A reply does not count. -/
def handleCommentCreated (storyId : Units) (parentId : Option Units) : Method Unit :=
  if parentId.isSome then return () else bump storyId .comment

def handleCommentDeleted (storyId : Units) (parentId : Option Units) : Method Unit :=
  if parentId.isSome then return () else bump storyId .uncomment

end StoriesEventHandler

/-- `targetType` and `targetId` of the event. -/
def handleModerationContentRemoved (ids : UuidText) (targetType : String) (targetId : Units) :
    Method Unit :=
  if targetType ≠ "story" then return ()
  else tryCatch (do
    match ← StoriesRepository.findById targetId with
    | none => return ()
    | some story =>
      if story.deletedAt.isSome then return ()
      else StoriesService.delete (ids.print story.id) story.authorId) fun _ => return ()

end Stories
