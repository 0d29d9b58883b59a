import Hakawi.Common.Exceptions
import Hakawi.Effects.Program

/-!
# Stories in Sanity

The snapshot that an event carries, the document that is made of it, and the
dataset that keeps documents under their ids. A value that is `undefined` is left
out of a request, so a document is created without its empty fields, and a patch
does not touch them.
-/

namespace Sanity

open Common

/-- What the runtime makes of dates: a time is a number of milliseconds. -/
structure Dates where
  /-- `new Date(text).getTime()`, `none` for an invalid date -/
  parse : String → Option Int
  toISOString : Int → String

/-- An emitted date, `none` for an invalid one, or its text when the payload was replayed. -/
inductive PublishedAt where
  | date (time : Option Int)
  | text (text : String)
  deriving DecidableEq

structure StorySnapshot where
  id : String
  authorId : String
  title : String
  slug : String
  excerpt : Option String
  content : Option String
  coverImage : Option String
  status : String
  publishedAt : Option PublishedAt
  deriving DecidableEq

/-- A story document; its type is `story`. -/
structure SanityStoryDocument where
  _id : String
  title : String
  slug : String
  excerpt : Option String := none
  content : Option String := none
  coverImage : Option String := none
  status : String
  publishedAt : Option String := none
  authorId : String
  hakawiId : String
  deriving DecidableEq

namespace SanityStoryDocument
variable (existing doc : SanityStoryDocument)

/-- `patch.set(doc)`: what `doc` leaves empty stays. -/
def set : SanityStoryDocument where
  _id := existing._id
  title := doc.title
  slug := doc.slug
  excerpt := doc.excerpt <|> existing.excerpt
  content := doc.content <|> existing.content
  coverImage := doc.coverImage <|> existing.coverImage
  status := doc.status
  publishedAt := doc.publishedAt <|> existing.publishedAt
  authorId := doc.authorId
  hakawiId := doc.hakawiId

/-- No field that `doc` leaves empty is there. -/
structure CoveredBy : Prop where
  excerpt : doc.excerpt = none → existing.excerpt = none
  content : doc.content = none → existing.content = none
  coverImage : doc.coverImage = none → existing.coverImage = none
  publishedAt : doc.publishedAt = none → existing.publishedAt = none

instance : Decidable (existing.CoveredBy doc) :=
  decidable_of_iff ((doc.excerpt = none → existing.excerpt = none) ∧
      (doc.content = none → existing.content = none) ∧
      (doc.coverImage = none → existing.coverImage = none) ∧
      (doc.publishedAt = none → existing.publishedAt = none))
    ⟨fun h => ⟨h.1, h.2.1, h.2.2.1, h.2.2.2⟩, fun h => ⟨h.1, h.2, h.3, h.4⟩⟩

theorem orElse_eq_iff {α : Type} {new old : Option α} :
    (new <|> old) = new ↔ (new = none → old = none) := by
  cases new <;> simp

/-- A patch makes the document anew exactly if it covers the old one. -/
theorem set_eq_iff (same : existing._id = doc._id) :
    existing.set doc = doc ↔ existing.CoveredBy doc := by
  constructor
  · intro anew
    exact ⟨orElse_eq_iff.mp (congrArg excerpt anew), orElse_eq_iff.mp (congrArg content anew),
      orElse_eq_iff.mp (congrArg coverImage anew), orElse_eq_iff.mp (congrArg publishedAt anew)⟩
  · rintro ⟨excerpt, content, coverImage, publishedAt⟩
    simp only [set, same, orElse_eq_iff.mpr excerpt, orElse_eq_iff.mpr content,
      orElse_eq_iff.mpr coverImage, orElse_eq_iff.mpr publishedAt]

end SanityStoryDocument

/-- The id under which a story is kept. -/
def documentIdOf (storyId : String) : String := s!"story-{storyId}"

section Conversion
variable (dates : Dates)

/-- `new Date(publishedAt)` of a text that is not empty; a date is taken as it is. -/
def coerceDate : Option PublishedAt → Option (Option Int)
  | some (.date time) => some time
  | some (.text text) => if text = "" then none else some (dates.parse text)
  | none => none

/-- `publishedAt?.toISOString()`, which throws for an invalid date. -/
def isoText : Option (Option Int) → Except Failure (Option String)
  | none => .ok none
  | some (some time) => .ok (some (dates.toISOString time))
  | some none => .error (.error "Invalid time value")

def toSanityDocument (story : StorySnapshot) : Except Failure SanityStoryDocument := do
  let publishedAt ← isoText dates (coerceDate dates story.publishedAt)
  return {
    _id := documentIdOf story.id
    title := story.title
    slug := story.slug
    excerpt := story.excerpt
    content := story.content
    coverImage := story.coverImage
    status := story.status
    publishedAt
    authorId := story.authorId
    hakawiId := story.id }

end Conversion

/-- The documents of a dataset, each under an id of its own. -/
structure Dataset where
  documents : List SanityStoryDocument
  unique : (documents.map SanityStoryDocument._id).Nodup

namespace Dataset

def empty : Dataset := ⟨[], List.nodup_nil⟩

variable (dataset : Dataset)

def getDocument (documentId : String) : Option SanityStoryDocument :=
  dataset.documents.find? fun d => d._id = documentId

/-- `*[_type == "story" && hakawiId == $hakawiId][0]` -/
def fetchStory (hakawiId : String) : Option SanityStoryDocument :=
  dataset.documents.find? fun d => d.hakawiId = hakawiId

theorem getDocument_eq_none {documentId : String} :
    dataset.getDocument documentId = none ↔
      documentId ∉ dataset.documents.map SanityStoryDocument._id := by
  simp [getDocument, List.find?_eq_none]

/-- A document under an id that is not taken. -/
def insert (doc : SanityStoryDocument) (missing : dataset.getDocument doc._id = none) : Dataset where
  documents := dataset.documents ++ [doc]
  unique := by
    rw [List.map_append, List.nodup_append]
    refine ⟨dataset.unique, List.pairwise_singleton _ _, ?_⟩
    rintro id taken _ new rfl
    obtain rfl := List.mem_singleton.mp new
    exact dataset.getDocument_eq_none.mp missing taken

/-- `patch(documentId).set(doc).commit()` on a document that is there. -/
def patch (documentId : String) (doc : SanityStoryDocument) : Dataset where
  documents := dataset.documents.map fun d => if d._id = documentId then d.set doc else d
  unique := by
    have same : SanityStoryDocument._id ∘ (fun d => if d._id = documentId then d.set doc else d) =
        SanityStoryDocument._id := by
      funext d
      simp only [Function.comp_apply]
      split <;> rfl
    rw [List.map_map, same]
    exact dataset.unique

def delete (documentId : String) : Dataset where
  documents := dataset.documents.filter fun d => d._id ≠ documentId
  unique := dataset.unique.sublist (List.filter_sublist.map _)

theorem getDocument_insert (doc : SanityStoryDocument)
    (missing : dataset.getDocument doc._id = none) :
    (dataset.insert doc missing).getDocument doc._id = some doc := by
  unfold getDocument at missing ⊢
  simp [insert, List.find?_append, missing]

theorem getDocument_patch (documentId : String) (doc : SanityStoryDocument) :
    (dataset.patch documentId doc).getDocument documentId =
      (dataset.getDocument documentId).map (·.set doc) := by
  have same : ((fun d => decide (d._id = documentId)) ∘
      fun d : SanityStoryDocument => if d._id = documentId then d.set doc else d) =
      fun d => decide (d._id = documentId) := by
    funext d
    simp only [Function.comp_apply]
    split <;> rfl
  simp only [getDocument, patch, List.find?_map, same]
  cases found : dataset.documents.find? fun d => decide (d._id = documentId) with
  | none => rfl
  | some d =>
    have here : d._id = documentId := by simpa using List.find?_some found
    simp [here]

theorem getDocument_delete (documentId : String) :
    (dataset.delete documentId).getDocument documentId = none := by
  rw [getDocument_eq_none]
  simp [delete]

end Dataset

/-!
## The Sanity service and the handlers of story events

`syncStoryToSanity` looks the document up and then patches or creates it;
`deleteStoryFromSanity` deletes it. Each call of the gateway is atomic, and the
environment decides whether it throws for a reason of its own. Both methods turn
an exception into a result that the handlers ignore. Log lines are left out.
-/

open Effects

inductive SanityOp where
  | fetchStory (hakawiId : String)
  | patch (documentId : String) (doc : SanityStoryDocument)
  | create (doc : SanityStoryDocument)
  | delete (documentId : String)

namespace SanityOp

@[reducible] def Answer : SanityOp → Type
  | fetchStory _ => Option SanityStoryDocument
  | patch _ _ => Unit
  | create _ => Unit
  | delete _ => Unit

@[reducible] def Result (op : SanityOp) : Type := Except Failure op.Answer

/-- The id of the document that the call writes. -/
def writes : SanityOp → Option String
  | fetchStory _ => none
  | patch documentId _ => some documentId
  | create doc => some doc._id
  | delete documentId => some documentId

end SanityOp

/-- What the environment decides about one call. -/
structure Choice where
  /-- The call throws, and nothing is written. -/
  fault : Option Failure := none

def Choice.quiet : Choice := {}

def documentExists (documentId : String) : Failure :=
  .error s!"Document by ID \"{documentId}\" already exists"

def documentMissing (documentId : String) : Failure :=
  .error s!"The document with the ID \"{documentId}\" was not found"

/-- A call that does not throw for a reason of its own: a document is created where there is none
of its id, and patched where there is one. -/
def performOp (dataset : Dataset) : (op : SanityOp) → op.Result × Dataset
  | .fetchStory hakawiId => (.ok (dataset.fetchStory hakawiId), dataset)
  | .patch documentId doc =>
    if (dataset.getDocument documentId).isSome then (.ok (), dataset.patch documentId doc)
    else (.error (documentMissing documentId), dataset)
  | .create doc =>
    if missing : dataset.getDocument doc._id = none then (.ok (), dataset.insert doc missing)
    else (.error (documentExists doc._id), dataset)
  | .delete documentId => (.ok (), dataset.delete documentId)

def exec (choice : Choice) (dataset : Dataset) (op : SanityOp) : op.Result × Dataset :=
  match choice.fault with
  | some failure => (.error failure, dataset)
  | none => performOp dataset op

abbrev Handler (α : Type) : Type := Fallible SanityOp SanityOp.Result Failure α

abbrev call (op : SanityOp) : Handler op.Answer := perform op

/-- The variables of the environment that decide whether Sanity is there. -/
structure Config where
  projectId : Option String
  dataset : Option String

structure SyncStoryResult where
  success : Bool
  documentId : Option String := none
  error : Option String := none

/-- The events of a story, with what the handlers read of them. -/
inductive StoryEvent where
  | created (storyId : String) (story : Option StorySnapshot)
  | updated (storyId : String) (story : Option StorySnapshot)
  | published (storyId : String) (story : Option StorySnapshot)
  | archived (storyId : String) (story : Option StorySnapshot)
  | deleted (storyId : String)

section Service
variable (config : Config)

def isEnabled : Bool :=
  (config.projectId.filter (· ≠ "")).isSome && (config.dataset.filter (· ≠ "")).isSome

def notConfigured : SyncStoryResult where
  success := false
  error := some "Sanity is not configured (SANITY_PROJECT_ID and SANITY_DATASET are required)"

/-- Every field of the document, under the id of its story. -/
def storyDocument (story : SanityStoryDocument) : SanityStoryDocument where
  _id := documentIdOf story.hakawiId
  title := story.title
  slug := story.slug
  excerpt := story.excerpt
  content := story.content
  coverImage := story.coverImage
  status := story.status
  publishedAt := story.publishedAt
  authorId := story.authorId
  hakawiId := story.hakawiId

def syncStoryToSanity (story : SanityStoryDocument) : Handler SyncStoryResult :=
  if !isEnabled config then return notConfigured
  else tryCatch (do
    let doc := storyDocument story
    let existing ← call (.fetchStory story.hakawiId)
    if existing.isSome then
      call (.patch (documentIdOf story.hakawiId) doc)
    else
      call (.create doc)
    return { success := true, documentId := some (documentIdOf story.hakawiId) })
    fun error => return { success := false, error := some error.message }

def deleteStoryFromSanity (storyId : String) : Handler SyncStoryResult :=
  if !isEnabled config then return notConfigured
  else tryCatch (do
    call (.delete (documentIdOf storyId))
    return { success := true, documentId := some (documentIdOf storyId) })
    fun error => return { success := false, error := some error.message }

end Service

section Handlers
variable (dates : Dates) (config : Config)

/-- What the handlers of `story.created`, `story.updated`, `story.published` and `story.archived`
do with the event's snapshot. -/
def syncSnapshot (story : Option StorySnapshot) : Handler Unit :=
  if !isEnabled config then return ()
  else match story with
    | none => return ()
    | some story => do
      let document ← toSanityDocument dates story
      let _ ← syncStoryToSanity config document

def handleStoryCreated (_storyId : String) (story : Option StorySnapshot) : Handler Unit :=
  syncSnapshot dates config story

def handleStoryUpdated (_storyId : String) (story : Option StorySnapshot) : Handler Unit :=
  syncSnapshot dates config story

def handleStoryPublished (_storyId : String) (story : Option StorySnapshot) : Handler Unit :=
  syncSnapshot dates config story

def handleStoryArchived (_storyId : String) (story : Option StorySnapshot) : Handler Unit :=
  syncSnapshot dates config story

def handleStoryDeleted (storyId : String) : Handler Unit :=
  if !isEnabled config then return ()
  else do
    let _ ← deleteStoryFromSanity config storyId

def StoryEvent.handler : StoryEvent → Handler Unit
  | created storyId story => handleStoryCreated dates config storyId story
  | updated storyId story => handleStoryUpdated dates config storyId story
  | published storyId story => handleStoryPublished dates config storyId story
  | archived storyId story => handleStoryArchived dates config storyId story
  | deleted storyId => handleStoryDeleted config storyId

end Handlers
end Sanity
