import Hakawi.Common.Uuids
import Hakawi.Social.Service
import Hakawi.Store.Indexed

/-!
# Stories and their tags

The statements of the stories repository and what the database makes of them. Slugs have a
unique index, and a soft-deleted story keeps its slug. A statement that the database refuses
changes nothing.
-/

namespace Stories
open Html Common Store
open Social (Optional)

structure Story where
  id : Nat
  authorId : String
  title : Units
  slug : Units
  excerpt : Option Units
  content : Option Units
  coverImage : Option Units
  status : String
  categoryId : Option String
  viewCount : Int
  likeCount : Int
  commentCount : Int
  readingTime : Option Int
  publishedAt : Option Int
  deletedAt : Option Int
  createdAt : Int
  updatedAt : Int
  deriving DecidableEq

/-- The columns that an insert gives; the others have defaults. -/
structure NewStory where
  authorId : String
  title : Units
  slug : Units
  excerpt : Option Units
  content : Option Units
  coverImage : Option Units
  status : String
  categoryId : Option String
  deriving DecidableEq

/-- The columns that an update sets: the ones that are not `undefined`. -/
structure Changes where
  title : Optional Units := .undefined
  slug : Optional Units := .undefined
  excerpt : Optional Units := .undefined
  content : Optional Units := .undefined
  coverImage : Optional Units := .undefined
  status : Option String := none
  categoryId : Optional String := .undefined
  publishedAt : Option Int := none
  deriving DecidableEq

/-- The counters of a story and the ways they are moved. -/
inductive Count where
  | view
  | like
  | unlike
  | comment
  | uncomment
  deriving DecidableEq

structure Tag where
  id : Nat
  name : Units
  deriving DecidableEq

inductive Statement where
  | storyById (id : Units)
  | storyBySlug (slug : Units)
  | insertStory (values : NewStory)
  | updateStory (id : Units) (changes : Changes)
  | softDelete (id : Units)
  | count (id : Units) (count : Count)
  | tagsByName (names : List Units)
  | deleteTags (storyId : Units)
  /-- The transaction that deletes the tags of a story and inserts others. -/
  | replaceTags (storyId : Units) (tagIds : List Nat)
  deriving DecidableEq

@[reducible] def Statement.Answer : Statement → Type
  | storyById _ | storyBySlug _ | updateStory _ _ => Option Story
  | insertStory _ => Story
  | tagsByName _ => List Tag
  | softDelete _ | count _ _ | deleteTags _ | replaceTags _ _ => Unit

/-- A column that takes null. -/
def setNullable {α : Type} (old : Option α) : Optional α → Option α
  | .undefined => old
  | .null => none
  | .value a => some a

/-- A column that does not. -/
def setRequired {α : Type} (column : String) (old : α) : Optional α → Except DatabaseError α
  | .undefined => .ok old
  | .null => .error (.notNullViolation column)
  | .value a => .ok a

namespace Story

def new (values : NewStory) (now : Int) (id : Nat) : Story :=
  { values with
    id, viewCount := 0, likeCount := 0, commentCount := 0, readingTime := none
    publishedAt := none, deletedAt := none, createdAt := now, updatedAt := now }

/-- The row an update leaves, the columns that may not be null given. -/
def write (changes : Changes) (title slug : Units) (now : Int) (story : Story) : Story :=
  { story with
    title, slug
    excerpt := setNullable story.excerpt changes.excerpt
    content := setNullable story.content changes.content
    coverImage := setNullable story.coverImage changes.coverImage
    status := changes.status.getD story.status
    categoryId := setNullable story.categoryId changes.categoryId
    publishedAt := changes.publishedAt <|> story.publishedAt
    updatedAt := now }

def set (changes : Changes) (now : Int) (story : Story) : Except DatabaseError Story := do
  let title ← setRequired "title" story.title changes.title
  let slug ← setRequired "slug" story.slug changes.slug
  return story.write changes title slug now

def softDelete (now : Int) (story : Story) : Story :=
  { story with deletedAt := some now, status := "archived" }

/-- `greatest(..., 0)` where a counter goes down. -/
def count (story : Story) : Count → Story
  | .view => { story with viewCount := story.viewCount + 1 }
  | .like => { story with likeCount := story.likeCount + 1 }
  | .unlike => { story with likeCount := max (story.likeCount - 1) 0 }
  | .comment => { story with commentCount := story.commentCount + 1 }
  | .uncomment => { story with commentCount := max (story.commentCount - 1) 0 }

theorem count_id (story : Story) (count : Count) : (story.count count).id = story.id := by
  cases count <;> rfl

end Story

def STORIES_SLUG_UNIQUE : String := "stories_slug_unique"

def STORY_TAGS_PKEY : String := "story_tags_pkey"

structure Database where
  stories : Indexed Story Story.id Story.slug
  tags : List Tag
  /-- Which story has which tag. -/
  storyTags : List (Nat × Nat)

namespace Database

/-- Rewrite the row a text names, if there is one. -/
def rewrite (db : Database) (id : Nat) (f : Story → Story) (keeps : ∀ s, (f s).id = s.id) :
    Except DatabaseError Database :=
  match db.stories.modify? id f keeps with
  | none => .error (.uniqueViolation STORIES_SLUG_UNIQUE)
  | some stories => .ok { db with stories }

/-- `UPDATE ... RETURNING *`: the row as it is written, if there is one. -/
def update (db : Database) (id : Nat) (changes : Changes) (now : Int) :
    Except DatabaseError (Option Story × Database) :=
  match db.stories.find? id with
  | none => .ok (none, db)
  | some story => match story.set changes now with
    | .error e => .error e
    | .ok written => do
      let db ← db.rewrite id (fun s => { written with id := s.id }) fun _ => rfl
      return (some written, db)

/-- A statement alone in its transaction, at a time. -/
def perform (ids : UuidText) (now : Int) (db : Database) :
    (statement : Statement) → Except DatabaseError (statement.Answer × Database)
  | .storyById id => match ids.parse id with
    | none => .error .invalidText
    | some id => .ok (db.stories.find? id, db)
  | .storyBySlug slug => .ok (db.stories.findBy? slug, db)
  | .insertStory values =>
    match db.stories.insert? (Story.new values now) fun _ => rfl with
    | none => .error (.uniqueViolation STORIES_SLUG_UNIQUE)
    | some stories => .ok (Story.new values now db.stories.next, { db with stories })
  | .updateStory id changes => match ids.parse id with
    | none => .error .invalidText
    | some id => db.update id changes now
  | .softDelete id => match ids.parse id with
    | none => .error .invalidText
    | some id => do return ((), ← db.rewrite id (Story.softDelete now) fun _ => rfl)
  | .count id count => match ids.parse id with
    | none => .error .invalidText
    | some id => do return ((), ← db.rewrite id (Story.count · count) (Story.count_id · count))
  | .tagsByName names => .ok (db.tags.filter fun tag => tag.name ∈ names, db)
  | .deleteTags storyId => match ids.parse storyId with
    | none => .error .invalidText
    | some id => .ok ((), { db with storyTags := db.storyTags.filter fun pair => pair.1 ≠ id })
  | .replaceTags storyId tagIds => match ids.parse storyId with
    | none => .error .invalidText
    | some id =>
      if tagIds.Nodup then
        let others := db.storyTags.filter fun pair => pair.1 ≠ id
        .ok ((), { db with storyTags := others ++ tagIds.map fun tagId => (id, tagId) })
      else .error (.uniqueViolation STORY_TAGS_PKEY)

end Database
end Stories
