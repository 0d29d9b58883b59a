import Hakawi.Common.ValkeyCalls

/-!
# Tags of cached values

A tag has a set of the keys cached under it and a counter, its generation, that each
invalidation raises. A value is stored only if the generations of its tags are the
ones seen before it was loaded, compared by reading them once more.
-/

namespace Caching
open Html Common Effects

/-- `D` is the type of what the database holds. -/
inductive CacheCall (D : Type) where
  | valkey (command : Command Units)
  | readDatabase
  | changeDatabase (change : D → D)

def CacheResult {D : Type} : CacheCall D → Type
  | .valkey command => Except Failure command.Answer
  | .readDatabase => Except Failure D
  | .changeDatabase _ => Except Failure Unit

/-- What a request or a service does: it calls, and returns or throws. -/
abbrev CacheCalls (D : Type) (α : Type) : Type := Fallible (CacheCall D) CacheResult Failure α

structure CacheWorld (D : Type) where
  /-- In milliseconds. -/
  clock : Int
  store : Valkey Units
  database : D

def queryFailed : Failure := .error "Connection terminated unexpectedly"

/-- One call; where it fails it may have been performed. -/
def CacheWorld.exec {D : Type} (choice : Choice) (world : CacheWorld D) (call : CacheCall D) :
    CacheResult call × CacheWorld D :=
  let time : Int := world.clock + choice.elapsed
  match call with
  | .valkey command => match choice.outcome with
    | .performed =>
      ((world.store.exec time command).1, ⟨time, (world.store.exec time command).2, world.database⟩)
    | .refused => (.error disconnected, ⟨time, world.store, world.database⟩)
    | .lost => (.error disconnected, ⟨time, (world.store.exec time command).2, world.database⟩)
  | .readDatabase => match choice.outcome with
    | .performed => (.ok world.database, ⟨time, world.store, world.database⟩)
    | .refused => (.error queryFailed, ⟨time, world.store, world.database⟩)
    | .lost => (.error queryFailed, ⟨time, world.store, world.database⟩)
  | .changeDatabase change => match choice.outcome with
    | .performed => (.ok (), ⟨time, world.store, change world.database⟩)
    | .refused => (.error queryFailed, ⟨time, world.store, world.database⟩)
    | .lost => (.error queryFailed, ⟨time, world.store, change world.database⟩)

section Operations
variable {D : Type}

def send (command : Command Units) : CacheCalls D command.Answer :=
  ExceptT.mk (.call (.valkey command) .done)

def readDatabase : CacheCalls D D := ExceptT.mk (.call .readDatabase .done)

def changeDatabase (change : D → D) : CacheCalls D Unit :=
  ExceptT.mk (.call (.changeDatabase change) .done)

/-- The set that indexes the keys written under a tag. -/
def tagIndexKey (tag : Units) : Units := units "cache:tag:" ++ tag

/-- The counter of a tag's invalidations. -/
def tagGenerationKey (tag : Units) : Units := units "cache:taggen:" ++ tag

def TAG_INDEX_TTL_SECONDS : Int := 86400

def INITIAL_TAG_GENERATION : Text := .integer 0

deriving instance BEq for Json
deriving instance BEq for Text

/-- `none` when it could not be taken. -/
abbrev TagGenerationSnapshot : Type := Option (List Text)

def readTagGenerations (tags : List Units) : CacheCalls D (List Text) :=
  tags.foldlM (fun generations tag => do
    let generation ← send (.get (tagGenerationKey tag))
    return generations ++ [generation.getD INITIAL_TAG_GENERATION]) []

def readTagGenerationSnapshot (tags : List Units) : CacheCalls D TagGenerationSnapshot :=
  if tags.length = 0 then return some []
  else tryCatch (do return some (← readTagGenerations tags)) fun _ => return none

def bumpTagGenerations (tags : List Units) : CacheCalls D Unit :=
  forM tags fun tag => do let _ ← send (.incr (tagGenerationKey tag))

def tagGenerationsChanged (before after : List Text) : Bool :=
  before.length != after.length || (before.zip after).any fun (generation, later) =>
    generation != later

def indexTagKey (tag cacheKey : Units) : CacheCalls D Unit := do
  send (.sadd (tagIndexKey tag) cacheKey)
  send (.expire (tagIndexKey tag) TAG_INDEX_TTL_SECONDS)

/-- `JSON.stringify(value)` -/
def stringify : Json → Text
  | .num value => match integer? value with
    | some n => .integer n
    | none => .json (.num value)
  | json => .json json

/-- Store a value and index its key, unless a generation is not the one expected. The
service and the interceptor do this in the same way. -/
def storeUnlessInvalidated (cacheKey : Units) (value : Json) (ttl : Int) (tags : List Units)
    (expectedGenerations : TagGenerationSnapshot) : CacheCalls D Unit := do
  let store : CacheCalls D Unit := do
    send (.set cacheKey (stringify value) (some ttl))
    forM tags fun tag => indexTagKey tag cacheKey
  match expectedGenerations with
  | none => store
  | some generations =>
    if tags.length > 0 then
      let current ← readTagGenerations tags
      if tagGenerationsChanged generations current then return ()
      else store
    else store

/-- The part of `invalidateTags` that is about one tag. -/
def sweepTag (tag : Units) : CacheCalls D Unit := do
  let keys : List Units ← send (.smembers (tagIndexKey tag))
  forM keys fun key => send (.del key)
  send (.del (tagIndexKey tag))
  bumpTagGenerations [tag]

/-- Another tag is swept also when a sweep throws. -/
def sweepTags (tags : List Units) : CacheCalls D Unit :=
  forM tags fun tag => tryCatch (sweepTag tag) fun _ => return ()

end Operations

theorem tagIndexKey_injective {tag tag' : Units} (same : tagIndexKey tag = tagIndexKey tag') :
    tag = tag' := List.append_cancel_left same

theorem tagGenerationKey_injective {tag tag' : Units}
    (same : tagGenerationKey tag = tagGenerationKey tag') : tag = tag' :=
  List.append_cancel_left same

/-- The two kinds of keys differ at their tenth unit. -/
theorem tagIndexKey_ne_tagGenerationKey (tag tag' : Units) :
    tagIndexKey tag ≠ tagGenerationKey tag' := by
  intro same
  have letters := congrArg (fun key => key[9]?) same
  cases letters

theorem parseJson_stringify (json : Json) : (stringify json).parseJson = some json := by
  cases json with
  | num value =>
    simp only [stringify]
    cases whole : integer? value with
    | none => rfl
    | some n =>
      simp only [integer?, Option.ite_none_right_eq_some, Option.some.injEq] at whole
      obtain ⟨den, rfl⟩ := whole
      simp [Text.parseJson, Json.int, Rat.coe_int_num_of_den_eq_one den]
  | _ => rfl

end Caching
