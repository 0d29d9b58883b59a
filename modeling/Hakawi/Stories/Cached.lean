import Hakawi.Caching.OnStore
import Hakawi.Stories.Alone

/-!
# Stories in the cache

How a story is written to the cache and revived from it, what stands in the cache about the rows
of the database, and what one call makes of that.
-/

namespace Stories
open Html Common Effects Caching

/-- What the language makes of strings and dates. A date that cannot be printed is not read back. -/
structure JsonTexts where
  string : Units → String
  units : String → Units
  units_string : ∀ text, units (string text) = text
  toISOString : Int → String
  /-- `new Date(text).getTime()`, `none` when it is `NaN` -/
  date : String → Option Int
  date_toISOString : ∀ time time', date (toISOString time) = some time' → time' = time

section Epoch

/-- A lone surrogate is not a character: it stands for one of the first supplementary plane. -/
def unitChar (u : UInt16) : Char :=
  if 55296 ≤ u.toNat ∧ u.toNat < 57344 then Char.ofNat (65536 + u.toNat) else Char.ofNat u.toNat

theorem unit_unitChar (u : UInt16) : unit (unitChar u) = u := by
  have small := u.toNat_lt
  have value (n : Nat) (valid : n.isValidChar) : (Char.ofNat n).toNat = n := by
    rw [Char.ofNat, dif_pos valid]
    rfl
  refine UInt16.toNat_inj.mp ?_
  rw [unit, unitChar]
  split
  · rw [value _ (by simp only [Nat.isValidChar]; omega)]
    simp only [Nat.toUInt16_eq, UInt16.toNat_ofNat']
    omega
  · rw [value _ (by simp only [Nat.isValidChar]; omega)]
    simp only [Nat.toUInt16_eq, UInt16.toNat_ofNat']
    omega

/-- Dates at the beginning of time. -/
def JsonTexts.epoch : JsonTexts where
  string text := String.ofList (text.map unitChar)
  units := Html.units
  units_string text := by
    simp [Html.units, Function.comp_def, unit_unitChar]
  toISOString time := if time = 0 then "1970-01-01T00:00:00.000Z" else ""
  date text := if text = "1970-01-01T00:00:00.000Z" then some 0 else none
  date_toISOString time time' read := by
    by_cases zero : time = 0
    · simp only [zero, if_true] at read ⊢
      exact (Option.some.inj read).symm
    · simp [zero] at read

end Epoch

section Json
variable (texts : JsonTexts) (ids : UuidText)

def MAX_TIME : Nat := 8640000000000000

def coerceDate : Json → Option Int
  | .str text => texts.date text
  | .num value =>
    let time := value.num.tdiv value.den
    if time.natAbs ≤ MAX_TIME then some time else none
  | _ => none

def reviveNullableDate : Option Json → Option (Option Int)
  | none | some .null => some none
  | some value => (coerceDate texts value).map some

def reviveRequiredDate : Option Json → Option Int
  | none | some .null => none
  | some value => coerceDate texts value

def jsonNullable {α : Type} (json : α → Json) : Option α → Json
  | none => .null
  | some a => json a

def jsonText (text : Units) : Json := .str (texts.string text)

def jsonDate (time : Int) : Json := .str (texts.toISOString time)

/-- `JSON.stringify` -/
def Story.stringify (story : Story) : Json := .obj
  [("id", jsonText texts (ids.print story.id)), ("authorId", .str story.authorId),
    ("title", jsonText texts story.title), ("slug", jsonText texts story.slug),
    ("excerpt", jsonNullable (jsonText texts) story.excerpt),
    ("content", jsonNullable (jsonText texts) story.content),
    ("coverImage", jsonNullable (jsonText texts) story.coverImage), ("status", .str story.status),
    ("categoryId", jsonNullable .str story.categoryId), ("viewCount", .int story.viewCount),
    ("likeCount", .int story.likeCount), ("commentCount", .int story.commentCount),
    ("readingTime", jsonNullable .int story.readingTime),
    ("publishedAt", jsonNullable (jsonDate texts) story.publishedAt),
    ("deletedAt", jsonNullable (jsonDate texts) story.deletedAt),
    ("createdAt", jsonDate texts story.createdAt), ("updatedAt", jsonDate texts story.updatedAt)]

/-- A property that the type says is a string. -/
def asText : Option Json → Option Units
  | some (.str text) => some (texts.units text)
  | _ => none

def asString : Option Json → Option String
  | some (.str text) => some text
  | _ => none

def asInteger : Option Json → Option Int
  | some (.num value) => integer? value
  | _ => none

def asNullable {α : Type} (read : Option Json → Option α) : Option Json → Option (Option α)
  | some .null => some none
  | value => (read value).map some

/-- `reviveStoryDates` of what `JSON.parse` returns; what is no story otherwise is none here. -/
def reviveStoryDates (json : Json) : Option (Option Story) := do
  return some
    { id := ← ids.parse (← asText texts (json.field? "id"))
      authorId := ← asString (json.field? "authorId")
      title := ← asText texts (json.field? "title")
      slug := ← asText texts (json.field? "slug")
      excerpt := ← asNullable (asText texts) (json.field? "excerpt")
      content := ← asNullable (asText texts) (json.field? "content")
      coverImage := ← asNullable (asText texts) (json.field? "coverImage")
      status := ← asString (json.field? "status")
      categoryId := ← asNullable asString (json.field? "categoryId")
      viewCount := ← asInteger (json.field? "viewCount")
      likeCount := ← asInteger (json.field? "likeCount")
      commentCount := ← asInteger (json.field? "commentCount")
      readingTime := ← asNullable asInteger (json.field? "readingTime")
      publishedAt := ← reviveNullableDate texts (json.field? "publishedAt")
      deletedAt := ← reviveNullableDate texts (json.field? "deletedAt")
      createdAt := ← reviveRequiredDate texts (json.field? "createdAt")
      updatedAt := ← reviveRequiredDate texts (json.field? "updatedAt") }

def storyJson : StoryJson := ⟨Story.stringify texts ids, reviveStoryDates texts ids⟩

variable {texts ids}

theorem asText_jsonNullable (text : Option Units) :
    asNullable (asText texts) (some (jsonNullable (jsonText texts) text)) = some text := by
  cases text with
  | none => rfl
  | some text => exact congrArg (fun t => some (some t)) (texts.units_string text)

theorem asString_jsonNullable (text : Option String) :
    asNullable asString (some (jsonNullable .str text)) = some text := by
  cases text <;> rfl

theorem asInteger_jsonNullable (n : Option Int) :
    asNullable asInteger (some (jsonNullable .int n)) = some n := by
  cases n with
  | none => rfl
  | some n => exact congrArg (·.map some) (integer?_intCast n)

theorem reviveNullableDate_jsonNullable {time : Option Int} {revived : Option Int}
    (read : reviveNullableDate texts (some (jsonNullable (jsonDate texts) time)) = some revived) :
    revived = time := by
  cases time with
  | none => exact (Option.some.inj read).symm
  | some time =>
    obtain ⟨time', dated, rfl⟩ := Option.map_eq_some_iff.mp read
    exact congrArg some (texts.date_toISOString time time' dated)

/-- Only the dates of a story that was written need reviving. -/
theorem reviveStoryDates_eq (story : Story) :
    reviveStoryDates texts ids (story.stringify texts ids) = (do
      let publishedAt ← reviveNullableDate texts
        (some (jsonNullable (jsonDate texts) story.publishedAt))
      let deletedAt ← reviveNullableDate texts (some (jsonNullable (jsonDate texts) story.deletedAt))
      let createdAt ← texts.date (texts.toISOString story.createdAt)
      let updatedAt ← texts.date (texts.toISOString story.updatedAt)
      return some { story with publishedAt, deletedAt, createdAt, updatedAt }) := by
  have number (n : Int) : asInteger (some (.int n)) = some n := integer?_intCast n
  have text (t : Units) : asText texts (some (jsonText texts t)) = some t :=
    congrArg some (texts.units_string t)
  simp [reviveStoryDates, Story.stringify, Json.field?, List.lookup_cons, text, number,
    asText_jsonNullable, asString_jsonNullable, asInteger_jsonNullable, ids.parse_print]
  rfl

/-- A story that is revived is the one that was written. -/
theorem reviveStoryDates_stringify {story : Story} {revived : Option Story}
    (read : reviveStoryDates texts ids (story.stringify texts ids) = some revived) :
    revived = some story := by
  rw [reviveStoryDates_eq] at read
  obtain ⟨publishedAt, published, read⟩ := Option.bind_eq_some_iff.mp read
  obtain ⟨deletedAt, deleted, read⟩ := Option.bind_eq_some_iff.mp read
  obtain ⟨createdAt, created, read⟩ := Option.bind_eq_some_iff.mp read
  obtain ⟨updatedAt, updated, read⟩ := Option.bind_eq_some_iff.mp read
  rw [reviveNullableDate_jsonNullable published, reviveNullableDate_jsonNullable deleted,
    texts.date_toISOString _ _ created, texts.date_toISOString _ _ updated] at read
  exact (Option.some.inj read).symm

end Json

section Keys

def storyKey (text : Units) : Units := TaggedCacheService.buildKey STORY_CACHE_NAMESPACE text

def IsStoryKey (key : Units) : Prop := ∃ text, key = storyKey text

theorem storyKey_injective {text text' : Units} (same : storyKey text = storyKey text') :
    text = text' := List.append_cancel_left same

/-- The keys differ at their seventh unit. -/
theorem isStoryKey_apart : Apart IsStoryKey where
  index tag := by
    rintro ⟨text, same⟩
    have letters := congrArg (fun key => key[6]?) same
    cases letters
  generation tag := by
    rintro ⟨text, same⟩
    have letters := congrArg (fun key => key[6]?) same
    cases letters

end Keys

section Sound
variable (ids : UuidText) (texts : JsonTexts)

def World.store (world : World) : StoreState := ⟨world.clock, world.cache⟩

/-- A lookup under a key would return a story. -/
def World.Cached (world : World) (text : Units) (story : Story) : Prop :=
  ∃ e content, world.store.live (storyKey text) = some e ∧ e.content = .text content ∧
    content.parseJson.bind (storyJson texts ids).revive = some (some story)

/-- What a story is cached under: its slug, or a spelling of its id. -/
def Names (text : Units) (story : Story) : Prop :=
  text = units "slug:" ++ story.slug ∨ ids.parse text = some story.id

/-- What may be cached under a text: a row as it is. -/
structure Current (db : Database) (text : Units) (story : Story) : Prop where
  member : story ∈ db.stories.rows
  alive : story.deletedAt = none
  names : Names ids text story

/-- What is cached, apart from some keys, is current. -/
structure Sound (gone : Units → Prop) (world : World) : Prop where
  tidy : Tidy IsStoryKey STORIES_CACHE_TAG world.store
  current : ∀ text story, world.Cached ids texts text story → ¬ gone text →
    Current ids world.database text story

variable {ids texts} {gone gone' : Units → Prop} {before after : World} {text : Units}
  {story : Story}

theorem Sound.weaken (sound : Sound ids texts gone before) (more : ∀ text, gone text → gone' text) :
    Sound ids texts gone' before :=
  ⟨sound.tidy, fun text story cached kept => sound.current text story cached fun left =>
    kept (more text left)⟩

theorem cached_of_later {put : Units → Text → Prop} {left : Units → Prop}
    (leaves : Leaves IsStoryKey STORIES_CACHE_TAG put left before.store after.store)
    (cached : after.Cached ids texts text story) :
    before.Cached ids texts text story ∧ ¬ left (storyKey text) ∨
      ∃ content, put (storyKey text) content ∧
        content.parseJson.bind (storyJson texts ids).revive = some (some story) := by
  obtain ⟨e, content, found, holds, revived⟩ := cached
  rcases leaves.values _ ⟨text, rfl⟩ e found with ⟨old, kept⟩ | ⟨content', holds', puts⟩
  · exact Or.inl ⟨⟨e, content, old, holds, revived⟩, kept⟩
  · cases holds.symm.trans holds'
    exact Or.inr ⟨content, puts, revived⟩

/-- The cache moves on. -/
theorem Sound.leaves {put : Units → Text → Prop} {left : Units → Prop}
    (sound : Sound ids texts gone before) (same : after.database = before.database)
    (leaves : Leaves IsStoryKey STORIES_CACHE_TAG put left before.store after.store)
    (puts : ∀ text content story, put (storyKey text) content →
      content.parseJson.bind (storyJson texts ids).revive = some (some story) →
      Current ids before.database text story) :
    Sound ids texts (fun text => gone text ∧ ¬ left (storyKey text)) after := by
  refine ⟨leaves.tidy, fun text story cached kept => ?_⟩
  rw [same]
  rcases cached_of_later leaves cached with ⟨old, remains⟩ | ⟨content, put, revived⟩
  · exact sound.current text story old fun absent => kept ⟨absent, remains⟩
  · exact puts text content story put revived

/-- What is put is current. -/
theorem Sound.stored {put : Units → Text → Prop} (sound : Sound ids texts gone before)
    (same : after.database = before.database)
    (leaves : Leaves IsStoryKey STORIES_CACHE_TAG put (fun _ => False) before.store after.store)
    (puts : ∀ text content story, put (storyKey text) content →
      content.parseJson.bind (storyJson texts ids).revive = some (some story) →
      Current ids before.database text story) : Sound ids texts gone after :=
  (sound.leaves same leaves puts).weaken fun _ absent => absent.1

/-- Nothing was put. -/
theorem Sound.faded {left : Units → Prop} {state : StoreState}
    (sound : Sound ids texts gone before)
    (leaves : Faded IsStoryKey STORIES_CACHE_TAG left before.store state) :
    Sound ids texts (fun text => gone text ∧ ¬ left (storyKey text))
      { before with clock := state.clock, cache := state.store } := by
  have after : Leaves IsStoryKey STORIES_CACHE_TAG (fun _ _ => False) left before.store
      (World.store { before with clock := state.clock, cache := state.store }) := leaves
  exact sound.leaves rfl after fun _ _ _ never => never.elim

theorem Sound.still {state : StoreState} (sound : Sound ids texts gone before)
    (leaves : Faded IsStoryKey STORIES_CACHE_TAG (fun _ => False) before.store state) :
    Sound ids texts gone { before with clock := state.clock, cache := state.store } :=
  (sound.faded leaves).weaken fun _ absent => absent.1

/-- The row that a call writes, as the call names it. -/
def Call.writes : Call → Option Units
  | .sql (.updateStory id _) | .sql (.softDelete id) | .sql (.count id _) => some id
  | _ => none

theorem mem_of_rewrite {db db' : Database} {id : Nat} {f : Story → Story}
    {keeps : ∀ s, (f s).id = s.id} (rewrites : db.rewrite id f keeps = .ok db')
    (member : story ∈ db.stories.rows) (other : story.id ≠ id) : story ∈ db'.stories.rows := by
  rw [Database.rewrite] at rewrites
  cases modified : db.stories.modify? id f keeps with
  | none =>
    rw [modified] at rewrites
    cases rewrites
  | some stories =>
    rw [modified] at rewrites
    cases rewrites
    exact Store.Indexed.mem_of_modify? modified member other

theorem mem_of_update {db db' : Database} {id : Nat} {changes : Changes} {now : Int}
    {written : Option Story} (updated : db.update id changes now = .ok (written, db'))
    (member : story ∈ db.stories.rows) (other : story.id ≠ id) : story ∈ db'.stories.rows := by
  rw [Database.update] at updated
  cases found : db.stories.find? id with
  | none =>
    rw [found] at updated
    cases updated
    exact member
  | some row =>
    rw [found] at updated
    cases set : row.set changes now with
    | error e =>
      simp only [set] at updated
      cases updated
    | ok row' =>
      simp only [set] at updated
      cases rewrites : db.rewrite id (fun s => { row' with id := s.id }) fun _ => rfl with
      | error e =>
        rw [rewrites] at updated
        cases updated
      | ok db'' =>
        rw [rewrites] at updated
        cases updated
        exact mem_of_rewrite rewrites member other

/-- A statement leaves the rows that it does not write. -/
theorem mem_of_perform {db db' : Database} {now : Int} {statement : Statement}
    {answer : statement.Answer} (performed : db.perform ids now statement = .ok (answer, db'))
    (member : story ∈ db.stories.rows)
    (other : ∀ id, (Call.sql statement).writes = some id → ids.parse id ≠ some story.id) :
    story ∈ db'.stories.rows := by
  have apart {id : Units} {k : Nat} (written : (Call.sql statement).writes = some id)
      (named : ids.parse id = some k) : story.id ≠ k := by
    rintro rfl
    exact other id written named
  cases statement with
  | storyById id =>
    simp only [Database.perform] at performed
    split at performed <;> cases performed
    exact member
  | storyBySlug slug =>
    cases performed
    exact member
  | insertStory values =>
    simp only [Database.perform] at performed
    split at performed
    · cases performed
    · rename_i stories inserted
      cases performed
      exact Store.Indexed.mem_of_insert? inserted member
  | updateStory id changes =>
    simp only [Database.perform] at performed
    cases named : ids.parse id with
    | none =>
      rw [named] at performed
      cases performed
    | some k =>
      rw [named] at performed
      exact mem_of_update performed member (apart rfl named)
  | softDelete id =>
    simp only [Database.perform] at performed
    cases named : ids.parse id with
    | none =>
      rw [named] at performed
      cases performed
    | some k =>
      simp only [named] at performed
      cases rewrites : db.rewrite k (Story.softDelete now) fun _ => rfl with
      | error e =>
        rw [rewrites] at performed
        cases performed
      | ok db'' =>
        rw [rewrites] at performed
        cases performed
        exact mem_of_rewrite rewrites member (apart rfl named)
  | count id count =>
    simp only [Database.perform] at performed
    cases named : ids.parse id with
    | none =>
      rw [named] at performed
      cases performed
    | some k =>
      simp only [named] at performed
      cases rewrites : db.rewrite k (Story.count · count) (Story.count_id · count) with
      | error e =>
        rw [rewrites] at performed
        cases performed
      | ok db'' =>
        rw [rewrites] at performed
        cases performed
        exact mem_of_rewrite rewrites member (apart rfl named)
  | tagsByName names =>
    cases performed
    exact member
  | deleteTags storyId =>
    simp only [Database.perform] at performed
    split at performed <;> cases performed
    exact member
  | replaceTags storyId tagIds =>
    simp only [Database.perform] at performed
    split at performed
    · cases performed
    · split at performed <;> cases performed
      exact member

/-- A call that is no command of the cache only lets time pass there. -/
theorem store_exec {choice : Choice} {call : Call} (plain : ∀ command, call ≠ .cache command) :
    (World.exec ids choice before call).2.store =
      ⟨before.clock + choice.elapsed, before.cache⟩ := by
  cases call with
  | now => rfl
  | emit event => rfl
  | cache command => exact absurd rfl (plain command)
  | sql statement =>
    simp only [World.exec]
    split
    · rfl
    · split <;> rfl

theorem mem_of_exec {choice : Choice} {call : Call}
    (member : story ∈ before.database.stories.rows)
    (other : ∀ id, call.writes = some id → ids.parse id ≠ some story.id) :
    story ∈ (World.exec ids choice before call).2.database.stories.rows := by
  cases call with
  | now => exact member
  | emit event => exact member
  | cache command =>
    simp only [World.exec]
    split <;> exact member
  | sql statement =>
    simp only [World.exec]
    split
    · exact member
    · split
      · exact member
      · rename_i performed
        exact mem_of_perform performed member other

/-- A call on the database or of the events: what is cached of a row it writes is to be dropped. -/
theorem Sound.exec {choice : Choice} {call : Call} (sound : Sound ids texts gone before)
    (plain : ∀ command, call ≠ .cache command)
    (covered : ∀ id, call.writes = some id → ∀ text story, before.Cached ids texts text story →
      ids.parse id = some story.id → gone text) :
    Sound ids texts gone (World.exec ids choice before call).2 := by
  have leaves : Leaves IsStoryKey STORIES_CACHE_TAG (fun _ _ => False) (fun _ => False)
      before.store (World.exec ids choice before call).2.store := by
    rw [store_exec plain]
    exact sound.tidy.wait (fun _ _ => False) choice.elapsed
  refine ⟨leaves.tidy, fun text story cached kept => ?_⟩
  obtain ⟨old, -⟩ | ⟨-, never, -⟩ := cached_of_later leaves cached
  · have current := sound.current text story old kept
    refine ⟨mem_of_exec current.member fun id written named => ?_, current.alive, current.names⟩
    exact kept (covered id written text story old named)
  · exact never.elim

end Sound

section Rules
variable {ids : UuidText} {texts : JsonTexts} {ok : Choice → Prop} {gone : Units → Prop}
  {world : World} {α β : Type}

def Choice.Available (choice : Choice) : Prop := ∀ command, choice.refuses (.cache command) = none

/-- A method of the cache service, from what it does on a store that answers. -/
theorem wpE_cache (available : ∀ c, ok c → c.Available) {p : CacheCalls Story α}
    {Q : Except Failure α → StoreState → Prop} (does : wpE storeSpec p Q world.store) :
    wpE (Program.execSpec (World.exec ids) ok) (cache p) (fun result after => ∃ ended state,
      result = ended.mapError .store ∧ Q ended state ∧
      after = { world with clock := state.clock, cache := state.store }) world := by
  change (viaCache p.run).wp _ _ world
  change p.run.wp storeSpec Q world.store at does
  generalize p.run = program at does
  induction program generalizing world with
  | done result => exact ⟨result, world.store, rfl, does, rfl⟩
  | call op next ih =>
    cases op with
    | readDatabase => exact ih _ (does 0 trivial)
    | changeDatabase change => exact ih _ (does 0 trivial)
    | valkey command =>
      intro c chosen
      simp only [World.exec, available c chosen command]
      have later : (next (world.cache.exec (world.clock + c.elapsed) command).1).wp storeSpec Q
          (World.store { world with
            clock := world.clock + c.elapsed
            cache := (world.cache.exec (world.clock + c.elapsed) command).2 }) :=
        does c.elapsed trivial
      exact ih _ later

/-- A text that is invalidated is no longer cached. -/
theorem wpE_invalidateKey (available : ∀ c, ok c → c.Available) (text : Units)
    (sound : Sound ids texts gone world) :
    wpE (Program.execSpec (World.exec ids) ok) (cache (TaggedCacheService.invalidateKey
      STORY_CACHE_NAMESPACE text [STORIES_CACHE_TAG])) (fun result after => result = .ok () ∧
        Sound ids texts (fun t => gone t ∧ t ≠ text) after) world := by
  have does := Caching.wpE_invalidateKey STORY_CACHE_NAMESPACE text isStoryKey_apart sound.tidy
    (D := Story)
  refine wpE_mono (Program.execSpec_monotone _ _) ?_ (wpE_cache available does)
  rintro _ after ⟨_, state, rfl, ⟨leaves, ⟨⟩, rfl⟩, rfl⟩
  refine ⟨rfl, (sound.faded leaves).weaken fun t absent => ⟨absent.1, ?_⟩⟩
  rintro rfl
  exact absent.2 rfl

theorem wpE_invalidateTags (available : ∀ c, ok c → c.Available) (tags : List Units)
    (sound : Sound ids texts gone world) :
    wpE (Program.execSpec (World.exec ids) ok) (cache (TaggedCacheService.invalidateTags tags))
      (fun result after => result = .ok () ∧ Sound ids texts gone after) world := by
  have does := Caching.wpE_invalidateTags tags isStoryKey_apart sound.tidy (D := Story)
  refine wpE_mono (Program.execSpec_monotone _ _) ?_ (wpE_cache available does)
  rintro _ after ⟨_, state, rfl, ⟨leaves, ⟨⟩, rfl⟩, rfl⟩
  exact ⟨rfl, sound.still leaves⟩

/-- The keys that the invalidation of a story drops. -/
def Dropped (id slug : Units) (text : Units) : Prop :=
  text = id ∨ text = units "slug:" ++ slug ∧ slug.length > 0

theorem wpE_invalidateCachedStoryKeys (available : ∀ c, ok c → c.Available) {id slug : Units}
    (sound : Sound ids texts (Dropped id slug) world) :
    wpE (Program.execSpec (World.exec ids) ok) (StoriesService.invalidateCachedStoryKeys id slug)
      (fun result after => result = .ok () ∧ Sound ids texts (fun _ => False) after) world := by
  refine wpE_seq (Program.execSpec_monotone _ _) (wpE_invalidateKey available id sound)
    (fun _ => nofun) ?_
  rintro u after ⟨-, left⟩
  split
  · refine wpE_mono (Program.execSpec_monotone _ _) ?_ (wpE_invalidateKey available _ left)
    rintro result later ⟨returns, none⟩
    refine ⟨returns, none.weaken ?_⟩
    rintro t ⟨⟨rfl | ⟨rfl, -⟩, other⟩, other'⟩
    · exact other rfl
    · exact other' rfl
  · rename_i short
    refine ⟨rfl, left.weaken ?_⟩
    rintro t ⟨rfl | ⟨-, long⟩, other⟩
    · exact other rfl
    · exact short long

theorem wpE_invalidateStoryCache (available : ∀ c, ok c → c.Available) {id slug : Units}
    (sound : Sound ids texts (Dropped id slug) world) :
    wpE (Program.execSpec (World.exec ids) ok) (StoriesService.invalidateStoryCache id slug)
      (fun result after => result = .ok () ∧ Sound ids texts (fun _ => False) after) world := by
  refine wpE_seq (Program.execSpec_monotone _ _) (wpE_invalidateTags available _ sound)
    (fun _ => nofun) ?_
  rintro u after ⟨-, still⟩
  exact wpE_invalidateCachedStoryKeys available still

end Rules
end Stories
