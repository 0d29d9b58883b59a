import Hakawi.Caching.FreshRuns

/-!
# The cache of the services

`getOrSet` and `invalidateTags`. The generations of the tags are compared before a value
is stored, and a sweep raises them last: a sweep that begins after the comparison and
ends before the key is listed finds nothing to delete, and the value that the read
loaded before the change stays.
-/

namespace Caching
open Html Common Effects

/-- `encode` is what `JSON.stringify` makes of a value. `revive` is `none` when it throws,
and `some none` is `null`. -/
structure GetOrSetOptions (D : Type) where
  cacheNamespace : Units
  key : Units
  ttl : Int
  tags : List Units
  encode : D → Json
  revive : Json → Option (Option D)

namespace TaggedCacheService
variable {D : Type}

def buildKey (cacheNamespace key : Units) : Units :=
  units "cache:" ++ cacheNamespace ++ units ":" ++ key

/-- An entry that cannot be parsed or revived is dropped and counts as a miss. -/
def get (cacheNamespace key : Units) (revive : Json → Option (Option D)) :
    CacheCalls D (Option D) := do
  let cacheKey := buildKey cacheNamespace key
  let cached : Option Text ← send (.get cacheKey)
  match cached with
  | none => return none
  | some text => match text.parseJson.bind revive with
    | some value => return value
    | none =>
      send (.del cacheKey)
      return none

/-- A write that fails is logged only. -/
def set (cacheNamespace key : Units) (value : Json) (ttl : Int) (tags : List Units)
    (expectedGenerations : TagGenerationSnapshot) : CacheCalls D Unit :=
  tryCatch (storeUnlessInvalidated (buildKey cacheNamespace key) value ttl tags
    expectedGenerations) fun _ => return ()

/-- The value, and whether it was in the cache. -/
def getOrSet (options : GetOrSetOptions D) : CacheCalls D (D × Bool) := do
  let cached ← get options.cacheNamespace options.key options.revive
  match cached with
  | some value => return (value, true)
  | none =>
    let generations ← readTagGenerationSnapshot options.tags
    let loaded ← readDatabase
    set options.cacheNamespace options.key (options.encode loaded) options.ttl options.tags
      generations
    return (loaded, false)

def invalidateTags (tags : List Units) : CacheCalls D Unit := sweepTags tags

/-- One key and its places in the indexes; a command that fails makes it throw. -/
def invalidateKey (cacheNamespace key : Units) (tags : List Units) : CacheCalls D Unit := do
  send (.del (buildKey cacheNamespace key))
  forM tags fun tag => send (.srem (tagIndexKey tag) (buildKey cacheNamespace key))
  if tags.length > 0 then bumpTagGenerations tags

end TaggedCacheService

/-! Reads of one key, each with its time to live, and changes of what it shows. -/

inductive Access (D : Type) where
  | read (ttl : Int)
  | change (alter : D → D) (tag : Units)

section Accesses
variable {D : Type} (options : GetOrSetOptions D)

def GetOrSetOptions.cacheKey : Units :=
  TaggedCacheService.buildKey options.cacheNamespace options.key

def Access.run : Access D → CacheCalls D Unit
  | read ttl => do let _ ← TaggedCacheService.getOrSet { options with ttl := ttl }
  | change alter tag => do
    changeDatabase alter
    TaggedCacheService.invalidateTags [tag]

def Access.Proper : Access D → Prop
  | read ttl => 0 < ttl ∧ ttl ≤ TAG_INDEX_TTL_SECONDS
  | change _ tag => tag ∈ options.tags

def Access.start : Access D → Memory D
  | read ttl => .reader ⟨options.cacheKey, options.tags, ttl, options.encode⟩ .start
  | change _ tag => .writer false [tag] none

/-- The database is changed before one of the tags is swept. -/
def changesFirst (tags : List Units) (changed : Bool) (todo : List Units) (_ : D → D) : Prop :=
  changed = false ∧ ∃ tag ∈ todo, tag ∈ tags

variable {options} {mayChange : Bool → List Units → (D → D) → Prop}

theorem leads_get {read : Read D} (here : read.key = options.cacheKey) :
    Leads mayChange (fun g => ∃ phase, g = .reader read phase) (.reader read .start)
      (TaggedCacheService.get options.cacheNamespace options.key options.revive)
      (fun _ g => g = .reader read (.reading [])) := by
  have looked : Leads mayChange (fun g => ∃ phase, g = .reader read phase) (.reader read .start)
      (send (.get read.key)) (fun _ g => g = .reader read (.reading [])) :=
    .send (.lookUp read) (.inr ⟨_, rfl⟩) fun _ => rfl
  have dropped : Leads mayChange (fun g => ∃ phase, g = .reader read phase)
      (.reader read (.reading [])) (send (.del read.key))
      (fun _ g => g = .reader read (.reading [])) :=
    .send (.dropCorrupt read) (.inr ⟨_, rfl⟩) fun _ => rfl
  rw [here] at looked dropped
  refine looked.bind_at fun cached => ?_
  cases cached with
  | none => exact .pure rfl
  | some text =>
    simp only
    split
    · exact .pure rfl
    · exact dropped.bind_at fun _ => .pure rfl

theorem leads_getOrSet {read : Read D} (here : read.key = options.cacheKey)
    (tagged : read.tags = options.tags) (lasts : read.ttl = options.ttl)
    (shows : read.render = options.encode) :
    Leads mayChange (fun g => ∃ phase, g = .reader read phase) (.reader read .start)
      (TaggedCacheService.getOrSet options) (fun _ g => ∃ phase, g = .reader read phase) := by
  have snapshot : Leads mayChange (fun g => ∃ phase, g = .reader read phase)
      (.reader read (.reading [])) (readTagGenerationSnapshot options.tags)
      (fun snapshot g => ∃ generations, snapshot = some generations ∧
        g = .reader read (.reading generations) ∧ generations.length = read.tags.length) := by
    rw [← tagged]
    exact leads_readTagGenerationSnapshot
  refine (leads_get here).bind_at fun cached => ?_
  cases cached with
  | some value => exact .pure ⟨_, rfl⟩
  | none =>
    refine snapshot.bind ?_
    rintro _ g ⟨generations, rfl, rfl, complete⟩
    have loaded : Leads mayChange (fun g => ∃ phase, g = .reader read phase)
        (.reader read (.reading generations)) readDatabase
        (fun value g => g = .reader read (.checking generations value [])) :=
      .readDatabase (.load complete) (.inr ⟨_, rfl⟩) fun _ => rfl
    refine loaded.bind ?_
    rintro value g rfl
    have stored : Leads mayChange (fun g => ∃ phase, g = .reader read phase)
        (.reader read (.checking generations value []))
        (TaggedCacheService.set options.cacheNamespace options.key (options.encode value)
          options.ttl options.tags (some generations))
        (fun _ g => ∃ phase, g = .reader read phase) := by
      have stores : Leads mayChange (fun g => ∃ phase, g = .reader read phase)
          (.reader read (.checking generations value []))
          (storeUnlessInvalidated read.key (read.render value) read.ttl read.tags
            (some generations)) (fun _ g => ∃ phase, g = .reader read phase) :=
        leads_storeUnlessInvalidated complete
      rw [here, tagged, lasts, shows] at stores
      exact stores.caught fun _ _ reads => .pure reads
    exact stored.bind fun _ _ reads => .pure reads

/-- Each access follows the protocol, and is over when it is done. -/
theorem reaches_access (access : Access D) (proper : access.Proper options) :
    (tagProtocol (changesFirst options.tags)).Reaches (fun _ g => g.isOver)
      (access.start options) (access.run options).run := by
  cases access with
  | read ttl =>
    have leads : Leads (changesFirst options.tags)
        (fun g => ∃ phase, g = .reader ⟨options.cacheKey, options.tags, ttl, options.encode⟩ phase)
        (.reader ⟨options.cacheKey, options.tags, ttl, options.encode⟩ .start)
        (TaggedCacheService.getOrSet { options with ttl := ttl })
        (fun _ g => ∃ phase,
          g = .reader ⟨options.cacheKey, options.tags, ttl, options.encode⟩ phase) :=
      leads_getOrSet rfl rfl rfl rfl
    have returns : Leads (changesFirst options.tags)
        (fun g => ∃ phase, g = .reader ⟨options.cacheKey, options.tags, ttl, options.encode⟩ phase)
        (.reader ⟨options.cacheKey, options.tags, ttl, options.encode⟩ .start)
        ((Access.read ttl).run options) (fun _ g => ∃ phase,
          g = .reader ⟨options.cacheKey, options.tags, ttl, options.encode⟩ phase) :=
      leads.bind fun _ _ reads => .pure reads
    refine Program.wp_mono (tagProtocol _).spec_monotone (fun result g ends => ?_) returns
    rcases ends with rfl | ⟨-, -, phase, rfl⟩ | ⟨-, -, phase, rfl⟩
    all_goals trivial
  | change alter tag =>
    have changes : Leads (changesFirst options.tags) (fun _ => False) (.writer false [tag] none)
        (changeDatabase alter) (fun _ g => g = .writer true [tag] none) :=
      .changeDatabase ⟨rfl, tag, List.mem_singleton_self tag, proper⟩ rfl
    have sweeps : Leads (changesFirst options.tags) (fun _ => False)
        (.writer true [tag] none : Memory D) (TaggedCacheService.invalidateTags [tag]) (fun _ g => g = .writer true [] none) :=
      leads_sweepTags [tag]
    refine Program.wp_mono (tagProtocol _).spec_monotone (fun result g ends => ?_)
      (changes.bind_at fun _ => sweeps)
    rcases ends with rfl | ⟨-, -, rfl⟩ | ⟨-, -, never⟩
    · trivial
    · exact ⟨rfl, rfl⟩
    · exact never.elim

/-- A call that drops an entry ends as a miss. -/
theorem eval_drop (cacheKey : Units) (choices : Nat → Choice) (world : CacheWorld D) (value : D) :
    (Program.eval CacheWorld.exec (do
      send (.del cacheKey)
      return none : CacheCalls D (Option D)).run choices world).1 ≠ .ok (some value) := by
  intro hit
  cases outcome : (choices 0).outcome with
  | performed | refused | lost =>
    change (Program.eval CacheWorld.exec (.call (.valkey (.del cacheKey)) _) choices world).1 = _
      at hit
    simp only [Program.eval, CacheWorld.exec, outcome] at hit
    cases hit

/-- What a hit returns stands in the store. -/
theorem get_hit {cacheNamespace key : Units} {revive : Json → Option (Option D)}
    {world : CacheWorld D} {choices : Nat → Choice} {value : D}
    (hit : ((TaggedCacheService.get cacheNamespace key revive).run.eval CacheWorld.exec choices
      world).1 = .ok (some value)) :
    ∃ text time, world.clock ≤ time ∧
      world.store.get time (TaggedCacheService.buildKey cacheNamespace key) = .ok (some text) ∧
      text.parseJson.bind revive = some (some value) := by
  have later : world.clock ≤ world.clock + (choices 0).elapsed := by omega
  obtain ⟨next, calls, fails, absent, present⟩ : ∃ next,
      (TaggedCacheService.get cacheNamespace key revive : CacheCalls D (Option D)).run =
        .call (.valkey (.get (TaggedCacheService.buildKey cacheNamespace key))) next ∧
      (∀ e choices world, ((next (.error e)).eval CacheWorld.exec choices world).1 = .error e) ∧
      (∀ choices world, ((next (.ok none)).eval CacheWorld.exec choices world).1 = .ok none) ∧
      ∀ text choices world, ((next (.ok (some text))).eval CacheWorld.exec choices world).1 =
        ((match text.parseJson.bind revive with
          | some value => return value
          | none => do
            send (.del (TaggedCacheService.buildKey cacheNamespace key))
            return none : CacheCalls D (Option D)).run.eval CacheWorld.exec choices world).1 :=
    ⟨_, rfl, fun _ _ _ => rfl, fun _ _ => rfl, fun _ _ _ => rfl⟩
  rw [calls, Program.eval] at hit
  cases outcome : (choices 0).outcome with
  | refused | lost =>
    simp only [CacheWorld.exec, outcome] at hit
    cases (fails _ _ _).symm.trans hit
  | performed =>
    simp only [CacheWorld.exec, outcome, Valkey.exec] at hit
    cases found : world.store.get (world.clock + (choices 0).elapsed)
        (TaggedCacheService.buildKey cacheNamespace key) with
    | error e =>
      rw [found] at hit
      cases (fails _ _ _).symm.trans hit
    | ok answer =>
      rw [found] at hit
      cases answer with
      | none => cases (absent _ _).symm.trans hit
      | some text =>
        refine ⟨text, _, later, found, ?_⟩
        have returned := (present _ _ _).symm.trans hit
        split at returned
        · rename_i revived
          cases returned
          exact revived
        · exact absurd returned (eval_drop _ _ _ value)

variable (options) in
def begin (world : CacheWorld D) (accesses : List (Access D)) :
    Pool (CacheWorld D) (CacheCall D) CacheResult (Except Failure Unit) :=
  ⟨world, accesses.map fun access => (access.run options).run⟩

variable (options) in
/-- No tag is swept while a read compares its generation or lists its key under it. -/
def OrderlyAccesses (world : CacheWorld D) (accesses : List (Access D))
    (schedule : List (Nat × Choice)) : Prop :=
  Pool.Orderly CacheWorld.exec (tagProtocol (changesFirst options.tags))
    (fun choice world _ g call => Undisturbed choice world g call) Calm schedule
    (accesses.map (Access.start options)) (begin options world accesses)

section Runs
variable {world : CacheWorld D} {accesses : List (Access D)}

theorem begin_reaches (proper : ∀ access ∈ accesses, access.Proper options) :
    List.Forall₂ ((tagProtocol (changesFirst options.tags)).Reaches fun _ g => g.isOver)
      (accesses.map (Access.start options)) (begin options world accesses).threads := by
  refine List.forall₂_map_left_iff.mpr (List.forall₂_map_right_iff.mpr ?_)
  exact List.forall₂_same.mpr fun access member => reaches_access access (proper access member)

theorem begin_fresh (plain : Plain options.cacheKey)
    (coherent : Coherent options.cacheKey options.tags options.encode world)
    (proper : ∀ access ∈ accesses, access.Proper options) :
    Fresh options.cacheKey options.tags options.encode options.encode world
      (accesses.map (Access.start options)) := by
  have starts {g : Memory D} (member : g ∈ accesses.map (Access.start options)) :
      (∃ ttl, 0 < ttl ∧ ttl ≤ TAG_INDEX_TTL_SECONDS ∧
        g = .reader ⟨options.cacheKey, options.tags, ttl, options.encode⟩ .start) ∨
      ∃ tag, g = .writer false [tag] none := by
    obtain ⟨access, belongs, rfl⟩ := List.mem_map.mp member
    cases access with
    | read ttl =>
      obtain ⟨positive, within⟩ := proper _ belongs
      exact Or.inl ⟨ttl, positive, within, rfl⟩
    | change alter tag => exact Or.inr ⟨tag, rfl⟩
  refine coherent.fresh (fun read phase member => ?_) (fun changed todo current member => ?_)
    (fun member => ?_) (Or.inl rfl)
  · rcases starts member with ⟨ttl, positive, within, same⟩ | ⟨tag, never⟩
    · cases same
      exact ⟨rfl, plain, coherent.textual, positive, within, fun _ => ⟨rfl, rfl⟩⟩
    · cases never
  · rcases starts member with ⟨ttl, -, -, never⟩ | ⟨tag, same⟩
    · cases never
    · cases same
      rfl
  · rcases starts member with ⟨ttl, -, -, never⟩ | ⟨tag, never⟩ <;> cases never

theorem run_fresh (plain : Plain options.cacheKey)
    (coherent : Coherent options.cacheKey options.tags options.encode world)
    (proper : ∀ access ∈ accesses, access.Proper options) {schedule : List (Nat × Choice)}
    (orderly : OrderlyAccesses options world accesses schedule) :
    Fresh options.cacheKey options.tags options.encode options.encode
      ((begin options world accesses).run CacheWorld.exec schedule).state
      (Pool.recallAll CacheWorld.exec (tagProtocol (changesFirst options.tags))
        (accesses.map (Access.start options)) (begin options world accesses) schedule) := by
  have preserves : ∀ (choice : Choice) (now : CacheWorld D) (memory : List (Memory D)) (i : Nat)
      (g : Memory D) (call : CacheCall D), memory[i]? = some g →
      Fresh options.cacheKey options.tags options.encode options.encode now memory →
      Calm memory → Calm (memory.set i (g.next call (now.exec choice call).1)) →
      Allowed (changesFirst options.tags) g call → Undisturbed choice now g call →
      Fresh options.cacheKey options.tags options.encode options.encode (now.exec choice call).2
        (memory.set i (g.next call (now.exec choice call).1)) := by
    intro choice now memory i g call h fresh calm calm' allowed undisturbed
    exact fresh_step plain (fun changed todo change may => Or.inl may.2) h fresh calm calm' allowed
      undisturbed.1 undisturbed.2 fun _ _ _ _ _ => Or.inl rfl
  exact Pool.orderly_invariant preserves (begin_fresh plain coherent proper)
    ((begin_reaches proper).imp fun _ _ => Protocol.Reaches.follows) orderly

/-- What is cached once all is over is what the database holds. -/
theorem reads_current (plain : Plain options.cacheKey)
    (restores : ∀ value revived,
      options.revive (options.encode value) = some (some revived) → revived = value)
    (world : CacheWorld D) (coherent : Coherent options.cacheKey options.tags options.encode world)
    (accesses : List (Access D)) (proper : ∀ access ∈ accesses, access.Proper options)
    (schedule : List (Nat × Choice)) (orderly : OrderlyAccesses options world accesses schedule)
    (finished : ∀ p ∈ ((begin options world accesses).run CacheWorld.exec schedule).threads,
      ∃ result, p = .done result)
    (choices : Nat → Choice) (value : D)
    (hit : ((TaggedCacheService.get options.cacheNamespace options.key options.revive).run.eval
      CacheWorld.exec choices
      ((begin options world accesses).run CacheWorld.exec schedule).state).1 = .ok (some value)) :
    value = ((begin options world accesses).run CacheWorld.exec schedule).state.database := by
  have fresh := run_fresh plain coherent proper orderly
  have ends : List.Forall₂ ((tagProtocol (changesFirst options.tags)).Reaches fun _ g => g.isOver)
      (Pool.recallAll CacheWorld.exec (tagProtocol (changesFirst options.tags))
        (accesses.map (Access.start options)) (begin options world accesses) schedule)
      ((begin options world accesses).run CacheWorld.exec schedule).threads :=
    Pool.run_reaches (begin_reaches proper) schedule
  have idle : ∀ g ∈ Pool.recallAll CacheWorld.exec (tagProtocol (changesFirst options.tags))
      (accesses.map (Access.start options)) (begin options world accesses) schedule,
      ¬ g.willClear options.cacheKey options.tags := by
    intro g member
    obtain ⟨i, hi, rfl⟩ := List.getElem_of_mem member
    have there := ends.length_eq ▸ hi
    obtain ⟨result, done⟩ := finished _ (List.getElem_mem there)
    have idle := Pool.post_of_done ends (List.getElem?_eq_getElem hi)
      (by rw [List.getElem?_eq_getElem there, done])
    exact Memory.not_willClear idle
  obtain ⟨text, time, later, found, revived⟩ := get_hit hit
  rw [Valkey.get] at found
  split at found
  · cases found
  · rename_i text' expires alive
    cases found
    have content := fresh.content idle (live_of_later later rfl alive)
    injection content with same
    rw [same, parseJson_stringify] at revived
    exact restores _ _ revived
  · cases found

end Runs
end Accesses

def viewCount : GetOrSetOptions Int where
  cacheNamespace := units "story"
  key := units "1"
  ttl := 600
  tags := [units "stories"]
  encode := Json.int
  revive
    | .num value => (integer? value).map some
    | _ => none

def goesOn (thread calls : Nat) : List (Nat × Choice) :=
  List.replicate calls (thread, ⟨1, .performed⟩)

theorem viewCount_plain : Plain viewCount.cacheKey := by
  intro tag
  constructor
  · intro same
    have letters := congrArg (fun key => key[6]?) same
    cases letters
  · intro same
    have letters := congrArg (fun key => key[6]?) same
    cases letters

theorem viewCount_restores (value revived : Int)
    (restored : viewCount.revive (viewCount.encode value) = some (some revived)) :
    revived = value := by
  have whole : integer? (value : Rat) = some value := integer?_intCast value
  change (integer? (value : Rat)).map some = some (some revived) at restored
  rw [whole] at restored
  cases restored
  rfl

/-- A change and its sweep between two reads. -/
theorem reads_current_viewCount :
    5 = ((begin viewCount ⟨0, Valkey.empty, 4⟩
      [.read 600, .change (· + 1) (units "stories"), .read 600]).run CacheWorld.exec
        (goesOn 0 7 ++ goesOn 1 5 ++ goesOn 2 7)).state.database :=
  reads_current viewCount_plain viewCount_restores ⟨0, Valkey.empty, 4⟩ (Coherent.empty ..)
    [.read 600, .change (· + 1) (units "stories"), .read 600]
    (List.forall_mem_cons.mpr ⟨⟨by decide, by decide⟩, List.forall_mem_cons.mpr
      ⟨List.mem_singleton_self _, List.forall_mem_singleton.mpr ⟨by decide, by decide⟩⟩⟩)
    (goesOn 0 7 ++ goesOn 1 5 ++ goesOn 2 7) (by unfold OrderlyAccesses; decide)
    (by
      have done : ((begin viewCount ⟨0, Valkey.empty, 4⟩
        [.read 600, .change (· + 1) (units "stories"), .read 600]).run CacheWorld.exec
          (goesOn 0 7 ++ goesOn 1 5 ++ goesOn 2 7)).threads =
        [.done (.ok ()), .done (.ok ()), .done (.ok ())] := by rfl
      rw [done]
      intro p member
      exact ⟨.ok (), by simpa using member⟩)
    (fun _ => ⟨1, .performed⟩) 5 (by decide)

/-- The read compares the generations before the sweep and stores what it loaded before
the change after it. -/
def storesLate : List (Nat × Choice) := goesOn 0 4 ++ goesOn 1 4 ++ goesOn 0 3

theorem stale_after_storesLate :
    let pool := (begin viewCount ⟨0, Valkey.empty, 4⟩
      [.read 600, .change (· + 1) (units "stories")]).run CacheWorld.exec storesLate
    pool.threads = [.done (.ok ()), .done (.ok ())] ∧ pool.state.database = 5 ∧
      ((TaggedCacheService.get viewCount.cacheNamespace viewCount.key viewCount.revive).run.eval
        CacheWorld.exec (fun _ => ⟨1, .performed⟩) pool.state).1 = .ok (some 4) :=
  ⟨rfl, rfl, by decide⟩

end Caching
