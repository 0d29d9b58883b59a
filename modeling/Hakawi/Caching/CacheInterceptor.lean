import Hakawi.Caching.CacheDecorator
import Hakawi.Caching.FreshRuns

/-!
# The cache of the routes

Reads go through the cache, and a request that invalidates tags sweeps them before its
handler runs. A read that takes its snapshot after the sweep and loads before the
handler's change stores what the change made old.
-/

namespace Caching
open Html Common Effects

/-- A request of a cached route, and what its handler makes of the database. -/
structure CachedRequest (D : Type) where
  options : ResolvedCacheOptions
  context : CacheKeyContext
  ttl : Int
  tags : List Units
  warmTags : List Units
  respond : D → Json

/-- A request of a route with invalidated tags. -/
structure InvalidatingRequest (D : Type) where
  invalidateTags : List Units
  change : D → D

namespace CachedRequest
variable {D : Type} (request : CachedRequest D)

def key : Units := request.options.buildCacheKey request.context

/-- `[...new Set([...options.tags, ...warmTags])]` -/
def allTags : List Units := (request.tags ++ request.warmTags).eraseDups

end CachedRequest

namespace CacheInterceptor
variable {D : Type}

/-- A cache that cannot be reached is a cold one. -/
def readEntry (key : Units) : CacheCalls D (Option Text) :=
  tryCatch (send (.get key)) fun _ => return none

/-- Runs after the response is sent; what it throws is logged only. -/
def storeWithTags (key : Units) (value : Json) (ttl : Int) (tags : List Units)
    (generations : TagGenerationSnapshot) : CacheCalls D Unit :=
  tryCatch (storeUnlessInvalidated key value ttl tags generations) fun _ => return ()

def executeAndStore (request : CachedRequest D) : CacheCalls D Json := do
  let generations ← readTagGenerationSnapshot request.allTags
  let data ← readDatabase
  storeWithTags request.key (request.respond data) request.ttl request.allTags generations
  return request.respond data

/-- A corrupt entry is dropped without waiting for the answer. -/
def cached (request : CachedRequest D) : CacheCalls D Json := do
  let cachedValue ← readEntry request.key
  match cachedValue with
  | none => executeAndStore request
  | some text => match text.parseJson with
    | some parsed => return parsed
    | none =>
      tryCatch (send (.del request.key)) fun _ => return ()
      executeAndStore request

/-- The tags are invalidated, then the handler is executed. -/
def invalidateThenExecute (request : InvalidatingRequest D) : CacheCalls D Unit := do
  sweepTags request.invalidateTags
  changeDatabase request.change

end CacheInterceptor

section Protocol
variable {D : Type} {mayChange : Bool → List Units → (D → D) → Prop} {request : CachedRequest D}

def CachedRequest.read (request : CachedRequest D) : Read D :=
  ⟨request.key, request.allTags, request.ttl, request.respond⟩

theorem leads_executeAndStore :
    Leads mayChange (fun g => ∃ phase, g = .reader request.read phase)
      (.reader request.read (.reading [])) (CacheInterceptor.executeAndStore request)
      (fun _ g => ∃ phase, g = .reader request.read phase) := by
  have snapshot : Leads mayChange (fun g => ∃ phase, g = .reader request.read phase)
      (.reader request.read (.reading [])) (readTagGenerationSnapshot request.allTags)
      (fun snapshot g => ∃ generations, snapshot = some generations ∧
        g = .reader request.read (.reading generations) ∧
        generations.length = request.read.tags.length) :=
    leads_readTagGenerationSnapshot
  refine snapshot.bind ?_
  rintro _ g ⟨generations, rfl, rfl, complete⟩
  have loaded : Leads mayChange (fun g => ∃ phase, g = .reader request.read phase)
      (.reader request.read (.reading generations)) readDatabase
      (fun value g => g = .reader request.read (.checking generations value [])) :=
    .readDatabase (.load complete) (.inr ⟨_, rfl⟩) fun _ => rfl
  refine loaded.bind ?_
  rintro value g rfl
  have stores : Leads mayChange (fun g => ∃ phase, g = .reader request.read phase)
      (.reader request.read (.checking generations value []))
      (storeUnlessInvalidated request.key (request.respond value) request.ttl request.allTags
        (some generations)) (fun _ g => ∃ phase, g = .reader request.read phase) :=
    leads_storeUnlessInvalidated complete
  have stored : Leads mayChange (fun g => ∃ phase, g = .reader request.read phase)
      (.reader request.read (.checking generations value []))
      (CacheInterceptor.storeWithTags request.key (request.respond value) request.ttl
        request.allTags (some generations)) (fun _ g => ∃ phase, g = .reader request.read phase) :=
    stores.caught fun _ _ reads => .pure reads
  exact stored.bind fun _ _ reads => .pure reads

theorem leads_cached :
    Leads mayChange (fun g => ∃ phase, g = .reader request.read phase)
      (.reader request.read .start) (CacheInterceptor.cached request)
      (fun _ g => ∃ phase, g = .reader request.read phase) := by
  have looked : Leads mayChange (fun g => g = .reader request.read (.reading []))
      (.reader request.read .start) (send (.get request.key))
      (fun _ g => g = .reader request.read (.reading [])) :=
    .send (.lookUp request.read) (.inr rfl) fun _ => rfl
  have entry : Leads mayChange (fun g => ∃ phase, g = .reader request.read phase)
      (.reader request.read .start) (CacheInterceptor.readEntry request.key)
      (fun _ g => g = .reader request.read (.reading [])) :=
    looked.caught fun _ _ same => .pure same
  have dropped : Leads mayChange (fun g => g = .reader request.read (.reading []))
      (.reader request.read (.reading [])) (send (.del request.key))
      (fun _ g => g = .reader request.read (.reading [])) :=
    .send (.dropCorrupt request.read) (.inr rfl) fun _ => rfl
  refine entry.bind_at fun cachedValue => ?_
  cases cachedValue with
  | none => exact leads_executeAndStore
  | some text =>
    simp only
    split
    · exact .pure ⟨_, rfl⟩
    · have goesOn : Leads mayChange (fun g => ∃ phase, g = .reader request.read phase)
          (.reader request.read (.reading []))
          (tryCatch (send (.del request.key)) fun _ => return ())
          (fun _ g => g = .reader request.read (.reading [])) :=
        dropped.caught fun _ _ same => .pure same
      exact goesOn.bind_at fun _ => leads_executeAndStore

/-- The handler runs once nothing is left to sweep. -/
def changesLast (alter : D → D) (changed : Bool) (todo : List Units) (change : D → D) : Prop :=
  changed = false ∧ todo = [] ∧ change = alter

theorem leads_invalidateThenExecute (write : InvalidatingRequest D) :
    Leads (changesLast write.change) (fun _ => False) (.writer false write.invalidateTags none)
      (CacheInterceptor.invalidateThenExecute write) (fun _ g => g = .writer true [] none) := by
  have sweeps : Leads (changesLast write.change) (fun _ => False)
      (.writer false write.invalidateTags none) (sweepTags write.invalidateTags)
      (fun _ g => g = .writer false [] none) := leads_sweepTags write.invalidateTags
  exact sweeps.bind_at fun _ => .changeDatabase ⟨rfl, rfl, rfl⟩ rfl

end Protocol

/-! ### One write among reads -/

section Interleaving
variable {D : Type} (write : InvalidatingRequest D) (reads : List (CachedRequest D))

/-- The write is the first thread. -/
def requests (world : CacheWorld D) :
    Pool (CacheWorld D) (CacheCall D) CacheResult (Except Failure Unit) :=
  ⟨world, (CacheInterceptor.invalidateThenExecute write).run :: reads.map fun request =>
    (do let _ ← CacheInterceptor.cached request : CacheCalls D Unit).run⟩

def requestsMemory : List (Memory D) :=
  .writer false write.invalidateTags none :: reads.map fun request => .reader request.read .start

/-- A read that loads what the handler has not changed yet will not store it. -/
def LoadsChanged (new : D) (world : CacheWorld D) (memory : List (Memory D)) :
    Memory D → CacheCall D → Prop
  | .reader read (.reading generations), .readDatabase => world.database = new ∨
    (∃ g ∈ memory, g.willSweep read.tags ∨ g.sweeps read.tags) ∨
      Moved world.store read.tags generations
  | _, _ => True

def OrderlyRequests (world : CacheWorld D) (schedule : List (Nat × Choice)) : Prop :=
  Pool.Orderly CacheWorld.exec (tagProtocol (changesLast write.change))
    (fun choice now memory g call => Undisturbed choice now g call ∧
      LoadsChanged (write.change world.database) now memory g call) Calm schedule
    (requestsMemory write reads) (requests write reads world)

/-- What a request needs of the store that it finds. -/
structure CachedRequest.Served (store : Valkey Units) (request : CachedRequest D) : Prop where
  plain : Plain request.key
  textual : Textual store request.key
  positive : 0 < request.ttl
  within : request.ttl ≤ TAG_INDEX_TTL_SECONDS

variable {write reads} {world : CacheWorld D} {schedule : List (Nat × Choice)}

theorem requests_reach :
    List.Forall₂ ((tagProtocol (changesLast write.change)).Reaches fun _ g => g.isOver)
      (requestsMemory write reads) (requests write reads world).threads := by
  refine .cons ?_ (List.forall₂_map_left_iff.mpr (List.forall₂_map_right_iff.mpr ?_))
  · refine Program.wp_mono (tagProtocol _).spec_monotone (fun result g ends => ?_)
      (leads_invalidateThenExecute write)
    rcases ends with rfl | ⟨-, -, rfl⟩ | ⟨-, -, never⟩
    · trivial
    · exact ⟨rfl, rfl⟩
    · exact never.elim
  · refine List.forall₂_same.mpr fun request _ => ?_
    have returns : Leads (changesLast write.change)
        (fun g => ∃ phase, g = .reader request.read phase) (.reader request.read .start)
        (do let _ ← CacheInterceptor.cached request : CacheCalls D Unit)
        (fun _ g => ∃ phase, g = .reader request.read phase) :=
      leads_cached.bind fun _ _ reads => .pure reads
    refine Program.wp_mono (tagProtocol _).spec_monotone (fun result g ends => ?_) returns
    rcases ends with rfl | ⟨-, -, phase, rfl⟩ | ⟨-, -, phase, rfl⟩
    all_goals trivial

variable {key : Units} {tags : List Units} {respond : D → Json}

theorem requests_fresh (served : ∀ request ∈ reads, request.Served world.store)
    (alike : ∀ request ∈ reads, request.key = key →
      request.allTags = tags ∧ request.respond = respond)
    (coherent : Coherent key tags respond world)
    (invalidated : ∃ tag ∈ write.invalidateTags, tag ∈ tags) :
    Fresh key tags respond (fun _ => respond (write.change world.database)) world
      (requestsMemory write reads) := by
  refine coherent.fresh (fun read phase member => ?_) (fun changed todo current member => ?_)
    (fun member => ?_) (Or.inr ⟨_, List.mem_cons_self, invalidated⟩)
  · rcases List.mem_cons.mp member with never | member
    · cases never
    · obtain ⟨request, belongs, same⟩ := List.mem_map.mp member
      cases same
      obtain ⟨plain, textual, positive, within⟩ := served request belongs
      exact ⟨rfl, plain, textual, positive, within, alike request belongs⟩
  · rcases List.mem_cons.mp member with same | member
    · cases same
      rfl
    · obtain ⟨request, -, never⟩ := List.mem_map.mp member
      cases never
  · rcases List.mem_cons.mp member with never | member
    · cases never
    · obtain ⟨request, -, never⟩ := List.mem_map.mp member
      cases never

theorem run_requests_fresh (plain : Plain key)
    (served : ∀ request ∈ reads, request.Served world.store)
    (alike : ∀ request ∈ reads, request.key = key →
      request.allTags = tags ∧ request.respond = respond)
    (coherent : Coherent key tags respond world)
    (invalidated : ∃ tag ∈ write.invalidateTags, tag ∈ tags)
    (orderly : OrderlyRequests write reads world schedule) :
    Fresh key tags respond (fun _ => respond (write.change world.database))
      ((requests write reads world).run CacheWorld.exec schedule).state
      (Pool.recallAll CacheWorld.exec (tagProtocol (changesLast write.change))
        (requestsMemory write reads) (requests write reads world) schedule) := by
  have preserves : ∀ (choice : Choice) (now : CacheWorld D) (memory : List (Memory D)) (i : Nat)
      (g : Memory D) (call : CacheCall D), memory[i]? = some g →
      Fresh key tags respond (fun _ => respond (write.change world.database)) now memory →
      Calm memory → Calm (memory.set i (g.next call (now.exec choice call).1)) →
      Allowed (changesLast write.change) g call →
      (Undisturbed choice now g call ∧
        LoadsChanged (write.change world.database) now memory g call) →
      Fresh key tags respond (fun _ => respond (write.change world.database))
        (now.exec choice call).2 (memory.set i (g.next call (now.exec choice call).1)) := by
    intro choice now memory i g call h fresh calm calm' allowed ⟨undisturbed, changed⟩
    refine fresh_step plain (fun _ _ _ _ => Or.inr fun _ => rfl) h fresh calm calm' allowed
      undisturbed.1 undisturbed.2 ?_
    rintro rfl read generations rfl mine
    obtain ⟨proper, -⟩ := fresh.sound _ (List.mem_of_getElem? h)
    obtain ⟨rfl, -⟩ := proper.same mine
    rcases changed with new | clears | moved
    · exact Or.inl (by rw [new])
    · exact Or.inr (Or.inl clears)
    · exact Or.inr (Or.inr moved)
  exact Pool.orderly_invariant preserves (requests_fresh served alike coherent invalidated)
    (requests_reach.imp fun _ _ => Protocol.Reaches.follows) orderly

/-- Only the write sweeps. -/
theorem read_stays {g : Memory D} {call : CacheCall D} {result : CacheResult call}
    (reads : ∀ changed todo current, g ≠ .writer changed todo current) :
    ∀ changed todo current, g.next call result ≠ .writer changed todo current := by
  intro changed todo current same
  cases g with
  | writer changed' todo' current' => exact reads _ _ _ rfl
  | broken =>
    rw [Memory.next_broken] at same
    cases same
  | reader read phase =>
    cases call with
    | valkey command =>
      cases result with
      | error e => cases phase <;> cases command <;> cases same
      | ok answer => rcases phase with _ | _ | _ | ⟨_, _ | _⟩ <;> cases command <;> cases same
    | readDatabase => cases result <;> cases phase <;> cases same
    | changeDatabase change => cases result <;> cases phase <;> cases same

/-- Once the write is over, nothing that carries one of its tags is older than it. -/
theorem no_stale_response (write : InvalidatingRequest D) (reads : List (CachedRequest D))
    (world : CacheWorld D) (schedule : List (Nat × Choice)) (key : Units) (tags : List Units)
    (respond : D → Json) (entry : Entry Units) (plain : Plain key)
    (served : ∀ request ∈ reads, request.Served world.store)
    (alike : ∀ request ∈ reads, request.key = key →
      request.allTags = tags ∧ request.respond = respond)
    (coherent : Coherent key tags respond world)
    (invalidated : ∃ tag ∈ write.invalidateTags, tag ∈ tags)
    (orderly : OrderlyRequests write reads world schedule)
    (completed : ∃ result, ((requests write reads world).run CacheWorld.exec schedule).threads[0]? =
      some (.done result))
    (cached : ((requests write reads world).run CacheWorld.exec schedule).state.store.live
      ((requests write reads world).run CacheWorld.exec schedule).state.clock key = some entry) :
    entry.content = .text (stringify (respond (write.change world.database))) := by
  have fresh := run_requests_fresh plain served alike coherent invalidated orderly
  refine fresh.content (fun g member => ?_) cached
  obtain ⟨i, hi, rfl⟩ := List.getElem_of_mem member
  have remembers := List.getElem?_eq_getElem hi
  cases i with
  | zero =>
    obtain ⟨result, done⟩ := completed
    have ends : List.Forall₂ ((tagProtocol (changesLast write.change)).Reaches fun _ g => g.isOver)
        (Pool.recallAll CacheWorld.exec (tagProtocol (changesLast write.change))
          (requestsMemory write reads) (requests write reads world) schedule)
        ((requests write reads world).run CacheWorld.exec schedule).threads :=
      Pool.run_reaches requests_reach schedule
    have finished := Pool.post_of_done ends remembers done
    exact Memory.not_willClear finished
  | succ i =>
    have reader := Pool.recallAll_kept CacheWorld.exec (tagProtocol (changesLast write.change))
      (p := fun g => ∀ changed todo current, g ≠ .writer changed todo current)
      (fun _ _ _ => read_stays) (i := i + 1) (fun g found => ?_) schedule _ _ remembers
    · cases kind : (Pool.recallAll CacheWorld.exec (tagProtocol (changesLast write.change))
        (requestsMemory write reads) (requests write reads world) schedule)[i + 1] with
      | writer changed todo current => exact absurd kind (reader changed todo current)
      | reader read phase => rintro (never | never) <;> cases never
      | broken => rintro (never | never) <;> cases never
    · obtain ⟨request, -, rfl⟩ := List.mem_map.mp (List.mem_of_getElem? found)
      exact nofun

end Interleaving

instance {D : Type} (tags : List Units) : DecidablePred (Memory.willSweep (D := D) tags)
  | .writer _ todo _ => inferInstanceAs (Decidable (∃ tag ∈ todo, tag ∈ tags))
  | .reader _ _ | .broken => isFalse id

instance {D : Type} (tags : List Units) : DecidablePred (Memory.sweeps (D := D) tags) :=
  fun g => inferInstanceAs (Decidable (∃ tag ∈ g.sweeping, tag ∈ tags))

instance (store : Valkey Units) (tags : List Units) (generations : List Text) :
    Decidable (Moved store tags generations) :=
  decidable_of_iff ((tags.zip generations).any fun (tag, text) => match text with
    | .integer n => decide (n < generation store tag)
    | _ => false) (by
      rw [List.any_eq_true]
      refine exists_congr fun p => and_congr_right fun _ => ?_
      obtain ⟨tag, text⟩ := p
      cases text <;> simp)

instance {D : Type} [DecidableEq D] (new : D) (world : CacheWorld D) (memory : List (Memory D))
    (g : Memory D) (call : CacheCall D) : Decidable (LoadsChanged new world memory g call) := by
  refine decidable_of_iff ((match g, call with
    | .reader read (.reading generations), .readDatabase => decide (world.database = new ∨
        (∃ g ∈ memory, g.willSweep read.tags ∨ g.sweeps read.tags) ∨
          Moved world.store read.tags generations)
    | _, _ => true) = true) ?_
  unfold LoadsChanged
  split <;> simp

def listStories : CachedRequest Int where
  options := ⟨units "stories", [], none⟩
  context := ⟨fun _ => none, none, fun _ => none, none, units "StoriesController.list"⟩
  ttl := 300
  tags := [units "stories"]
  warmTags := []
  respond := Json.int

def publishStory : InvalidatingRequest Int := ⟨[units "stories"], (· + 1)⟩

def calls (thread number : Nat) : List (Nat × Choice) :=
  List.replicate number (thread, ⟨1, .performed⟩)

theorem listStories_served : listStories.Served Valkey.empty := by
  refine ⟨fun tag => ⟨?_, ?_⟩, nofun, by decide, by decide⟩
  · intro same
    have letters := congrArg (fun key => key[6]?) same
    cases letters
  · intro same
    have letters := congrArg (fun key => key[6]?) same
    cases letters

/-- A write between two reads. -/
theorem no_stale_response_listStories :
    (Content.text (.integer 5) : Content Units) =
      .text (stringify (listStories.respond (publishStory.change 4))) :=
  no_stale_response publishStory [listStories, listStories] ⟨0, Valkey.empty, 4⟩
    (calls 1 7 ++ calls 0 5 ++ calls 2 7) listStories.key [units "stories"] listStories.respond
    ⟨.text (.integer 5), some 300017⟩ listStories_served.plain
    (List.forall_mem_cons.mpr ⟨listStories_served, List.forall_mem_singleton.mpr listStories_served⟩)
    (List.forall_mem_cons.mpr ⟨fun _ => ⟨rfl, rfl⟩, List.forall_mem_singleton.mpr fun _ => ⟨rfl, rfl⟩⟩)
    (Coherent.empty ..) ⟨units "stories", List.mem_singleton_self _, List.mem_singleton_self _⟩
    (by unfold OrderlyRequests; decide) ⟨.ok (), rfl⟩ rfl

/-- The read takes its snapshot after the sweep and loads before the handler's change. -/
theorem stale_response_stays :
    let pool := (requests publishStory [listStories] ⟨0, Valkey.empty, 4⟩).run CacheWorld.exec
      (calls 0 3 ++ calls 1 7 ++ calls 0 1)
    pool.threads = [.done (.ok ()), .done (.ok ())] ∧ pool.state.database = 5 ∧
      pool.state.store.live pool.state.clock listStories.key =
        some ⟨.text (stringify (listStories.respond 4)), some 300008⟩ :=
  ⟨rfl, rfl, rfl⟩

end Caching
