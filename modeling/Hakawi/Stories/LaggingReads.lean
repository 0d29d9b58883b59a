import Hakawi.Stories.Errands
import Hakawi.Stories.Replicas

/-!
# Old rows in the cache

What a change of a story makes old, and where old rows may stand while the operation that has
made the change goes on: under the keys that it has still to drop. A read that is served by a
replica behind the change, once they are dropped, puts an old row back.
-/

namespace Stories
open Html Common Effects Caching

/-- Which thread has changed which row, and how many states there were before. -/
structure Change where
  thread : Nat
  key : Nat
  index : Nat

/-- No state since the change has this row. -/
def RoutedWorld.Older (routed : RoutedWorld) (change : Change) (row : Story) : Prop :=
  row.id = change.key ∧
    ∀ db ∈ routed.history.drop change.index, db.stories.find? change.key ≠ some row

instance (routed : RoutedWorld) (change : Change) (row : Story) :
    Decidable (routed.Older change row) :=
  inferInstanceAs (Decidable (_ ∧ _))

/-- The thread has still to drop a text. -/
def Owes (memory : List Errand) (thread : Nat) (text : Units) : Prop :=
  ∃ g ∈ memory[thread]?, text ∈ g.owed

/-- The thread has deleted the key of a text and has still to raise the generation. -/
def Raises (memory : List Errand) (thread : Nat) (text : Units) : Prop :=
  ∃ g ∈ memory[thread]?, g.raising = some text

/-- The generation that a read has seen is not the present one. -/
def RoutedWorld.Moved (routed : RoutedWorld) (seen : Text) : Prop :=
  seen ≠ .integer (generation routed.world.cache STORIES_CACHE_TAG)

section Steady

/-- What a thread remembers of the store is, or was, so. -/
def Errand.Sound (store : Valkey Units) : Errand → Prop
  | .change _ _ _ (some (some keys)) => ∀ key ∈ keys, Plain key
  | .read _ (.loading (some seen)) | .read _ (.checking seen _) =>
    ∃ n ≤ generation store STORIES_CACHE_TAG, seen = .integer n
  | _ => True

structure Steady (routed : RoutedWorld) (memory : List Errand) : Prop where
  kept : WellKept routed.world.cache
  sound : ∀ g ∈ memory, g.Sound routed.world.cache

variable {ids : UuidText} {texts : JsonTexts} {routing : Routing} {routed : RoutedWorld}
  {memory : List Errand} {g : Errand} {text : Units} {row : Story}

theorem plain_storyKey (text : Units) : Plain (storyKey text) :=
  fun tag => ⟨fun same => isStoryKey_apart.index tag ⟨text, same.symm⟩,
    fun same => isStoryKey_apart.generation tag ⟨text, same.symm⟩⟩

theorem tame_of_allowed {command : Command Units} {store : Valkey Units}
    (allowed : Allowed ids texts g (.cache command)) (sound : g.Sound store) : Tame command := by
  cases allowed with
  | readIndex => exact .smembers _
  | delete slug owed raising key keys => exact .del (sound key List.mem_cons_self)
  | deleteIndex => exact .delIndex _
  | bump => exact .incr _
  | drop => exact .del (plain_storyKey _)
  | unlist => exact .srem _ _
  | raise => exact .incr _
  | lookUp => exact .get _
  | dropCorrupt => exact .del (plain_storyKey _)
  | snapshot => exact .get _
  | compare => exact .get _
  | store => exact .set (plain_storyKey _) _ _
  | list => exact .sadd _ (plain_storyKey _)
  | extend => exact .expire _ _

variable (ids routing routed) in
/-- A command is refused, or the store carries it out. -/
theorem cache_exec (command : Command Units) :
    (routing.refuses (.cache command) ≠ none ∧
      (routed.exec ids routing (.cache command)).1 = .error disconnected ∧
      (routed.exec ids routing (.cache command)).2.world.store =
        ⟨routed.world.clock + routing.elapsed, routed.world.cache⟩) ∨
    (routing.refuses (.cache command) = none ∧
      (routed.exec ids routing (.cache command)).1 =
        (routed.world.cache.exec (routed.world.clock + routing.elapsed) command).1 ∧
      (routed.exec ids routing (.cache command)).2.world.store =
        routed.world.store.sent routing.elapsed command) := by
  change (_ ∧ (World.exec ids routing.toChoice routed.world (.cache command)).1 = _ ∧
    (World.exec ids routing.toChoice routed.world (.cache command)).2.store = _) ∨ (_ ∧
    (World.exec ids routing.toChoice routed.world (.cache command)).1 = _ ∧
    (World.exec ids routing.toChoice routed.world (.cache command)).2.store = _)
  simp only [World.exec]
  cases routing.refuses (.cache command) with
  | some code => exact Or.inl ⟨(by simp), rfl, rfl⟩
  | none => exact Or.inr ⟨rfl, rfl, rfl⟩

variable (ids routing routed) in
/-- What a call makes of the store. -/
theorem cache_cases (call : Call) :
    (routed.exec ids routing call).2.world.store =
        ⟨routed.world.clock + routing.elapsed, routed.world.cache⟩ ∨
    ∃ command, call = .cache command ∧ (routed.exec ids routing call).2.world.store =
        routed.world.store.sent routing.elapsed command := by
  cases call with
  | cache command =>
    rcases cache_exec ids routing routed command with
      ⟨-, -, still⟩ | ⟨-, -, sent⟩
    · exact Or.inl still
    · exact Or.inr ⟨command, rfl, sent⟩
  | now => exact Or.inl (routed_store_exec (fun _ => by simp))
  | emit event => exact Or.inl (routed_store_exec (fun _ => by simp))
  | sql statement => exact Or.inl (routed_store_exec (fun _ => by simp))

variable (routing) in
theorem Steady.kept_exec {call : Call} (kept : WellKept routed.world.cache)
    (allowed : Allowed ids texts g call) (sound : g.Sound routed.world.cache) :
    WellKept (routed.exec ids routing call).2.world.cache ∧
      ∀ tag, generation routed.world.cache tag ≤
        generation (routed.exec ids routing call).2.world.cache tag := by
  rcases cache_cases ids routing routed call with same | ⟨command, rfl, sent⟩
  · have cache : (routed.exec ids routing call).2.world.cache = routed.world.cache :=
      congrArg StoreState.store same
    rw [cache]
    exact ⟨kept, fun _ => le_refl _⟩
  · have cache : (routed.exec ids routing (.cache command)).2.world.cache =
        (routed.world.cache.exec (routed.world.clock + routing.elapsed) command).2 :=
      congrArg StoreState.store sent
    have tame := tame_of_allowed allowed sound
    rw [cache]
    exact ⟨kept.exec _ tame, kept.generation_le_exec _ tame⟩

theorem Errand.Sound.frame {store store' : Valkey Units} (sound : g.Sound store)
    (grows : generation store STORIES_CACHE_TAG ≤ generation store' STORIES_CACHE_TAG) :
    g.Sound store' := by
  have later {seen : Text} (was : ∃ n ≤ generation store STORIES_CACHE_TAG, seen = .integer n) :
      ∃ n ≤ generation store' STORIES_CACHE_TAG, seen = .integer n := by
    obtain ⟨n, below, same⟩ := was
    exact ⟨n, below.trans grows, same⟩
  cases g with
  | change slug owed raising sweep => rcases sweep with _ | _ | keys <;> exact sound
  | read text filling =>
    cases filling with
    | loading seen =>
      cases seen with
      | none => trivial
      | some seen => exact later sound
    | checking seen row => exact later sound
    | _ => trivial

theorem sound_found {store : Valkey Units} {seen : Option Text}
    (sound : (Errand.read text (.loading seen)).Sound store) :
    ((Errand.read text (.loading seen)).found row).Sound store := by
  rw [Errand.found]
  split
  · trivial
  · cases seen with
    | none => trivial
    | some seen => exact sound

/-- What a thread learns is so. -/
theorem sound_next {call : Call} (kept : WellKept routed.world.cache)
    (allowed : Allowed ids texts g call) (sound : g.Sound routed.world.cache) :
    (g.next call (routed.exec ids routing call).1).Sound
      (routed.exec ids routing call).2.world.cache := by
  have grows := (Steady.kept_exec routing kept allowed sound).2 STORIES_CACHE_TAG
  cases allowed with
  | now => exact sound.frame grows
  | emit => exact sound.frame grows
  | @ask slug owed raising sweep statement reads =>
    obtain ⟨slug', same⟩ := next_asked slug owed raising sweep reads (routed.exec ids routing (.sql statement)).1
    rw [same]
    have still := sound.frame grows
    rcases sweep with _ | _ | keys <;> exact still
  | @write slug statement id writes =>
    generalize (routed.exec ids routing (.sql statement)).1 = result
    cases result with
    | error e => trivial
    | ok answer => cases statement <;> cases writes <;> trivial
  | readIndex slug owed raising tag =>
    rcases cache_exec ids routing routed
      (.smembers (tagIndexKey tag)) with ⟨-, refused, -⟩ | ⟨-, answered, -⟩
    · rw [refused]
      trivial
    · obtain ⟨keys, members, plain, -⟩ :=
        kept.smembers (routed.world.clock + routing.elapsed) tag
      rw [answered, Valkey.exec, members]
      exact plain
  | delete slug owed raising key keys =>
    generalize (routed.exec ids routing (.cache (.del key))).1 = result
    cases result with
    | error e => trivial
    | ok answer => exact fun key member => sound key (List.mem_cons_of_mem _ member)
  | snapshot text =>
    rcases cache_exec ids routing routed
      (.get (tagGenerationKey STORIES_CACHE_TAG)) with ⟨-, refused, -⟩ | ⟨-, answered, -⟩
    · rw [refused]
      trivial
    · obtain ⟨answer, got, reads⟩ :=
        kept.get_generation (routed.world.clock + routing.elapsed) STORIES_CACHE_TAG
      rw [answered, Valkey.exec, got]
      exact ⟨_, grows, reads⟩
  | loadById text seen id =>
    have still := sound.frame grows
    generalize (routed.exec ids routing (.sql (.storyById id))).1 = result
    rcases result with e | _ | row
    · exact still
    · exact still
    · exact sound_found still
  | loadBySlug text seen slug =>
    have still := sound.frame grows
    generalize (routed.exec ids routing (.sql (.storyBySlug slug))).1 = result
    rcases result with e | _ | row
    · exact still
    · exact still
    · exact sound_found still
  | compare text seen row =>
    generalize (routed.exec ids routing (.cache (.get _))).1 = result
    rcases result with e | answer
    · trivial
    · change (if _ then _ else _ : Errand).Sound _
      split <;> trivial
  | deleteIndex | bump | drop | unlist | raise | lookUp | dropCorrupt | store | list | extend =>
    generalize RoutedWorld.exec ids routing routed _ = ended
    obtain ⟨result, after⟩ := ended
    cases result <;> trivial

theorem Steady.exec {call : Call} {i : Nat} (steady : Steady routed memory)
    (remembers : memory[i]? = some g) (allowed : Allowed ids texts g call) :
    Steady (routed.exec ids routing call).2
      (memory.set i (g.next call (routed.exec ids routing call).1)) := by
  have sound := steady.sound g (List.mem_of_getElem? remembers)
  obtain ⟨kept, grows⟩ := Steady.kept_exec routing steady.kept allowed sound
  exact ⟨kept, Pool.forall_mem_set (fun g' member => (steady.sound g' member).frame (grows _))
    (sound_next steady.kept allowed sound)⟩

theorem live_sent_del (state : StoreState) (elapsed : Nat) (key : Units) :
    (state.sent elapsed (.del key)).live key = none := by
  rw [StoreState.live, StoreState.sent, Valkey.exec, Valkey.live, Valkey.del,
    Valkey.put_entries_self]
  rfl

/-- What is cached was cached, unless it is the row that a read has just put there. -/
theorem cached_exec {call : Call} (allowed : Allowed ids texts g call)
    (cached : (routed.exec ids routing call).2.world.Cached ids texts text row) :
    routed.world.Cached ids texts text row ∨ g = .read text (.storing row) := by
  obtain ⟨e, content, found, holds, revived⟩ := cached
  have later : routed.world.clock ≤ routed.world.clock + routing.elapsed := by omega
  rcases cache_cases ids routing routed call with same | ⟨command, rfl, sent⟩
  · rw [same] at found
    exact Or.inl ⟨e, content, StoreState.live_of_later later found, holds, revived⟩
  rw [sent] at found
  by_cases own : storyKey text = command.key
  · cases allowed with
    | readIndex | lookUp | snapshot | compare =>
      exact Or.inl ⟨e, content, StoreState.live_of_later later found, holds, revived⟩
    | delete | drop | dropCorrupt =>
      cases (live_sent_del _ _ _).symm.trans (own ▸ found)
    | deleteIndex | unlist | list | extend => exact absurd own (plain_storyKey text _).1
    | bump | raise => exact absurd own (plain_storyKey text _).2
    | store text' row' =>
      cases storyKey_injective own
      have stored := (Valkey.live_eq_some.mp found).1
      change (routed.world.cache.put (storyKey text) _).entries (storyKey text) = some e at stored
      rw [Valkey.put_entries_self] at stored
      cases stored
      cases holds
      rw [parseJson_stringify] at revived
      cases reviveStoryDates_stringify revived
      exact Or.inr rfl
  · have stood := Valkey.live_eq_some.mp found
    rw [StoreState.sent_frame _ _ _ own] at stood
    exact Or.inl ⟨e, content, StoreState.live_of_later later (Valkey.live_eq_some.mpr stood),
      holds, revived⟩

end Steady

section Accounts
variable (ids : UuidText) (texts : JsonTexts) (change : Change)

/-- Old rows stand, and are held by reads, under texts that the thread has still to drop. -/
structure Accounted (routed : RoutedWorld) (memory : List Errand) : Prop where
  cached : ∀ text row, routed.world.Cached ids texts text row → routed.Older change row →
    Owes memory change.thread text
  checking : ∀ text seen row, .read text (.checking seen row) ∈ memory →
    routed.Older change row →
    Owes memory change.thread text ∨ Raises memory change.thread text ∨ routed.Moved seen
  storing : ∀ text row, .read text (.storing row) ∈ memory → routed.Older change row →
    Owes memory change.thread text

/-- A call comes in time for the change: a read that finds an old row, wherever it is sent, finds
it while its text is to be dropped, or the generation is to be raised; it compares the generations
of an old row not between the two; and its key is not deleted between its comparison and its
store. -/
def Timely (thread : Nat) (routing : Routing) (routed : RoutedWorld) (memory : List Errand)
    (g : Errand) (call : Call) : Prop :=
  routing.refuses call = none → match g, call with
  | .read text (.loading seen), .sql statement =>
    ∀ row ∈ statement.finds ids (routed.served routing), row.deletedAt = none →
      routed.Older change row → Owes memory change.thread text ∨
        ∃ value ∈ seen, Raises memory change.thread text ∨ routed.Moved value
  | .read text (.checking seen row), .cache (.get _) =>
    routed.Older change row → Raises memory change.thread text → routed.Moved seen
  | .change _ (text :: _) none none, .cache (.del _) => thread = change.thread →
    ∀ g ∈ memory, match g with
      | .read text' (.storing row) => text' = text → ¬ routed.Older change row
      | _ => True
  | _, _ => True

variable {ids texts change} {routing : Routing} {routed after : RoutedWorld}
  {memory : List Errand} {g g' : Errand} {text : Units} {row : Story} {j : Nat}

theorem older_exec {call : Call} (older : (routed.exec ids routing call).2.Older change row) :
    routed.Older change row := by
  refine ⟨older.1, fun db member => older.2 db ?_⟩
  rcases history_exec ids routing routed call with
    same | ⟨database, more⟩
  · rwa [same]
  · rw [more, List.drop_append]
    exact List.mem_append_left _ member

theorem Owes.set (owes : Owes memory change.thread text) (remembers : memory[j]? = some g)
    (keeps : j = change.thread → text ∈ g.owed → text ∈ g'.owed) :
    Owes (memory.set j g') change.thread text := by
  obtain ⟨h, mine, owed⟩ := owes
  rw [Owes, Pool.getElem?_set_of_some remembers]
  by_cases same : change.thread = j
  · rw [if_pos same]
    subst same
    cases remembers.symm.trans mine
    exact ⟨g', rfl, keeps rfl owed⟩
  · rw [if_neg same]
    exact ⟨h, mine, owed⟩

theorem Raises.set (raises : Raises memory change.thread text) (remembers : memory[j]? = some g)
    (keeps : j = change.thread → g.raising = some text → g'.raising = some text) :
    Raises (memory.set j g') change.thread text := by
  obtain ⟨h, mine, raising⟩ := raises
  rw [Raises, Pool.getElem?_set_of_some remembers]
  by_cases same : change.thread = j
  · rw [if_pos same]
    subst same
    cases remembers.symm.trans mine
    exact ⟨g', rfl, keeps rfl raising⟩
  · rw [if_neg same]
    exact ⟨h, mine, raising⟩

theorem RoutedWorld.Moved.grow {seen : Text} (moved : routed.Moved seen)
    (was : ∃ n ≤ generation routed.world.cache STORIES_CACHE_TAG, seen = .integer n)
    (grows : generation routed.world.cache STORIES_CACHE_TAG ≤
      generation after.world.cache STORIES_CACHE_TAG) : after.Moved seen := by
  obtain ⟨n, below, rfl⟩ := was
  intro same
  injection same with same
  refine moved (congrArg Text.integer ?_)
  omega

/-- A call that takes nothing off what the thread owes. -/
theorem Accounted.moves (accounted : Accounted ids texts change routed memory)
    (steady : Steady routed memory) (remembers : memory[j]? = some g)
    (older : ∀ row, after.Older change row → routed.Older change row)
    (grows : generation routed.world.cache STORIES_CACHE_TAG ≤
      generation after.world.cache STORIES_CACHE_TAG)
    (owed : j = change.thread → ∀ text, text ∈ g.owed → text ∈ g'.owed)
    (raising : j = change.thread → ∀ text, g.raising = some text → g'.raising = some text)
    (cached : ∀ text row, after.world.Cached ids texts text row →
      routed.world.Cached ids texts text row ∨ g = .read text (.storing row))
    (checks : ∀ text seen row, g' = .read text (.checking seen row) → routed.Older change row →
      Owes memory change.thread text ∨ Raises memory change.thread text ∨ routed.Moved seen)
    (seen : ∀ text seen row, g' = .read text (.checking seen row) →
      ∃ n ≤ generation routed.world.cache STORIES_CACHE_TAG, seen = .integer n)
    (stores : ∀ text row, g' = .read text (.storing row) → routed.Older change row →
      Owes memory change.thread text) :
    Accounted ids texts change after (memory.set j g') := by
  have owes {text : Units} (was : Owes memory change.thread text) :
      Owes (memory.set j g') change.thread text :=
    was.set remembers fun same => owed same text
  have checked {text : Units} {s : Text} (was : Owes memory change.thread text ∨
      Raises memory change.thread text ∨ routed.Moved s)
      (taken : ∃ n ≤ generation routed.world.cache STORIES_CACHE_TAG, s = .integer n) :
      Owes (memory.set j g') change.thread text ∨ Raises (memory.set j g') change.thread text ∨
        after.Moved s := by
    rcases was with was | was | moved
    · exact Or.inl (owes was)
    · exact Or.inr (Or.inl (was.set remembers fun same => raising same text))
    · exact Or.inr (Or.inr (moved.grow taken grows))
  refine ⟨fun text row here old => ?_, fun text s row member old => ?_,
    fun text row member old => ?_⟩
  · rcases cached text row here with there | rfl
    · exact owes (accounted.cached text row there (older row old))
    · exact owes (accounted.storing text row (List.mem_of_getElem? remembers) (older row old))
  · rcases List.mem_or_eq_of_mem_set member with before | new
    · exact checked (accounted.checking text s row before (older row old))
        (steady.sound _ before)
    · exact checked (checks text s row new.symm (older row old)) (seen text s row new.symm)
  · rcases List.mem_or_eq_of_mem_set member with before | new
    · exact owes (accounted.storing text row before (older row old))
    · exact owes (stores text row new.symm (older row old))

/-- A call of an operation that takes nothing off what it owes. -/
theorem Accounted.keeps {call : Call} {slug : Option Units} {owed : List Units}
    {raising : Option Units} {sweep : Option (Option (List Units))}
    (accounted : Accounted ids texts change routed memory) (steady : Steady routed memory)
    (remembers : memory[j]? = some g) (allowed : Allowed ids texts g call)
    (more : j = change.thread → ∀ text, text ∈ g.owed → text ∈ owed)
    (still : j = change.thread → ∀ text, g.raising = some text → raising = some text) :
    Accounted ids texts change (routed.exec ids routing call).2
      (memory.set j (.change slug owed raising sweep)) := by
  have sound := steady.sound g (List.mem_of_getElem? remembers)
  exact accounted.moves steady remembers (fun row => older_exec)
    ((Steady.kept_exec routing steady.kept allowed sound).2 _) more still
    (fun text row => cached_exec allowed) (fun _ _ _ never => by cases never)
    (fun _ _ _ never => by cases never) fun _ _ never => by cases never

/-- A call of a read that does not come to hold a row by it. -/
theorem Accounted.reads {call : Call} {filling filling' : Filling}
    (accounted : Accounted ids texts change routed memory) (steady : Steady routed memory)
    (remembers : memory[j]? = some (.read text filling))
    (allowed : Allowed ids texts (.read text filling) call)
    (empty : filling'.held = none) :
    Accounted ids texts change (routed.exec ids routing call).2
      (memory.set j (.read text filling')) := by
  have sound := steady.sound _ (List.mem_of_getElem? remembers)
  refine accounted.moves steady remembers (fun row => older_exec)
    ((Steady.kept_exec routing steady.kept allowed sound).2 _) (fun _ _ => by rintro ⟨⟩)
    (fun _ _ => by rintro ⟨⟩)
    (fun text row => cached_exec allowed) (fun _ seen row same => ?_) (fun _ seen row same => ?_)
    fun _ row same => ?_
  · cases same
    cases empty
  · cases same
    cases empty
  · cases same
    cases empty

/-- The key is gone, and so is what stood there. -/
theorem Accounted.dropped {slug : Option Units} {owed : List Units}
    (accounted : Accounted ids texts change routed memory) (steady : Steady routed memory)
    (remembers : memory[j]? = some (.change slug (text :: owed) none none))
    (calm : routing.refuses (.cache (.del (storyKey text))) = none)
    (timely : Timely ids change j routing routed memory (.change slug (text :: owed) none none)
      (.cache (.del (storyKey text)))) :
    Accounted ids texts change (routed.exec ids routing (.cache (.del (storyKey text)))).2
      (memory.set j (.change slug owed (some text) none)) := by
  have allowed : Allowed ids texts (.change slug (text :: owed) none none) _ := .drop slug text owed
  by_cases mine : j = change.thread
  · subst mine
    have sound := steady.sound _ (List.mem_of_getElem? remembers)
    have grows := (Steady.kept_exec routing steady.kept allowed sound).2
      STORIES_CACHE_TAG
    have left {t : Units} (owes : Owes memory change.thread t) (other : t ≠ text) :
        Owes (memory.set change.thread (.change slug owed (some text) none)) change.thread t :=
      owes.set remembers fun _ member => (List.mem_cons.mp member).resolve_left other
    refine ⟨fun t row cached old => ?_, fun t seen row member old => ?_,
      fun t row member old => ?_⟩
    · refine left ?_ ?_
      · rcases cached_exec allowed cached with there | never
        · exact accounted.cached t row there (older_exec old)
        · cases never
      · rintro rfl
        obtain ⟨e, content, found, -⟩ := cached
        rcases cache_exec ids routing routed
          (.del (storyKey t)) with ⟨refused, -⟩ | ⟨-, -, sent⟩
        · exact refused calm
        · rw [sent, live_sent_del] at found
          cases found
    · have before := List.mem_or_eq_of_mem_set member
      rcases before with before | never
      · by_cases same : t = text
        · subst same
          refine Or.inr (Or.inl ?_)
          exact ⟨_, by rw [Pool.getElem?_set_of_some remembers, if_pos rfl]; rfl, rfl⟩
        · rcases accounted.checking t seen row before (older_exec old) with owes | raises | moved
          · exact Or.inl (left owes same)
          · obtain ⟨h, found, raising⟩ := raises
            cases remembers.symm.trans found
            cases raising
          · exact Or.inr (Or.inr (moved.grow (steady.sound _ before) grows))
      · cases never
    · rcases List.mem_or_eq_of_mem_set member with before | never
      · refine left (accounted.storing t row before (older_exec old)) fun same => ?_
        exact timely calm rfl _ before same (older_exec old)
      · cases never
  · exact accounted.keeps steady remembers allowed (fun same => absurd same mine)
      fun same => absurd same mine

/-- The generation is raised: what was read of it before has moved. -/
theorem Accounted.raised {slug : Option Units} {owed : List Units}
    (accounted : Accounted ids texts change routed memory) (steady : Steady routed memory)
    (remembers : memory[j]? = some (.change slug owed (some text) none))
    (calm : routing.refuses (.cache (.incr (tagGenerationKey STORIES_CACHE_TAG))) = none) :
    Accounted ids texts change
      (routed.exec ids routing (.cache (.incr (tagGenerationKey STORIES_CACHE_TAG)))).2
      (memory.set j (.change slug owed none none)) := by
  have allowed : Allowed ids texts (.change slug owed (some text) none) _ := .raise slug owed text
  by_cases mine : j = change.thread
  · subst mine
    have left {t : Units} (owes : Owes memory change.thread t) :
        Owes (memory.set change.thread (.change slug owed none none)) change.thread t :=
      owes.set remembers fun _ member => member
    have raised : generation (routed.exec ids routing
        (.cache (.incr (tagGenerationKey STORIES_CACHE_TAG)))).2.world.cache STORIES_CACHE_TAG =
          generation routed.world.cache STORIES_CACHE_TAG + 1 := by
      rcases cache_exec ids routing routed
        (.incr (tagGenerationKey STORIES_CACHE_TAG)) with ⟨refused, -⟩ | ⟨-, -, sent⟩
      · exact absurd calm refused
      · have cache := congrArg StoreState.store sent
        simp only [StoreState.sent, Valkey.exec, World.store, steady.kept.incr] at cache
        rw [cache]
        change generation (routed.world.cache.put _ _) _ = _
        rw [generation_put_counter, if_pos rfl]
    refine ⟨fun t row cached old => ?_, fun t seen row member old => ?_,
      fun t row member old => ?_⟩
    · rcases cached_exec allowed cached with there | never
      · exact left (accounted.cached t row there (older_exec old))
      · cases never
    · rcases List.mem_or_eq_of_mem_set member with before | never
      · refine (accounted.checking t seen row before (older_exec old)).imp left fun _ => ?_
        obtain ⟨n, below, rfl⟩ := steady.sound _ before
        refine Or.inr fun same => ?_
        injection same with same
        omega
      · cases never
    · rcases List.mem_or_eq_of_mem_set member with before | never
      · exact left (accounted.storing t row before (older_exec old))
      · cases never
  · exact accounted.keeps steady remembers allowed (fun same => absurd same mine)
      fun same => absurd same mine

/-- A read that finds a row holds it, unless the story is deleted. -/
theorem Accounted.finds {call : Call} {seen : Option Text}
    (accounted : Accounted ids texts change routed memory) (steady : Steady routed memory)
    (remembers : memory[j]? = some (.read text (.loading seen)))
    (allowed : Allowed ids texts (.read text (.loading seen)) call)
    (timely : row.deletedAt = none → routed.Older change row →
      Owes memory change.thread text ∨
        ∃ value ∈ seen, Raises memory change.thread text ∨ routed.Moved value) :
    Accounted ids texts change (routed.exec ids routing call).2
      (memory.set j ((Errand.read text (.loading seen)).found row)) := by
  by_cases alive : row.deletedAt = none
  · have sound := steady.sound _ (List.mem_of_getElem? remembers)
    have held : (Errand.read text (.loading seen)).found row =
        .read text (Errand.holding row seen) := by
      simp only [Errand.found, alive, Option.isSome_none, Bool.false_eq_true, if_false]
    rw [held]
    refine accounted.moves steady remembers (fun row => older_exec)
      ((Steady.kept_exec routing steady.kept allowed sound).2 _) (fun _ _ => by rintro ⟨⟩)
      (fun _ _ => by rintro ⟨⟩)
      (fun text row => cached_exec allowed) (fun t s r same old => ?_) (fun t s r same => ?_)
      fun t r same old => ?_
    · cases seen with
      | none => cases same
      | some seen =>
        cases same
        refine (timely alive old).imp_right fun later => ?_
        obtain ⟨_, ⟨⟩, later⟩ := later
        exact later
    · cases seen with
      | none => cases same
      | some seen =>
        cases same
        exact sound
    · cases seen with
      | some seen => cases same
      | none =>
        cases same
        refine (timely alive old).resolve_right fun later => ?_
        obtain ⟨_, never, -⟩ := later
        cases never
  · have gone : (Errand.read text (.loading seen)).found row = .read text .finished := by
      rw [Errand.found, if_pos (Option.isSome_iff_ne_none.mpr alive)]
    rw [gone]
    exact accounted.reads steady remembers allowed rfl

/-- A read that compares the generations goes on if they are the same. -/
theorem Accounted.compares {seen : Text}
    (accounted : Accounted ids texts change routed memory) (steady : Steady routed memory)
    (remembers : memory[j]? = some (.read text (.checking seen row)))
    (timely : Timely ids change j routing routed memory (.read text (.checking seen row))
      (.cache (.get (tagGenerationKey STORIES_CACHE_TAG)))) :
    Accounted ids texts change
      (routed.exec ids routing (.cache (.get (tagGenerationKey STORIES_CACHE_TAG)))).2
      (memory.set j ((Errand.read text (.checking seen row)).next
        (.cache (.get (tagGenerationKey STORIES_CACHE_TAG)))
        (routed.exec ids routing (.cache (.get (tagGenerationKey STORIES_CACHE_TAG)))).1)) := by
  have allowed : Allowed ids texts (.read text (.checking seen row)) _ := .compare text seen row
  rcases cache_exec ids routing routed
    (.get (tagGenerationKey STORIES_CACHE_TAG)) with ⟨-, refused, -⟩ | ⟨calm, answered, -⟩
  · rw [refused]
    exact accounted.reads steady remembers allowed rfl
  · obtain ⟨answer, got, reads⟩ :=
      steady.kept.get_generation (routed.world.clock + routing.elapsed) STORIES_CACHE_TAG
    rw [answered, Valkey.exec, got]
    change Accounted ids texts change _ (memory.set j (if seen != answer.getD _ then _ else _))
    rw [reads]
    split
    · exact accounted.reads steady remembers allowed rfl
    · rename_i same
      have sound := steady.sound _ (List.mem_of_getElem? remembers)
      refine accounted.moves steady remembers (fun row => older_exec)
        ((Steady.kept_exec routing steady.kept allowed sound).2 _) (fun _ _ => by rintro ⟨⟩)
        (fun _ _ => by rintro ⟨⟩)
        (fun text row => cached_exec allowed) (fun _ _ _ never => by cases never)
        (fun _ _ _ never => by cases never) fun t r equal old => ?_
      cases equal
      have still : ¬ routed.Moved seen := by
        obtain ⟨n, -, rfl⟩ := sound
        simpa [RoutedWorld.Moved, bne, BEq.beq, instBEqText.beq] using same
      rcases accounted.checking text seen row (List.mem_of_getElem? remembers) old with
        owes | raises | moved
      · exact owes
      · exact absurd (timely calm old raises) still
      · exact absurd moved still

/-- A call that comes in time leaves old rows where they are to be dropped. -/
theorem Accounted.exec {call : Call} (accounted : Accounted ids texts change routed memory)
    (steady : Steady routed memory) (remembers : memory[j]? = some g)
    (allowed : Allowed ids texts g call)
    (timely : Timely ids change j routing routed memory g call) :
    Accounted ids texts change (routed.exec ids routing call).2
      (memory.set j (g.next call (routed.exec ids routing call).1)) := by
  have member := List.mem_of_getElem? remembers
  have sound := steady.sound g member
  have stays : Accounted ids texts change (routed.exec ids routing call).2 (memory.set j g) :=
    accounted.moves steady remembers (fun row => older_exec)
      ((Steady.kept_exec routing steady.kept allowed sound).2 _) (fun _ _ => id) (fun _ _ => id)
      (fun text row => cached_exec allowed)
      (fun text seen row same => accounted.checking text seen row (same ▸ member))
      (fun text seen row same => by rw [same] at sound; exact sound)
      fun text row same => accounted.storing text row (same ▸ member)
  have keeps {slug : Option Units} {owed : List Units} {raising : Option Units}
      {sweep : Option (Option (List Units))} (more : ∀ text, text ∈ g.owed → text ∈ owed)
      (still : ∀ text, g.raising = some text → raising = some text) :
      Accounted ids texts change (routed.exec ids routing call).2
        (memory.set j (.change slug owed raising sweep)) :=
    accounted.keeps steady remembers allowed (fun _ => more) fun _ => still
  cases allowed with
  | now => exact stays
  | emit => exact stays
  | @ask slug owed raising sweep statement reads =>
    obtain ⟨slug', same⟩ := next_asked slug owed raising sweep reads (routed.exec ids routing (.sql statement)).1
    rw [same]
    exact keeps (fun _ => id) fun _ => id
  | @write slug statement id writes =>
    generalize (routed.exec ids routing (.sql statement)).1 = result
    cases result with
    | error e => exact stays
    | ok answer =>
      cases statement <;> cases writes <;> exact keeps (fun _ => by rintro ⟨⟩) fun _ => by rintro ⟨⟩
  | readIndex slug owed raising tag | deleteIndex slug owed raising tag | bump slug owed raising tag
  | delete slug owed raising key keys =>
    generalize (RoutedWorld.exec ids routing routed _).1 = result
    cases result <;> exact keeps (fun _ => id) fun _ => id
  | unlist slug owed text =>
    generalize (RoutedWorld.exec ids routing routed _).1 = result
    cases result <;> exact keeps (fun _ => id) fun _ => id
  | drop slug text owed =>
    rcases cache_exec ids routing routed
      (.del (storyKey text)) with ⟨-, refused, -⟩ | ⟨calm, answered, -⟩
    · rw [refused]
      exact stays
    · rw [answered]
      exact accounted.dropped steady remembers calm timely
  | raise slug owed text =>
    rcases cache_exec ids routing routed
      (.incr (tagGenerationKey STORIES_CACHE_TAG)) with ⟨-, refused, -⟩ | ⟨calm, answered, -⟩
    · rw [refused]
      exact stays
    · rw [answered, Valkey.exec, steady.kept.incr]
      exact accounted.raised steady remembers calm
  | lookUp text | dropCorrupt text | store text row | list text | extend text | snapshot text =>
    generalize (RoutedWorld.exec ids routing routed _).1 = result
    cases result <;> exact accounted.reads steady remembers (by constructor) rfl
  | loadById text seen id =>
    cases answered : (routed.exec ids routing (.sql (.storyById id))).1 with
    | error e => exact stays
    | ok found =>
      cases found with
      | none => exact stays
      | some row =>
        obtain ⟨finds, calm⟩ := select_storyById answered
        exact accounted.finds steady remembers (.loadById text seen id) (timely calm row finds)
  | loadBySlug text seen slug =>
    cases answered : (routed.exec ids routing (.sql (.storyBySlug slug))).1 with
    | error e => exact stays
    | ok found =>
      cases found with
      | none => exact stays
      | some row =>
        obtain ⟨finds, calm⟩ := select_storyBySlug answered
        exact accounted.finds steady remembers (.loadBySlug text seen slug) (timely calm row finds)
  | compare text seen row => exact accounted.compares steady remembers timely

end Accounts
end Stories
