import Hakawi.Stories.LaggingReads

/-!
# Runs of the stories service behind the router

Operations of any number, interleaved at will. Once an operation that has changed a story has
returned, no entry of the cache is older than the change, in every run whose calls come in time
for it. A read that a lagging replica serves after the keys are dropped is not in time.
-/

namespace Stories
open Html Common Effects Caching

section Runs
variable (ids : UuidText) (texts : JsonTexts) (unicode : Unicode) (routed : RoutedWorld)
  (operations : List Operation)

def serve : Pool RoutedWorld Call Call.Result (Except Exception Unit) :=
  ⟨routed, operations.map fun operation => (operation.run ids texts unicode).run⟩

/-- Where a schedule leads. -/
def ran (schedule : List (Nat × Routing)) :
    Pool RoutedWorld Call Call.Result (Except Exception Unit) :=
  (serve ids texts unicode routed operations).run (RoutedWorld.exec ids) schedule

/-- What the threads have left to do after a schedule. -/
def remembered (schedule : List (Nat × Routing)) : List Errand :=
  Pool.recallAll (RoutedWorld.exec ids) (errands ids texts) (operations.map Operation.start)
    (serve ids texts unicode routed operations) schedule

/-- The turn writes the row of a story, which its thread calls `id`. -/
def Writes (pool : Pool RoutedWorld Call Call.Result (Except Exception Unit))
    (turn : Nat × Routing) (id : Units) (key : Nat) : Prop :=
  match pool.threads[turn.1]? with
  | some (.call call _) => call.writes = some id ∧ ids.parse id = some key ∧
    call.performed (pool.state.exec ids turn.2 call).1 = true
  | _ => False

instance (pool : Pool RoutedWorld Call Call.Result (Except Exception Unit)) (turn : Nat × Routing)
    (id : Units) (key : Nat) : Decidable (Writes ids pool turn id key) := by
  unfold Writes
  split <;> infer_instance

/-- What the thread drops once it has written the row that it calls `id`. -/
def Drops (memory : List Errand) (thread : Nat) (id : Units) (text : Units) : Prop :=
  ∃ g ∈ memory[thread]?, text ∈ (g.wrote id).owed

/-- The rows that a write makes old are cached, and held by reads, only under texts that are
dropped after it. -/
structure Covered (change : Change) (id : Units) (before after : RoutedWorld)
    (memory : List Errand) : Prop where
  cached : ∀ text row, before.world.Cached ids texts text row → after.Older change row →
    Drops memory change.thread id text
  checking : ∀ text seen row, .read text (.checking seen row) ∈ memory → after.Older change row →
    Drops memory change.thread id text ∨ before.Moved seen
  storing : ∀ text row, .read text (.storing row) ∈ memory → after.Older change row →
    Drops memory change.thread id text

instance (routed : RoutedWorld) : (seen : Text) → Decidable (routed.Moved seen)
  | .integer n => decidable_of_iff
      (n ≠ generation routed.world.cache STORIES_CACHE_TAG) (by simp [RoutedWorld.Moved])
  | .json _ | .other _ => .isTrue (by rintro ⟨⟩)

instance (memory : List Errand) (thread : Nat) (text : Units) :
    Decidable (Owes memory thread text) :=
  inferInstanceAs (Decidable (∃ g ∈ memory[thread]?, text ∈ g.owed))

instance (memory : List Errand) (thread : Nat) (text : Units) :
    Decidable (Raises memory thread text) :=
  inferInstanceAs (Decidable (∃ g ∈ memory[thread]?, g.raising = some text))

instance (change : Change) (thread : Nat) (routing : Routing) (routed : RoutedWorld)
    (memory : List Errand) (g : Errand) (call : Call) :
    Decidable (Timely ids change thread routing routed memory g call) := by
  have old (text : Units) : DecidablePred fun g : Errand => match g with
      | .read text' (.storing row) => text' = text → ¬ routed.Older change row
      | _ => True := fun g => by
    dsimp only
    split <;> infer_instance
  unfold Timely
  have : Decidable (routing.refuses call = none) := inferInstance
  split <;> infer_instance

/-- Every entry of the cache is as new as the change. -/
def NoneOlder (change : Change) (routed : RoutedWorld) : Prop :=
  ∀ text row, routed.world.Cached ids texts text row → ¬ routed.Older change row

variable {ids texts unicode routed operations}

theorem ran_append (early late : List (Nat × Routing)) :
    ran ids texts unicode routed operations (early ++ late) =
      (ran ids texts unicode routed operations early).run (RoutedWorld.exec ids) late :=
  Pool.run_append _ _ early late

theorem remembered_append (early late : List (Nat × Routing)) :
    remembered ids texts unicode routed operations (early ++ late) =
      Pool.recallAll (RoutedWorld.exec ids) (errands ids texts)
        (remembered ids texts unicode routed operations early)
        (ran ids texts unicode routed operations early) late :=
  Pool.recallAll_append _ _ early late _ _

theorem follow_serve : Pool.Follow (errands ids texts) (operations.map Operation.start)
    (serve ids texts unicode routed operations) := by
  refine List.forall₂_map_left_iff.mpr (List.forall₂_map_right_iff.mpr ?_)
  exact List.forall₂_same.mpr fun operation _ => (reaches_run ids texts unicode operation).follows

variable (ids texts unicode operations) in
theorem steady_ran (kept : WellKept routed.world.cache) (schedule : List (Nat × Routing)) :
    Steady (ran ids texts unicode routed operations schedule).state
      (remembered ids texts unicode routed operations schedule) ∧
    Pool.Follow (errands ids texts) (remembered ids texts unicode routed operations schedule)
      (ran ids texts unicode routed operations schedule) := by
  refine Pool.run_invariant_always (fun routing routed memory i g call remembers steady allowed _ =>
    steady.exec remembers allowed) ⟨kept, ?_⟩ follow_serve schedule
  intro g member
  obtain ⟨operation, -, rfl⟩ := List.mem_map.mp member
  cases operation <;> trivial

/-- The thread that writes a row goes on to drop what it is cached under. -/
theorem accounted_write {pool : Pool RoutedWorld Call Call.Result (Except Exception Unit)}
    {memory : List Errand} {turn : Nat × Routing} {id : Units} {key : Nat} {change : Change}
    (steady : Steady pool.state memory) (follow : Pool.Follow (errands ids texts) memory pool)
    (mine : change.thread = turn.1) (writes : Writes ids pool turn id key)
    (covered : Covered ids texts change id pool.state
      (pool.advance (RoutedWorld.exec ids) turn).state memory) :
    Accounted ids texts change (pool.advance (RoutedWorld.exec ids) turn).state
      (Pool.recallTurn (RoutedWorld.exec ids) (errands ids texts) memory pool turn) := by
  cases about : pool.threads[turn.1]? with
  | none => simp only [Writes, about] at writes
  | some program =>
    cases program with
    | done result => simp only [Writes, about] at writes
    | call call next =>
      simp only [Writes, about] at writes
      obtain ⟨written, -, performed⟩ := writes
      obtain ⟨statement, rfl⟩ : ∃ statement, call = .sql statement := by
        cases call with
        | sql statement => exact ⟨statement, rfl⟩
        | _ => cases written
      have length := follow.length_eq
      obtain ⟨ht, got⟩ := List.getElem?_eq_some_iff.mp about
      have hm : turn.1 < memory.length := by omega
      have remembers : memory[turn.1]? = some memory[turn.1] := List.getElem?_eq_getElem hm
      have follows := follow.get hm ht
      simp only [List.get_eq_getElem, got] at follows
      have allowed : Allowed ids texts memory[turn.1] (.sql statement) := follows.1
      generalize memory[turn.1] = g at remembers allowed
      obtain ⟨slug, rfl⟩ : ∃ slug, g = .change slug [] none none := by
        cases allowed with
        | ask reads => cases reads.symm.trans written
        | write => exact ⟨_, rfl⟩
        | loadById | loadBySlug => cases written
      have told : (Errand.change slug [] none none).next (.sql statement)
          (pool.state.exec ids turn.2 (.sql statement)).1 =
            (Errand.change slug [] none none).wrote id := by
        generalize (pool.state.exec ids turn.2 (.sql statement)).1 = result at performed
        cases result with
        | error e => cases performed
        | ok answer => cases statement <;> cases written <;> rfl
      have state : (pool.advance (RoutedWorld.exec ids) turn).state =
          (pool.state.exec ids turn.2 (.sql statement)).2 := by simp only [Pool.advance, about]
      have memory' : Pool.recallTurn (RoutedWorld.exec ids) (errands ids texts) memory pool turn =
          memory.set turn.1 ((Errand.change slug [] none none).wrote id) := by
        simp only [Pool.recallTurn, about, remembers]
        exact congrArg (memory.set turn.1) told
      have owes {text : Units} (drops : Drops memory change.thread id text) :
          Owes (memory.set turn.1 ((Errand.change slug [] none none).wrote id)) change.thread
            text := by
        obtain ⟨g, found, owed⟩ := drops
        rw [mine] at found
        cases remembers.symm.trans found
        exact ⟨_, by rw [mine, Pool.getElem?_set_of_some remembers, if_pos rfl]; rfl, owed⟩
      have sound := steady.sound _ (List.mem_of_getElem? remembers)
      have grows := (Steady.kept_exec turn.2 steady.kept allowed sound).2
        STORIES_CACHE_TAG
      rw [memory', state]
      rw [state] at covered
      refine ⟨fun text row cached old => ?_, fun text seen row member old => ?_,
        fun text row member old => ?_⟩
      · rcases cached_exec allowed cached with before | never
        · exact owes (covered.cached text row before old)
        · cases never
      · rcases List.mem_or_eq_of_mem_set member with before | never
        · exact (covered.checking text seen row before old).imp owes fun moved =>
            Or.inr (moved.grow (steady.sound _ before) grows)
        · cases never
      · rcases List.mem_or_eq_of_mem_set member with before | never
        · exact owes (covered.storing text row before old)
        · cases never

/-- What is changed by a turn that comes next. -/
def changeOf (pool : Pool RoutedWorld Call Call.Result (Except Exception Unit))
    (turn : Nat × Routing) (key : Nat) : Change :=
  ⟨turn.1, key, pool.state.history.length⟩

/-- An operation of the service that has returned owes nothing. -/
theorem settled_of_returned {schedule : List (Nat × Routing)} {thread : Nat} {g : Errand}
    (service : ∀ operation ∈ operations[thread]?, operation.ThroughService)
    (returned : (ran ids texts unicode routed operations schedule).result? thread = some (.ok ()))
    (left : (remembered ids texts unicode routed operations schedule)[thread]? = some g) :
    g.Settled := by
  have done := Pool.done_of_result? returned
  cases found : operations[thread]? with
  | none =>
    have absent : ∀ g, (operations.map Operation.start)[thread]? = some g → False := by
      intro g remembers
      rw [List.getElem?_map, found] at remembers
      cases remembers
    have never : ∀ g, (remembered ids texts unicode routed operations schedule)[thread]? = some g →
        False := Pool.recallAll_kept (RoutedWorld.exec ids) (errands ids texts)
      (fun _ _ _ (never : False) => never) absent schedule _
    exact (never g left).elim
  | some operation =>
    have remembers : (operations.map Operation.start)[thread]? = some operation.start := by
      rw [List.getElem?_map, found]
      rfl
    have about : (serve ids texts unicode routed operations).threads[thread]? =
        some (operation.run ids texts unicode).run := by
      rw [serve, List.getElem?_map, found]
      rfl
    have mono : (Pool.amid (RoutedWorld.exec ids) (errands ids texts)).Monotone :=
      Pool.amid_monotone
    have among := Program.wp_weaken_spec mono
      (fun call Q g holds routing state => holds.2 _) (reaches_run ids texts unicode operation)
    exact Pool.post_of_amid remembers about among schedule done left (service operation found) rfl

/-- Once an operation that has changed a story has returned, no entry is older than the change, if
the rows that it made old stood under keys that it drops and every later call came in time. -/
theorem none_older {ids : UuidText} {texts : JsonTexts} {unicode : Unicode} {routed : RoutedWorld}
    (kept : WellKept routed.world.cache) (operations : List Operation)
    (early late : List (Nat × Routing)) (turn : Nat × Routing) {id : Units} {key : Nat}
    (writes : Writes ids (ran ids texts unicode routed operations early) turn id key)
    (covered : Covered ids texts (changeOf (ran ids texts unicode routed operations early) turn key)
      id (ran ids texts unicode routed operations early).state
      (ran ids texts unicode routed operations (early ++ [turn])).state
      (remembered ids texts unicode routed operations early))
    (timely : Pool.Observed (RoutedWorld.exec ids) (errands ids texts)
      (Timely ids (changeOf (ran ids texts unicode routed operations early) turn key)) late
      (remembered ids texts unicode routed operations (early ++ [turn]))
      (ran ids texts unicode routed operations (early ++ [turn])))
    (service : ∀ operation ∈ operations[turn.1]?, operation.ThroughService)
    (returned : (ran ids texts unicode routed operations (early ++ turn :: late)).result? turn.1 =
      some (.ok ())) :
    NoneOlder ids texts (changeOf (ran ids texts unicode routed operations early) turn key)
      (ran ids texts unicode routed operations (early ++ turn :: late)).state := by
  obtain ⟨steady, follow⟩ := steady_ran ids texts unicode operations kept early
  obtain ⟨steady', follow'⟩ := steady_ran ids texts unicode operations kept (early ++ [turn])
  have next : ran ids texts unicode routed operations (early ++ [turn]) =
      (ran ids texts unicode routed operations early).advance (RoutedWorld.exec ids) turn := by
    rw [ran_append]
    rfl
  have recalls : remembered ids texts unicode routed operations (early ++ [turn]) =
      Pool.recallTurn (RoutedWorld.exec ids) (errands ids texts)
        (remembered ids texts unicode routed operations early)
        (ran ids texts unicode routed operations early) turn := by
    rw [remembered_append]
    rfl
  rw [next] at covered
  have accounted := accounted_write steady follow rfl writes covered
  rw [← next, ← recalls] at accounted
  have preserves : ∀ (routing : Routing) (state : RoutedWorld) (memory : List Errand) (i : Nat)
      (g : Errand) (call : Call), memory[i]? = some g →
      Steady state memory ∧ Accounted ids texts
        (changeOf (ran ids texts unicode routed operations early) turn key) state memory →
      Allowed ids texts g call →
      Timely ids (changeOf (ran ids texts unicode routed operations early) turn key) i routing
        state memory g call →
      Steady (state.exec ids routing call).2
        (memory.set i (g.next call (state.exec ids routing call).1)) ∧
      Accounted ids texts (changeOf (ran ids texts unicode routed operations early) turn key)
        (state.exec ids routing call).2
        (memory.set i (g.next call (state.exec ids routing call).1)) :=
    fun routing state memory i g call remembers now allowed timely =>
      ⟨now.1.exec remembers allowed, now.2.exec now.1 remembers allowed timely⟩
  have ends := Pool.observed_invariant preserves ⟨steady', accounted⟩ follow' timely
  have last : early ++ turn :: late = (early ++ [turn]) ++ late := by simp
  intro text row cached old
  rw [last] at cached old returned
  rw [ran_append] at cached old
  obtain ⟨g, left, owed⟩ := ends.2.cached text row cached old
  rw [← remembered_append] at left
  rw [(settled_of_returned service returned left).1] at owed
  cases owed

variable (ids texts unicode operations) in
/-- However operations overlap, and whichever calls fail, what stands under the keys of the tags is
kept well, and no generation falls: one that has changed since it was read never comes back. -/
theorem generations_grow (kept : WellKept routed.world.cache) (early late : List (Nat × Routing)) :
    let before := (ran ids texts unicode routed operations early).state.world.cache
    let after := (ran ids texts unicode routed operations (early ++ late)).state.world.cache
    WellKept after ∧ ∀ tag, generation before tag ≤ generation after tag := by
  intro before after
  obtain ⟨steady, follow⟩ := steady_ran ids texts unicode operations kept early
  have preserves : Pool.Preserves (RoutedWorld.exec ids) (errands ids texts) (fun _ _ _ _ => True)
      fun state memory => Steady state memory ∧
        ∀ tag, generation before tag ≤ generation state.world.cache tag := by
    intro routing state memory i g call remembers now allowed _
    have sound := now.1.sound g (List.mem_of_getElem? remembers)
    exact ⟨now.1.exec remembers allowed, fun tag =>
      (now.2 tag).trans ((Steady.kept_exec routing now.1.kept allowed sound).2 tag)⟩
  have ends := (Pool.run_invariant_always preserves ⟨steady, fun _ => le_rfl⟩ follow late).1
  rw [← ran_append] at ends
  exact ⟨ends.1.kept, ends.2⟩

end Runs

section Tales

def RoutedWorld.empty : RoutedWorld := ⟨World.empty, [], fun _ => 0⟩

def inTurn (thread turns : Nat) : List (Nat × Routing) := List.replicate turns (thread, {})

/-- A story is published and then archived. -/
def shelved : List Operation :=
  [.create "scheherazade" { title := units "Night", slug := .value (units "night") },
    .publish (UuidText.hexadecimal.print 0) "scheherazade",
    .archive (UuidText.hexadecimal.print 0) "scheherazade",
    .findBySlug (units "night") none]

/-- The slug is read, from this replica, which has two writes. -/
def readFrom (replica : Option Nat) : List (Nat × Routing) :=
  inTurn 3 2 ++ [(3, { replica, applies := fun _ => 2 })] ++ inTurn 3 4

/-- Until the story is to be published; nothing has been cached yet. -/
def drafted : List (Nat × Routing) := inTurn 0 5 ++ inTurn 1 2

def publication : Nat × Routing := (1, {})

/-- The story is published, and the generation raised. -/
theorem generations_grow_published :
    let before := (ran .hexadecimal .epoch .ascii .empty shelved drafted).state.world.cache
    let after := (ran .hexadecimal .epoch .ascii .empty shelved
      (drafted ++ inTurn 1 12)).state.world.cache
    WellKept after ∧ ∀ tag, generation before tag ≤ generation after tag :=
  generations_grow _ _ _ _ ⟨fun _ => Or.inl rfl, fun _ _ never => by cases never⟩ _ _

theorem drafted_covered : Covered .hexadecimal .epoch
    (changeOf (ran .hexadecimal .epoch .ascii .empty shelved drafted) publication 0)
    (UuidText.hexadecimal.print 0) (ran .hexadecimal .epoch .ascii .empty shelved drafted).state
    (ran .hexadecimal .epoch .ascii .empty shelved (drafted ++ [publication])).state
    (remembered .hexadecimal .epoch .ascii .empty shelved drafted) := by
  have unread : (ran .hexadecimal .epoch .ascii .empty shelved drafted).state.world.cache =
      .empty := rfl
  have unheld : ∀ g ∈ remembered .hexadecimal .epoch .ascii .empty shelved drafted,
      g.held = none := by decide
  refine ⟨?_, ?_, ?_⟩
  · rintro text row ⟨e, content, found, -⟩
    cases (live_of_empty unread _).symm.trans found
  · intro text seen row member
    cases unheld _ member
  · intro text row member
    cases unheld _ member

/-- The slug is read from a replica that has the publication. -/
theorem published_once : NoneOlder .hexadecimal .epoch
    (changeOf (ran .hexadecimal .epoch .ascii .empty shelved drafted) publication 0)
    (ran .hexadecimal .epoch .ascii .empty shelved
      (drafted ++ publication :: (inTurn 1 10 ++ readFrom (some 0)))).state := by
  have kept : WellKept RoutedWorld.empty.world.cache :=
    ⟨fun _ => Or.inl rfl, fun _ _ never => by cases never⟩
  have service : ∀ operation ∈ shelved[publication.1]?, operation.ThroughService := by
    rintro _ ⟨⟩
    trivial
  exact none_older kept shelved drafted (inTurn 1 10 ++ readFrom (some 0)) publication
    (by decide) drafted_covered (by decide) service (by decide)

theorem cached_of_lookup {ids : UuidText} {texts : JsonTexts} {world : World} {text : Units}
    {row : Story} (found : ((world.store.live (storyKey text)).bind fun e => match e.content with
      | .text content => content.parseJson.bind (storyJson texts ids).revive
      | .members _ => none) = some (some row)) : world.Cached ids texts text row := by
  obtain ⟨e, live, revived⟩ := Option.bind_eq_some_iff.mp found
  cases holds : e.content with
  | members keys =>
    rw [holds] at revived
    cases revived
  | text content =>
    rw [holds] at revived
    exact ⟨e, content, live, holds, revived⟩

/-- The story as it was published. -/
def night : Story where
  id := 0
  authorId := "scheherazade"
  title := units "Night"
  slug := units "night"
  excerpt := none
  content := none
  coverImage := none
  status := "published"
  categoryId := none
  viewCount := 0
  likeCount := 0
  commentCount := 0
  readingTime := none
  publishedAt := some 0
  deletedAt := none
  createdAt := 0
  updatedAt := 0

/-- The replica that serves the reader has the publication and not yet the archiving, and for ten
minutes readers are shown a story that has been archived. -/
theorem shelved_read_back : ¬ ∀ (operations : List Operation) (early late : List (Nat × Routing))
    (turn : Nat × Routing) (id : Units) (key : Nat),
    Writes .hexadecimal (ran .hexadecimal .epoch .ascii .empty operations early) turn id key →
    (ran .hexadecimal .epoch .ascii .empty operations (early ++ turn :: late)).Finished →
    (ran .hexadecimal .epoch .ascii .empty operations (early ++ turn :: late)).result? turn.1 =
      some (.ok ()) →
    NoneOlder .hexadecimal .epoch
      (changeOf (ran .hexadecimal .epoch .ascii .empty operations early) turn key)
      (ran .hexadecimal .epoch .ascii .empty operations (early ++ turn :: late)).state := by
  intro always
  have none := always shelved (inTurn 0 5 ++ inTurn 1 13 ++ inTurn 2 1)
    (inTurn 2 11 ++ readFrom (some 0)) (2, {})
    (UuidText.hexadecimal.print 0) 0 (by decide) (by decide +kernel) (by decide +kernel)
  refine none (units "slug:night") night (cached_of_lookup ?_) ?_
  · decide +kernel
  · decide +kernel

end Tales
end Stories
