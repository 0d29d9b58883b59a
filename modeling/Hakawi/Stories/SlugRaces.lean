import Hakawi.Stories.Refusals

/-!
# Requests that want the same slug

Any number of creates and updates run side by side, each at its own pace. Between the probe of a
slug and the write another request may take it; the index then refuses the write. What the
services take for a lost race is an error with a code, and the error that arrives has none.
-/

namespace Stories
open Html Common Effects Caching
open Social (Optional)

/-- What a request has met so far. -/
structure Encounters where
  /-- The slugs that a probe found taken. -/
  taken : List Units := []
  /-- The slug of the row it has inserted. -/
  inserted : Option Units := none
  /-- The index has refused a write. -/
  lost : Bool := false
  /-- A statement has failed for another reason. -/
  failed : Bool := false
  deriving DecidableEq

def slugViolation : Exception := .drizzle (.uniqueViolation STORIES_SLUG_UNIQUE)

namespace Encounters

def answered (g : Encounters) : (statement : Statement) → statement.Answer → Encounters
  | .storyBySlug slug, some _ => { g with taken := g.taken ++ [slug] }
  | .insertStory _, story => { g with inserted := some story.slug }
  | _, _ => g

def threw (g : Encounters) (e : Exception) : Encounters :=
  if e = slugViolation then { g with lost := true } else { g with failed := true }

def next (g : Encounters) : (call : Call) → call.Result → Encounters
  | .sql statement, .ok answer => g.answered statement answer
  | .sql _, .error e => g.threw e
  | _, _ => g

end Encounters

/-- Anything may be called; what is remembered is what was met. -/
def encounters : Protocol Call Call.Result Encounters := ⟨fun _ _ => True, Encounters.next⟩

/-- How a request that met these ends, where no slug is lost without its caller being told: it
never ends in the index's refusal; a create that derives its slug inserts a candidate, unless all
were found taken and it answers with a conflict; one that asks for a slug which is taken answers
with a conflict. A statement that fails for another reason ends a create as well. -/
def Request.Settled (unicode : Unicode) (result : Except Exception Story) (g : Encounters) :
    Request → Prop
  | .create _ input => result ≠ .error slugViolation ∧ match input.slug with
    | .undefined => ∀ base, deriveStorySlug unicode input.title = .ok base →
      (∃ slug ∈ storySlugCandidates base MAX_SLUG_COLLISION_ATTEMPTS, g.inserted = some slug) ∨
        (∀ slug ∈ storySlugCandidates base MAX_SLUG_COLLISION_ATTEMPTS, slug ∈ g.taken) ∧
          result = .error (slugsExhausted base) ∨
        g.failed
    | _ => g.taken ≠ [] ∨ g.lost → result = .error slugConflict
  | .update _ _ _ => result ≠ .error slugViolation ∧
    (g.taken ≠ [] ∨ g.lost → result = .error slugConflict)

section Calls
variable (ids : UuidText)

abbrev Among : Program.OpSpec Call Call.Result Encounters :=
  Pool.amid (World.exec ids) encounters

variable {ids} {α β : Type}

/-- What the execution answers to a statement: the database carries it out, or its index on the
slugs refuses it, or it fails for another reason. -/
theorem among_query {statement : Statement}
    {Q : Except Exception statement.Answer → Encounters → Prop} {g : Encounters}
    (answered : ∀ now (db : Database) answer db', db.perform ids now statement =
      .ok (answer, db') → Q (.ok answer) (g.answered statement answer))
    (violated : ∀ now (db : Database), db.perform ids now statement =
      .error (.uniqueViolation STORIES_SLUG_UNIQUE) → Q (.error slugViolation) { g with lost := true })
    (failed : ∀ e, e ≠ slugViolation → e.code = none → Q (.error e) { g with failed := true }) :
    wpE (Among ids) (query statement) Q g := by
  intro choice world
  have threw (e : DatabaseError) (other : e ≠ .uniqueViolation STORIES_SLUG_UNIQUE) :
      Q (.error (.drizzle e)) (g.threw (.drizzle e)) := by
    have different : (Exception.drizzle e) ≠ slugViolation := fun same => other (by cases same; rfl)
    rw [Encounters.threw, if_neg different]
    exact failed _ different rfl
  change Q (World.exec ids choice world (.sql statement)).1
    (g.next (.sql statement) (World.exec ids choice world (.sql statement)).1)
  simp only [World.exec]
  cases choice.refuses (.sql statement) with
  | some code => exact threw (.failed code) (by simp)
  | none =>
    cases performs : world.database.perform ids (world.clock + choice.elapsed) statement with
    | ok result => exact answered _ _ _ _ performs
    | error e =>
      by_cases slug : e = .uniqueViolation STORIES_SLUG_UNIQUE
      · subst slug
        exact violated _ _ performs
      · exact threw e slug

/-- Calls that meet no slug. -/
structure Kept (g : Encounters) (result : Except Exception α) (g' : Encounters) : Prop where
  taken : g'.taken = g.taken
  inserted : g'.inserted = g.inserted
  lost : g'.lost = g.lost
  plain : result ≠ .error slugViolation

theorem kept_pure (g : Encounters) (a : α) : wpE (Among ids) (pure a : Method α) (Kept g) g :=
  ⟨rfl, rfl, rfl, by simp⟩

theorem kept_throw (g : Encounters) {e : Exception} (plain : e ≠ slugViolation) :
    wpE (Among ids) (throw e : Method α) (Kept g) g :=
  ⟨rfl, rfl, rfl, fun same => plain (by cases same; rfl)⟩

theorem kept_bind {p : Method α} {f : α → Method β} {g : Encounters}
    (first : wpE (Among ids) p (Kept g) g) (rest : ∀ a g, wpE (Among ids) (f a) (Kept g) g) :
    wpE (Among ids) (p >>= f) (Kept g) g := by
  rw [wpE_bind]
  refine wpE_mono Pool.amid_monotone (fun result between kept => ?_) first
  cases result with
  | error e => exact ⟨kept.taken, kept.inserted, kept.lost, fun same => kept.plain (by cases same; rfl)⟩
  | ok a =>
    refine wpE_mono Pool.amid_monotone (fun result after later => ?_) (rest a between)
    exact ⟨later.taken.trans kept.taken, later.inserted.trans kept.inserted,
      later.lost.trans kept.lost, later.plain⟩

theorem kept_query {statement : Statement} (g : Encounters)
    (quiet : ∀ now (db : Database),
      db.perform ids now statement ≠ .error (.uniqueViolation STORIES_SLUG_UNIQUE))
    (silent : ∀ answer, g.answered statement answer = g) :
    wpE (Among ids) (query statement) (Kept g) g := by
  refine among_query (fun _ _ answer _ _ => ?_) (fun now db never => absurd never (quiet now db))
    fun e plain _ => ⟨rfl, rfl, rfl, fun same => plain (by cases same; rfl)⟩
  rw [silent]
  exact ⟨rfl, rfl, rfl, by simp⟩

theorem kept_cache (p : CacheCalls Story α) (g : Encounters) :
    wpE (Among ids) (cache p) (Kept g) g := by
  change (viaCache p.run).wp (Among ids) (Kept g) g
  induction p.run with
  | done result =>
    cases result with
    | error e => exact ⟨rfl, rfl, rfl, by rintro ⟨⟩⟩
    | ok a => exact ⟨rfl, rfl, rfl, by rintro ⟨⟩⟩
  | call op next ih =>
    cases op with
    | valkey command => exact fun _ _ => ih _
    | readDatabase => exact ih _
    | changeDatabase change => exact ih _

theorem kept_emit (event : Event) (g : Encounters) :
    wpE (Among ids) (emit event) (Kept g) g := by
  intro choice world
  change Kept g (World.exec ids choice world (.emit event)).1 g
  simp only [World.exec]
  split
  · exact ⟨rfl, rfl, rfl, by rintro ⟨⟩⟩
  · exact ⟨rfl, rfl, rfl, fun same => by cases same⟩

/-- The statements about tags. -/
theorem kept_deleteTags (storyId : Units) (g : Encounters) :
    wpE (Among ids) (query (.deleteTags storyId)) (Kept g) g := by
  refine kept_query g (fun now db => ?_) fun _ => rfl
  simp only [Database.perform]
  cases ids.parse storyId <;> rintro ⟨⟩

theorem kept_replacePairs (storyId : Units) (tagIds : List Nat) (g : Encounters) :
    wpE (Among ids) (query (.replaceTags storyId tagIds)) (Kept g) g := by
  refine kept_query g (fun now db violated => ?_) fun _ => rfl
  simp only [Database.perform] at violated
  split at violated
  · cases violated
  · split at violated
    · cases violated
    · simp only [Except.error.injEq, DatabaseError.uniqueViolation.injEq] at violated
      exact absurd violated (by decide)

theorem kept_replaceGivenTags (storyId : Units) (tags : Optional (List Units)) (g : Encounters) :
    wpE (Among ids) (StoriesService.replaceGivenTags storyId tags) (Kept g) g := by
  cases tags with
  | undefined => exact kept_pure g ()
  | null => exact kept_throw g (by rintro ⟨⟩)
  | value names =>
    change wpE (Among ids) (StoriesRepository.replaceTags storyId (some names)) (Kept g) g
    rw [StoriesRepository.replaceTags]
    split
    · exact kept_deleteTags storyId g
    · refine kept_bind (kept_query g (fun _ _ => by rintro ⟨⟩) fun _ => rfl) fun resolved g => ?_
      simp only
      split
      · exact kept_bind (kept_throw g (by rintro ⟨⟩)) fun _ g => kept_replacePairs _ _ g
      · exact kept_replacePairs _ _ g

theorem kept_existing (id : Units) (g : Encounters) :
    wpE (Among ids) (StoriesService.existing id) (Kept g) g := by
  have read : wpE (Among ids) (StoriesRepository.findById id) (Kept g) g := by
    rw [StoriesRepository.findById, wpE_tryCatch]
    refine among_query (fun _ _ _ _ _ => ⟨rfl, rfl, rfl, by simp⟩) (fun now db never => ?_)
      fun e plain uncoded => ?_
    · simp only [Database.perform] at never
      split at never <;> cases never
    · simp only [uncoded]
      exact ⟨rfl, rfl, rfl, fun same => plain (by cases same; rfl)⟩
  refine kept_bind read fun found g => ?_
  cases found with
  | none => exact kept_throw g (by rintro ⟨⟩)
  | some story =>
    simp only
    split
    · exact kept_throw g (by rintro ⟨⟩)
    · exact kept_pure g story

theorem among_slugIsTaken {slug : Units} {Q : Except Exception Bool → Encounters → Prop}
    {g : Encounters} (free : Q (.ok false) g)
    (taken : Q (.ok true) { g with taken := g.taken ++ [slug] })
    (failed : ∀ e, e ≠ slugViolation → Q (.error e) { g with failed := true }) :
    wpE (Among ids) (StoriesService.slugIsTaken slug) Q g := by
  rw [StoriesService.slugIsTaken, StoriesRepository.findBySlug, wpE_bind]
  refine among_query (fun now db found db' _ => ?_) (fun _ _ => by rintro ⟨⟩)
    fun e plain _ => failed e plain
  cases found with
  | none => exact free
  | some story => exact taken

theorem among_tryInsert {values : NewStory} {handler : Exception → Method Story}
    (rethrows : ∀ e : Exception, e.isUniqueViolation = false → handler e = throw e)
    {Q : Except Exception Story → Encounters → Prop} {g : Encounters}
    (inserted : ∀ story : Story, story.slug = values.slug →
      Q (.ok story) { g with inserted := some story.slug })
    (violated : Q (.error slugViolation) { g with lost := true })
    (failed : ∀ e, e ≠ slugViolation → Q (.error e) { g with failed := true }) :
    wpE (Among ids) (tryCatch (StoriesRepository.create values) handler) Q g := by
  rw [wpE_tryCatch]
  refine among_query (fun now db story db' performed => ?_) (fun _ _ _ => ?_) fun e plain uncoded => ?_
  · simp only [Database.perform] at performed
    split at performed
    · cases performed
    · cases performed
      exact inserted _ rfl
  · change wpE _ (handler slugViolation) _ _
    rw [rethrows slugViolation rfl]
    exact violated
  · change wpE _ (handler e) _ _
    rw [rethrows e (by rw [Exception.isUniqueViolation, uncoded]; rfl)]
    exact failed e plain

/-- How the walk over the candidates ends. -/
inductive Walked (candidates : List Units) (exhausted : Exception) :
    Except Exception Story → Encounters → Prop
  | inserted {story : Story} {g : Encounters} (among : story.slug ∈ candidates)
      (noted : g.inserted = some story.slug) (kept : g.lost = false) : Walked _ _ (.ok story) g
  | exhausted {g : Encounters} (taken : ∀ slug ∈ candidates, slug ∈ g.taken)
      (kept : g.lost = false) : Walked _ _ (.error exhausted) g
  | failed {e : Exception} {g : Encounters} (plain : e ≠ slugViolation) (noted : g.failed = true)
      (kept : g.lost = false) : Walked _ _ (.error e) g
  | refused {g : Encounters} (lost : g.lost = true) : Walked _ _ (.error slugViolation) g

theorem among_insertFirstFree {values : Units → NewStory}
    (named : ∀ slug, (values slug).slug = slug) (exhausted : Exception) {all rest : List Units}
    {g : Encounters} (tried : ∀ slug ∈ all, slug ∈ g.taken ∨ slug ∈ rest)
    (left : ∀ slug ∈ rest, slug ∈ all) (kept : g.lost = false) :
    wpE (Among ids) (StoriesService.insertFirstFree values exhausted rest)
      (Walked all exhausted) g := by
  induction rest generalizing g with
  | nil => exact .exhausted (fun slug member => (tried slug member).resolve_right (by simp)) kept
  | cons candidate rest ih =>
    rw [StoriesService.insertFirstFree, wpE_bind]
    refine among_slugIsTaken ?_ ?_ fun e plain => .failed plain rfl kept
    · simp only [Bool.false_eq_true, if_false]
      refine among_tryInsert (fun e plain => by rw [plain]; rfl) (fun story same => ?_)
        (.refused rfl) fun e plain => .failed plain rfl kept
      refine .inserted ?_ rfl kept
      rw [same, named]
      exact left candidate List.mem_cons_self
    · simp only [if_true]
      refine ih (fun slug member => ?_)
        (fun slug member => left slug (List.mem_cons_of_mem _ member)) kept
      rcases tried slug member with old | now
      · exact Or.inl (List.mem_append_left _ old)
      · rcases List.mem_cons.mp now with rfl | later
        · exact Or.inl (List.mem_append_right _ (List.mem_singleton_self _))
        · exact Or.inr later

/-- How a request for one slug ends. -/
inductive Asked : Except Exception Story → Encounters → Prop
  | conflict {g : Encounters} (kept : g.lost = false) : Asked (.error slugConflict) g
  | untaken {result : Except Exception Story} {g : Encounters}
      (plain : result ≠ .error slugViolation) (free : g.taken = []) (kept : g.lost = false) :
      Asked result g
  | refused {g : Encounters} (lost : g.lost = true) : Asked (.error slugViolation) g

theorem Asked.settled_iff {result : Except Exception Story} {g : Encounters}
    (asked : Asked result g) :
    (result ≠ .error slugViolation ∧ (g.taken ≠ [] ∨ g.lost → result = .error slugConflict)) ↔
      g.lost = false := by
  cases asked with
  | conflict kept => exact ⟨fun _ => kept, fun _ => ⟨(by rintro ⟨⟩), fun _ => rfl⟩⟩
  | untaken plain free kept =>
    refine ⟨fun _ => kept, fun _ => ⟨plain, ?_⟩⟩
    rintro (taken | lost)
    · exact absurd free taken
    · rw [kept] at lost
      cases lost
  | refused lost =>
    refine ⟨fun settled => absurd rfl settled.1, fun kept => ?_⟩
    rw [lost] at kept
    cases kept

theorem Kept.asked {g g' : Encounters} {result : Except Exception Story}
    (kept : Kept g result g') (free : g.taken = []) (unlost : g.lost = false) : Asked result g' :=
  .untaken kept.plain (kept.taken.trans free) (kept.lost.trans unlost)

variable (ids) in
/-- What follows the insert. -/
theorem kept_created (authorId : String) (tags : Optional (List Units)) (story : Story)
    (g : Encounters) : wpE (Among ids) (do
      StoriesService.replaceGivenTags (ids.print story.id) tags
      emit (.created story.id authorId (toStorySnapshot story))
      return story) (Kept g) g :=
  kept_bind (kept_replaceGivenTags _ _ g) fun _ g =>
    kept_bind (kept_emit _ g) fun _ g => kept_pure g story

theorem among_create (unicode : Unicode) (authorId : String) (input : CreateStoryInput) :
    wpE (Among ids) (StoriesService.create ids unicode authorId input)
      (fun result g => (Request.create authorId input).Settled unicode result g ↔ g.lost = false)
      {} := by
  rw [StoriesService.create]
  generalize told : ({ input with content := sanitizeStoryContent input.content }
    : CreateStoryInput) = data
  have slug : data.slug = input.slug := told ▸ rfl
  have title : data.title = input.title := told ▸ rfl
  have tail {story : Story} {g : Encounters} {Q : Except Exception Story → Encounters → Prop}
      (ends : ∀ result g', Kept g result g' → Q result g') : wpE (Among ids) (do
        StoriesService.replaceGivenTags (ids.print story.id) data.tags
        emit (.created story.id authorId (toStorySnapshot story))
        return story) Q g :=
    wpE_mono Pool.amid_monotone ends (kept_created ids authorId data.tags story g)
  rw [wpE_bind, StoriesService.insertWithResolvedSlug, slug, title]
  simp only [Request.Settled]
  cases asked : input.slug with
  | null => exact Asked.settled_iff (.untaken (by rintro ⟨⟩) rfl rfl)
  | value requested =>
    simp only
    split
    · exact Asked.settled_iff (.untaken (fun same => by cases same) rfl rfl)
    · rw [wpE_bind]
      refine among_slugIsTaken ?_ (Asked.settled_iff (.conflict rfl))
        fun e plain => Asked.settled_iff
          (.untaken (fun same => plain (by cases same; rfl)) rfl rfl)
      simp only [Bool.false_eq_true, if_false]
      refine among_tryInsert (fun e plain => by rw [plain]; rfl) (fun story _ => ?_)
        (Asked.settled_iff (.refused rfl))
        fun e plain => Asked.settled_iff
          (.untaken (fun same => plain (by cases same; rfl)) rfl rfl)
      refine tail fun result g' kept => ?_
      exact Asked.settled_iff (kept.asked rfl rfl)
  | undefined =>
    simp only
    cases derived : deriveStorySlug unicode input.title with
    | error e =>
      refine ⟨fun _ => rfl, fun _ => ⟨?_, fun base never => by cases never⟩⟩
      rw [deriveStorySlug] at derived
      split at derived
      · cases derived
        rintro ⟨⟩
      · cases derived
    | ok base =>
      have walked : wpE (Among ids) (StoriesService.insertFirstFree (data.values authorId)
          (slugsExhausted base) (storySlugCandidates base MAX_SLUG_COLLISION_ATTEMPTS))
          (Walked (storySlugCandidates base MAX_SLUG_COLLISION_ATTEMPTS) (slugsExhausted base)) {} :=
        among_insertFirstFree (fun _ => rfl) _ (fun _ member => Or.inr member) (fun _ => id) rfl
      change wpE (Among ids) (StoriesService.insertFirstFree _ _ _) _ _
      refine wpE_mono Pool.amid_monotone (fun result g ended => ?_) walked
      cases ended with
      | inserted among noted kept =>
        refine tail fun result g' later => ?_
        refine ⟨fun _ => later.lost.trans kept, fun _ => ⟨later.plain, fun base' same => ?_⟩⟩
        obtain rfl : base = base' := by cases same; rfl
        exact Or.inl ⟨_, among, later.inserted.trans noted⟩
      | exhausted taken kept =>
        refine ⟨fun _ => kept, fun _ => ⟨(by rintro ⟨⟩), fun base' same => ?_⟩⟩
        obtain rfl : base = base' := by cases same; rfl
        exact Or.inr (Or.inl ⟨taken, rfl⟩)
      | failed plain noted kept =>
        exact ⟨fun _ => kept, fun _ => ⟨fun same => plain (by cases same; rfl),
          fun _ _ => Or.inr (Or.inr noted)⟩⟩
      | refused lost =>
        refine ⟨fun settled => absurd rfl settled.1, fun kept => ?_⟩
        rw [lost] at kept
        cases kept

theorem among_writeUpdate (id : Units) (input : UpdateStoryInput) (story : Story)
    {g : Encounters} (free : g.taken = []) (kept : g.lost = false) :
    wpE (Among ids) (StoriesService.writeUpdate id input story) Asked g := by
  rw [StoriesService.writeUpdate, StoriesRepository.update, wpE_bind]
  refine among_query (fun now db written db' _ => ?_) (fun _ _ _ => .refused rfl)
    fun e plain _ => .untaken (fun same => plain (by cases same; rfl)) free kept
  have rest : wpE (Among ids) (do
      StoriesService.replaceGivenTags id input.tags
      StoriesService.invalidateStoryCache id story.slug
      emit (.updated id input.updates (← StoriesService.snapshot written))
      StoriesService.returned written) (Kept g) g := by
    refine kept_bind (kept_replaceGivenTags _ _ g) fun _ g => ?_
    refine kept_bind (kept_bind (kept_cache _ g) fun _ g => kept_bind (kept_cache _ g)
      fun _ g => ?_) fun _ g => ?_
    · split
      · exact kept_cache _ g
      · exact kept_pure g ()
    · cases written with
      | none =>
        refine kept_bind (kept_throw g (by rintro ⟨⟩)) fun _ g => ?_
        exact kept_bind (kept_emit _ g) fun _ g => kept_throw g (by rintro ⟨⟩)
      | some row =>
        refine kept_bind (kept_pure g _) fun _ g => ?_
        exact kept_bind (kept_emit _ g) fun _ g => kept_pure g row
  exact wpE_mono Pool.amid_monotone (fun result g' later => later.asked free kept) rest

theorem among_update (unicode : Unicode) (id : Units) (input : UpdateStoryInput)
    (userId : String) : wpE (Among ids) (StoriesService.update id input userId)
      (fun result g => (Request.update id input userId).Settled unicode result g ↔ g.lost = false)
      {} := by
  have asked : wpE (Among ids) (StoriesService.update id input userId) Asked {} := by
    rw [StoriesService.update_eq, wpE_bind]
    refine wpE_mono Pool.amid_monotone (fun result g kept => ?_) (kept_existing id {})
    have free : g.taken = [] := kept.taken
    have unlost : g.lost = false := kept.lost
    cases result with
    | error e => exact .untaken (fun same => kept.plain (by cases same; rfl)) free unlost
    | ok story =>
      simp only
      split
      · exact .untaken (by rintro ⟨⟩) free unlost
      · split
        · split
          · rw [wpE_bind]
            refine among_slugIsTaken ?_ (.conflict unlost) fun e plain =>
              .untaken (fun same => plain (by cases same; rfl)) free unlost
            simp only [Bool.false_eq_true, if_false]
            exact among_writeUpdate id input story free unlost
          · exact among_writeUpdate id input story free unlost
        · exact among_writeUpdate id input story free unlost
  exact wpE_mono Pool.amid_monotone (fun result g ended => ended.settled_iff) asked

end Calls

section Runs
variable (ids : UuidText) (unicode : Unicode)

def begin (world : World) (requests : List Request) :
    Pool World Call Call.Result (Except Exception Story) :=
  ⟨world, requests.map fun request => (request.method ids unicode).run⟩

/-- What each request has met after the turns of a schedule. -/
def met (world : World) (requests : List Request) (schedule : List (Nat × Choice)) :
    List Encounters :=
  Pool.recallAll (World.exec ids) encounters (List.replicate requests.length {})
    (begin ids unicode world requests) schedule

/-- Whatever is requested and however it is interleaved: no two rows share a slug, and a request
that is done has ended as it should exactly if the index has refused none of its writes. -/
theorem settled_iff_not_lost (world : World) (requests : List Request)
    (schedule : List (Nat × Choice)) :
    let after := (begin ids unicode world requests).run (World.exec ids) schedule
    (after.state.database.stories.rows.map (·.slug)).Nodup ∧
      ∀ (i : Nat) (request : Request) (result : Except Exception Story) (g : Encounters),
        requests[i]? = some request → after.result? i = some result →
        (met ids unicode world requests schedule)[i]? = some g →
        (request.Settled unicode result g ↔ g.lost = false) := by
  refine ⟨Store.Indexed.distinct _, fun i request result g asked done left => ?_⟩
  have about : (begin ids unicode world requests).threads[i]? =
      some (request.method ids unicode).run := by
    simp [begin, asked]
  have remembers : (List.replicate requests.length ({} : Encounters))[i]? = some {} := by
    obtain ⟨within, -⟩ := List.getElem?_eq_some_iff.mp asked
    rw [List.getElem?_replicate, if_pos within]
  have holds : (request.method ids unicode).run.wp (Among ids)
      (fun result g => request.Settled unicode result g ↔ g.lost = false) {} := by
    cases request with
    | create authorId input => exact among_create unicode authorId input
    | update id input userId => exact among_update unicode id input userId
  have settled := Pool.post_of_amid remembers about holds schedule (Pool.done_of_result? done) left
  exact settled

end Runs

/-- Two authors write a night under the same title. -/
def nights : List Request :=
  [.create "scheherazade" { title := units "Night" }, .create "dunyazade" { title := units "Night" }]

def turns (threads : List Nat) : List (Nat × Choice) := threads.map fun i => (i, {})

/-- One after the other: the second probes twice. -/
theorem nights_in_turn : ∃ result g,
    ((begin .hexadecimal .ascii World.empty nights).run (World.exec .hexadecimal)
      (turns [0, 0, 0, 1, 1, 1, 1])).result? 1 = some result ∧
    (Request.create "dunyazade" { title := units "Night" }).Settled .ascii result g ∧
      g.inserted = some (units "night-2") := by
  have ended : (((begin .hexadecimal .ascii World.empty nights).run (World.exec .hexadecimal)
    (turns [0, 0, 0, 1, 1, 1, 1])).result? 1).isSome := by decide
  obtain ⟨result, ended⟩ := Option.isSome_iff_exists.mp ended
  have left : (met .hexadecimal .ascii World.empty nights (turns [0, 0, 0, 1, 1, 1, 1]))[1]? =
      some ⟨[units "night"], some (units "night-2"), false, false⟩ := by decide
  exact ⟨result, _, ended, ((settled_iff_not_lost .hexadecimal .ascii World.empty nights
    (turns [0, 0, 0, 1, 1, 1, 1])).2 1 _ result _ rfl ended left).mpr rfl, rfl⟩

/-- Both find the slug free before either has inserted. -/
theorem second_night_lost : ∃ result g,
    ((begin .hexadecimal .ascii World.empty nights).run (World.exec .hexadecimal)
      (turns [0, 1, 0, 1])).result? 1 = some result ∧
    (met .hexadecimal .ascii World.empty nights (turns [0, 1, 0, 1]))[1]? = some g ∧
    ¬ (Request.create "dunyazade" { title := units "Night" }).Settled .ascii result g := by
  refine ⟨.error slugViolation, { lost := true }, by decide, by decide, ?_⟩
  exact fun settled => settled.1 rfl

end Stories
