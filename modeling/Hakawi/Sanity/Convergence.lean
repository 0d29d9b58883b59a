import Hakawi.Effects.Pool
import Hakawi.Sanity.Service

/-!
# The document after the last event

The handlers of one story's events overlap, and carry neither a version nor the
answer of their lookup into the write. What the last event says stays if its write
takes effect, leaves nothing of the old document, and no earlier event's write that
comes later changes the document.
-/

namespace Sanity

open Common Effects

/-- The document says what the snapshot says; what is empty there is absent. -/
structure Mirrors (dates : Dates) (story : StorySnapshot) (doc : SanityStoryDocument) : Prop where
  _id : doc._id = documentIdOf story.id
  title : doc.title = story.title
  slug : doc.slug = story.slug
  excerpt : doc.excerpt = story.excerpt
  content : doc.content = story.content
  coverImage : doc.coverImage = story.coverImage
  status : doc.status = story.status
  publishedAt : isoText dates (coerceDate dates story.publishedAt) = .ok doc.publishedAt
  authorId : doc.authorId = story.authorId
  hakawiId : doc.hakawiId = story.id

theorem toSanityDocument_mirrors {dates : Dates} {story : StorySnapshot} {doc : SanityStoryDocument}
    (made : toSanityDocument dates story = .ok doc) : Mirrors dates story doc := by
  simp only [toSanityDocument, bind, Except.bind] at made
  cases text : isoText dates (coerceDate dates story.publishedAt) with
  | error failure =>
    rw [text] at made
    cases made
  | ok publishedAt =>
    rw [text] at made
    cases made
    exact ⟨rfl, rfl, rfl, rfl, rfl, rfl, rfl, text, rfl, rfl⟩

theorem storyDocument_eq {dates : Dates} {story : StorySnapshot} {doc : SanityStoryDocument}
    (made : toSanityDocument dates story = .ok doc) : storyDocument doc = doc := by
  have mirrors := toSanityDocument_mirrors made
  have same : documentIdOf doc.hakawiId = doc._id := by rw [mirrors.hakawiId, mirrors._id]
  simp only [storyDocument, same]

namespace StoryEvent

def storyId : StoryEvent → String
  | created storyId _ | updated storyId _ | published storyId _ | archived storyId _ => storyId
  | deleted storyId => storyId

/-- The snapshot that the event carries. -/
def snapshot : StoryEvent → Option StorySnapshot
  | created _ story | updated _ story | published _ story | archived _ story => story
  | deleted _ => none

/-- An event of the story `id`, and so is its snapshot. -/
def Of (id : String) (event : StoryEvent) : Prop :=
  event.storyId = id ∧ ∀ story ∈ event.snapshot, story.id = id

instance (id : String) (event : StoryEvent) : Decidable (event.Of id) :=
  inferInstanceAs (Decidable (_ ∧ _))

/-- The document that the event's handler writes, no document if it deletes it; `none` where it
writes nothing. -/
def leaves (dates : Dates) (event : StoryEvent) : Option (Option SanityStoryDocument) :=
  match event with
  | deleted _ => some none
  | event => event.snapshot.bind fun story => (toSanityDocument dates story).toOption.map some

/-- The event carries the snapshot it is about, with a date that has a text, or it is
`story.deleted`. -/
def Complete (dates : Dates) (event : StoryEvent) : Prop := (event.leaves dates).isSome

instance (dates : Dates) (event : StoryEvent) : Decidable (event.Complete dates) :=
  inferInstanceAs (Decidable (_ = true))

/-- What the document has to be when this was the last event. -/
def Agrees (dates : Dates) (event : StoryEvent) (document : Option SanityStoryDocument) : Prop :=
  match event with
  | deleted _ => document = none
  | event => ∃ story ∈ event.snapshot, ∃ doc ∈ document, Mirrors dates story doc

variable {dates : Dates} {event : StoryEvent}

theorem mirrors_of_leaves {story : Option StorySnapshot} {expected : Option SanityStoryDocument}
    (left : (story.bind fun story => (toSanityDocument dates story).toOption.map some) =
      some expected) :
    ∃ snapshot ∈ story, ∃ doc ∈ expected, Mirrors dates snapshot doc := by
  obtain ⟨snapshot, carried, made⟩ := Option.bind_eq_some_iff.mp left
  obtain ⟨doc, made, rfl⟩ := Option.map_eq_some_iff.mp made
  refine ⟨snapshot, carried, doc, rfl, toSanityDocument_mirrors ?_⟩
  cases converted : toSanityDocument dates snapshot with
  | error failure =>
    rw [converted] at made
    cases made
  | ok doc' =>
    rw [converted] at made
    cases made
    rfl

theorem agrees_of_leaves {expected : Option SanityStoryDocument}
    (left : event.leaves dates = some expected) : event.Agrees dates expected := by
  cases event with
  | deleted storyId => exact (Option.some.inj left).symm
  | _ => exact mirrors_of_leaves left

/-- An event that leaves a document carries the snapshot that the document mirrors. -/
theorem snapshot_of_leaves {doc : SanityStoryDocument}
    (left : event.leaves dates = some (some doc)) :
    ∃ story ∈ event.snapshot, Mirrors dates story doc := by
  have agrees := agrees_of_leaves left
  cases event with
  | deleted storyId => cases agrees
  | _ =>
    obtain ⟨story, carried, made, same, mirrors⟩ := agrees
    cases same
    exact ⟨story, carried, mirrors⟩

end StoryEvent

/-- How far a handler has come: nothing written yet, its lookup thrown, or its write done. -/
inductive Stage where
  | pending
  | lost
  | wrote
  deriving DecidableEq

/-- What a handler remembers. -/
structure Progress where
  event : StoryEvent
  stage : Stage := .pending

namespace Progress
variable (dates : Dates)

/-- A handler writes the document of its own event. -/
def allowed (progress : Progress) : SanityOp → Prop
  | .fetchStory _ => True
  | .patch documentId doc =>
    progress.event.leaves dates = some (some doc) ∧ documentId = doc._id
  | .create doc => progress.event.leaves dates = some (some doc)
  | .delete documentId =>
    progress.event.leaves dates = some none ∧ documentId = documentIdOf progress.event.storyId

def next (progress : Progress) : (op : SanityOp) → op.Result → Progress
  | .fetchStory _, .ok _ => progress
  | .fetchStory _, .error _ => { progress with stage := .lost }
  | .patch _ _, _ => { progress with stage := .wrote }
  | .create _, _ => { progress with stage := .wrote }
  | .delete _, _ => { progress with stage := .wrote }

def protocol : Protocol SanityOp SanityOp.Result Progress := ⟨allowed dates, next⟩

@[simp] theorem protocol_spec (op : SanityOp) (Q : op.Result → Progress → Prop)
    (progress : Progress) :
    (protocol dates).spec op Q progress =
      (allowed dates progress op ∧ ∀ r, Q r (next progress op r)) := rfl

/-- An event that leaves something behind has been written, or its lookup has thrown. -/
def Ended (progress : Progress) : Prop :=
  progress.event.Complete dates → progress.stage ≠ .pending

end Progress

open Progress

section Handlers
variable {dates : Dates} {config : Config}

theorem syncStoryToSanity_reaches (enabled : isEnabled config = true) {story : StorySnapshot}
    {doc : SanityStoryDocument} (made : toSanityDocument dates story = .ok doc)
    {event : StoryEvent} (own : event.leaves dates = some (some doc)) :
    wpE (protocol dates).spec (syncStoryToSanity config doc) (fun _ after => after.Ended dates)
      ⟨event, .pending⟩ := by
  rw [← storyDocument_eq made] at own
  have wrote : ∀ after : Progress, after.stage = .wrote → after.Ended dates := by
    rintro after reached -
    rw [reached]
    nofun
  simp only [syncStoryToSanity, enabled, Bool.not_true, Bool.false_eq_true, if_false, wpE_tryCatch,
    wpE_bind, perform, wpE_mk_call, Program.wp_done, protocol_spec]
  refine ⟨trivial, fun found => ?_⟩
  cases found with
  | error failure =>
    intro _
    nofun
  | ok existing =>
    simp only [wpE_ite]
    split
    · refine ⟨⟨own, rfl⟩, fun answer => ?_⟩
      cases answer <;> exact wrote _ rfl
    · refine ⟨own, fun answer => ?_⟩
      cases answer <;> exact wrote _ rfl

theorem syncSnapshot_reaches (enabled : isEnabled config = true) {story : Option StorySnapshot}
    {event : StoryEvent} (own : event.leaves dates =
      story.bind fun story => (toSanityDocument dates story).toOption.map some) :
    wpE (protocol dates).spec (syncSnapshot dates config story) (fun _ after => after.Ended dates)
      ⟨event, .pending⟩ := by
  have unwritten : event.leaves dates = none →
      Progress.Ended dates ⟨event, .pending⟩ := by
    intro nothing complete
    rw [StoryEvent.Complete, nothing] at complete
    cases complete
  simp only [syncSnapshot, enabled, Bool.not_true, Bool.false_eq_true, if_false]
  cases story with
  | none => exact unwritten own
  | some story =>
    simp only [wpE_bind, wpE_liftM]
    cases made : toSanityDocument dates story with
    | error failure => exact unwritten (by simpa [made, Except.toOption] using own)
    | ok doc =>
      simp only [Option.bind_some, made] at own
      exact wpE_mono (Protocol.spec_monotone _) (fun r after ended => by cases r <;> exact ended)
        (syncStoryToSanity_reaches enabled made own)

theorem handleStoryDeleted_reaches (enabled : isEnabled config = true) (storyId : String) :
    wpE (protocol dates).spec (handleStoryDeleted config storyId)
      (fun _ after => after.Ended dates) ⟨.deleted storyId, .pending⟩ := by
  simp only [handleStoryDeleted, deleteStoryFromSanity, enabled, Bool.not_true, Bool.false_eq_true,
    if_false, wpE_tryCatch, wpE_bind, perform, wpE_mk_call, Program.wp_done, protocol_spec]
  refine ⟨⟨rfl, rfl⟩, fun answer => ?_⟩
  cases answer <;>
  · intro _
    nofun

/-- Each handler writes what its event leaves, once its lookup has been answered. -/
theorem StoryEvent.reaches (enabled : isEnabled config = true) (event : StoryEvent) :
    (protocol dates).Reaches (fun _ after => after.Ended dates) ⟨event, .pending⟩
      (event.handler dates config).run := by
  cases event with
  | deleted storyId => exact handleStoryDeleted_reaches enabled storyId
  | created storyId story => exact syncSnapshot_reaches enabled rfl
  | updated storyId story => exact syncSnapshot_reaches enabled rfl
  | published storyId story => exact syncSnapshot_reaches enabled rfl
  | archived storyId story => exact syncSnapshot_reaches enabled rfl

end Handlers

section Writes
variable (choice : Choice) (dataset : Dataset)

/-- The call of the last event takes effect: it does not throw, it creates the document where
there is none, and it patches one that has no field which the new one leaves empty. -/
def Lands : SanityOp → Prop
  | .fetchStory _ => choice.fault = none
  | .patch documentId doc => choice.fault = none ∧
    ∃ existing ∈ dataset.getDocument documentId, existing.CoveredBy doc
  | .create doc => choice.fault = none ∧ dataset.getDocument doc._id = none
  | .delete documentId => choice.fault = none ∨ dataset.getDocument documentId = none

/-- The call changes nothing: it throws, it creates a document that is there, it patches one that
is missing or says so already, or it deletes one that is missing. -/
def Idle : SanityOp → Prop
  | .fetchStory _ => True
  | .patch documentId doc => choice.fault ≠ none ∨
    ∀ existing ∈ dataset.getDocument documentId, existing.set doc = existing
  | .create doc => choice.fault ≠ none ∨ dataset.getDocument doc._id ≠ none
  | .delete documentId => choice.fault ≠ none ∨ dataset.getDocument documentId = none

instance : (op : SanityOp) → Decidable (Lands choice dataset op)
  | .fetchStory _ => inferInstanceAs (Decidable (_ = _))
  | .patch _ _ => inferInstanceAs (Decidable (_ ∧ _))
  | .create _ => inferInstanceAs (Decidable (_ ∧ _))
  | .delete _ => inferInstanceAs (Decidable (_ ∨ _))

instance : (op : SanityOp) → Decidable (Idle choice dataset op)
  | .fetchStory _ => .isTrue trivial
  | .patch _ _ => inferInstanceAs (Decidable (_ ∨ _))
  | .create _ => inferInstanceAs (Decidable (_ ∨ _))
  | .delete _ => inferInstanceAs (Decidable (_ ∨ _))

/-- The call of handler `i`, where `last` handles the last event: the last event's calls take
effect, and once it has written no other call changes anything. -/
def Timely (last i : Nat) (choice : Choice) (dataset : Dataset) (memory : List Progress)
    (_ : Progress) (op : SanityOp) : Prop :=
  if i = last then Lands choice dataset op
  else (memory[last]?.map Progress.stage) = some .wrote → Idle choice dataset op

instance (last i : Nat) (choice : Choice) (dataset : Dataset) (memory : List Progress)
    (progress : Progress) (op : SanityOp) :
    Decidable (Timely last i choice dataset memory progress op) :=
  inferInstanceAs (Decidable (ite _ _ _))

end Writes

section Steps
variable {dates : Dates} {choice : Choice} {dataset : Dataset} {op : SanityOp}
  {documentId : String}

theorem exec_fault (throws : choice.fault ≠ none) : (exec choice dataset op).2 = dataset := by
  cases faulty : choice.fault with
  | none => exact absurd faulty throws
  | some failure => simp only [exec, faulty]

/-- An idle call of the document leaves it as it is. -/
theorem idle_keeps (about : op.writes = some documentId) (idle : Idle choice dataset op) :
    (exec choice dataset op).2.getDocument documentId = dataset.getDocument documentId := by
  by_cases throws : choice.fault = none
  · simp only [exec, throws]
    cases op with
    | fetchStory hakawiId => rfl
    | patch named doc =>
      obtain rfl : named = documentId := Option.some.inj about
      have kept := idle.resolve_left (not_not.mpr throws)
      simp only [performOp]
      split
      · rw [Dataset.getDocument_patch]
        cases found : dataset.getDocument named with
        | none => rfl
        | some existing => exact congrArg some (kept existing found)
      · rfl
    | create doc =>
      have there := idle.resolve_left (not_not.mpr throws)
      simp only [performOp, dif_neg there]
    | delete named =>
      obtain rfl : named = documentId := Option.some.inj about
      simp only [performOp, Dataset.getDocument_delete]
      exact (idle.resolve_left (not_not.mpr throws)).symm
  · rw [exec_fault throws]

/-- What the last event's write leaves when it takes effect. -/
theorem lands_leaves {progress : Progress} {expected : Option SanityStoryDocument}
    (allowed : allowed dates progress op) (about : op.writes = some documentId)
    (left : progress.event.leaves dates = some expected) (lands : Lands choice dataset op) :
    (exec choice dataset op).2.getDocument documentId = expected := by
  cases op with
  | fetchStory hakawiId => cases about
  | patch named doc =>
    obtain rfl : named = documentId := Option.some.inj about
    obtain ⟨throws, existing, found, covered⟩ := lands
    obtain ⟨own, rfl⟩ := allowed
    cases left.symm.trans own
    have known : dataset.getDocument doc._id = some existing := found
    have same : existing._id = doc._id := by simpa using List.find?_some known
    simp only [exec, throws, performOp, known, Option.isSome_some, if_true,
      Dataset.getDocument_patch, Option.map_some]
    rw [(SanityStoryDocument.set_eq_iff _ _ same).mpr covered]
  | create doc =>
    obtain rfl : doc._id = documentId := Option.some.inj about
    obtain ⟨throws, missing⟩ := lands
    cases left.symm.trans allowed
    simp only [exec, throws, performOp, dif_pos missing, Dataset.getDocument_insert]
  | delete named =>
    obtain rfl : named = documentId := Option.some.inj about
    cases left.symm.trans allowed.1
    by_cases throws : choice.fault = none
    · simp only [exec, throws, performOp, Dataset.getDocument_delete]
    · rw [exec_fault throws]
      exact lands.resolve_left throws

/-- A call of an event of the story writes the story's document, if any. -/
theorem writes_of_allowed {progress : Progress} {id : String} (own : progress.event.Of id)
    (allowed : allowed dates progress op) :
    op.writes = none ∨ op.writes = some (documentIdOf id) := by
  have synced : ∀ doc, progress.event.leaves dates = some (some doc) →
      doc._id = documentIdOf id := by
    intro doc left
    obtain ⟨story, carried, mirrors⟩ := StoryEvent.snapshot_of_leaves left
    rw [mirrors._id, own.2 story carried]
  cases op with
  | fetchStory hakawiId => exact .inl rfl
  | patch named doc =>
    obtain ⟨left, rfl⟩ := allowed
    exact .inr (congrArg some (synced doc left))
  | create doc => exact .inr (congrArg some (synced doc allowed))
  | delete named =>
    obtain ⟨-, rfl⟩ := allowed
    exact .inr (congrArg (some ∘ documentIdOf) own.1)

end Steps

/-- The handlers of any events, over one dataset. -/
def sanityPool (dates : Dates) (config : Config) (dataset : Dataset) (events : List StoryEvent) :
    Pool Dataset SanityOp SanityOp.Result (Except Failure Unit) :=
  ⟨dataset, events.map fun event => (event.handler dates config).run⟩

/-- Nothing has been written by any handler. -/
def begun (events : List StoryEvent) : List Progress := events.map fun event => ⟨event, .pending⟩

/-- The handler of the last event has not lost its lookup, and once it has written the document
is as it left it. -/
structure OwnProgress (id : String) (event : StoryEvent) (expected : Option SanityStoryDocument)
    (dataset : Dataset) (progress : Progress) : Prop where
  event : progress.event = event
  answered : progress.stage ≠ .lost
  written : progress.stage = .wrote → dataset.getDocument (documentIdOf id) = expected

/-- All handlers are about the story, and the last event's has come so far. -/
structure Settled (id : String) (last : Nat) (event : StoryEvent)
    (expected : Option SanityStoryDocument) (dataset : Dataset) (memory : List Progress) : Prop where
  story : ∀ progress ∈ memory, progress.event.Of id
  own : ∃ progress, memory[last]? = some progress ∧
    OwnProgress id event expected dataset progress

section Runs
variable {dates : Dates} {config : Config} {id : String} {last : Nat} {event : StoryEvent}
  {expected : Option SanityStoryDocument}

theorem next_event (progress : Progress) (op : SanityOp) (r : op.Result) :
    (next progress op r).event = progress.event := by
  cases op with
  | fetchStory hakawiId => cases r <;> rfl
  | _ => rfl

/-- A call that writes nothing leaves the dataset as it is. -/
theorem exec_unwritten {choice : Choice} {dataset : Dataset} {op : SanityOp}
    (reads : op.writes = none) : (exec choice dataset op).2 = dataset := by
  cases op with
  | fetchStory hakawiId =>
    cases faulty : choice.fault <;> simp only [exec, faulty, performOp]
  | _ => cases reads

theorem next_wrote {progress : Progress} {op : SanityOp} {documentId : String}
    (writes : op.writes = some documentId) (r : op.Result) :
    (next progress op r).stage = .wrote := by
  cases op with
  | fetchStory hakawiId => cases writes
  | _ => rfl

/-- A lookup that is answered leaves its handler where it was. -/
theorem next_answered {choice : Choice} {dataset : Dataset} {op : SanityOp}
    (reads : op.writes = none) (lands : Lands choice dataset op) (progress : Progress) :
    next progress op (exec choice dataset op).1 = progress := by
  cases op with
  | fetchStory hakawiId =>
    have answered : choice.fault = none := lands
    simp only [exec, answered, performOp, next]
  | _ => cases reads

theorem settled_step (left : event.leaves dates = some expected) (choice : Choice)
    (dataset : Dataset) (memory : List Progress) (i : Nat) (progress : Progress) (op : SanityOp)
    (known : memory[i]? = some progress) (settled : Settled id last event expected dataset memory)
    (allowed : allowed dates progress op)
    (timely : Timely last i choice dataset memory progress op) :
    Settled id last event expected (exec choice dataset op).2
      (memory.set i (next progress op (exec choice dataset op).1)) := by
  have ofStory : progress.event.Of id := settled.story _ (List.mem_of_getElem? known)
  have about := writes_of_allowed ofStory allowed
  obtain ⟨mine, found, own⟩ := settled.own
  refine ⟨Pool.forall_mem_set settled.story (by rwa [next_event]), ?_⟩
  by_cases same : i = last
  · subst same
    cases known.symm.trans found
    rw [Timely, if_pos rfl] at timely
    refine ⟨_, (Pool.getElem?_set_of_some known _ i).trans (if_pos rfl), ?_⟩
    rcases about with reads | writes
    · rwa [next_answered reads timely, exec_unwritten reads]
    · refine ⟨by rw [next_event, own.event], ?_, fun _ => ?_⟩
      · rw [next_wrote writes]
        nofun
      · exact lands_leaves allowed writes (own.event ▸ left) timely
  · refine ⟨mine, (List.getElem?_set_ne same).trans found, own.event, own.answered,
      fun wrote => ?_⟩
    rw [Timely, if_neg same, found] at timely
    rcases about with reads | writes
    · rw [exec_unwritten reads, own.written wrote]
    · rw [idle_keeps writes (timely (congrArg some wrote)), own.written wrote]

variable (dates) in
theorem sanityPool_reaches (enabled : isEnabled config = true) (dataset : Dataset)
    (events : List StoryEvent) :
    List.Forall₂ ((protocol dates).Reaches fun _ after => after.Ended dates) (begun events)
      (sanityPool dates config dataset events).threads := by
  refine List.forall₂_map_left_iff.mpr (List.forall₂_map_right_iff.mpr ?_)
  exact List.forall₂_same.mpr fun event _ => event.reaches enabled

theorem begun_settled {events : List StoryEvent} (ofStory : ∀ event ∈ events, event.Of id)
    (final : events[last]? = some event) (dataset : Dataset) :
    Settled id last event expected dataset (begun events) := by
  constructor
  · intro progress member
    obtain ⟨event, emitted, rfl⟩ := List.mem_map.mp member
    exact ofStory event emitted
  · refine ⟨⟨event, .pending⟩, ?_, rfl, nofun, nofun⟩
    rw [begun, List.getElem?_map, final]
    rfl

end Runs

/-- However the handlers of one story's events are interleaved, and whatever the dataset holds
before: when all are done, the document is what the last event says, if the last event's calls
take effect and no call of another event that comes after its write changes the document. -/
theorem document_agrees (dates : Dates) (config : Config) (enabled : isEnabled config = true)
    (id : String) (dataset : Dataset) (events : List StoryEvent)
    (ofStory : ∀ event ∈ events, event.Of id) (event : StoryEvent)
    (final : events.getLast? = some event) (complete : event.Complete dates)
    (schedule : List (Nat × Choice))
    (finished : ((sanityPool dates config dataset events).run exec schedule).Finished)
    (timely : Pool.Observed exec (protocol dates) (Timely (events.length - 1)) schedule
      (begun events) (sanityPool dates config dataset events)) :
    let after := ((sanityPool dates config dataset events).run exec schedule).state
    event.Agrees dates (after.getDocument (documentIdOf id)) := by
  intro after
  obtain ⟨expected, left⟩ := Option.isSome_iff_exists.mp complete
  rw [List.getLast?_eq_getElem?] at final
  have reaches := sanityPool_reaches dates enabled dataset events
  have follow : Pool.Follow (protocol dates) (begun events)
      (sanityPool dates config dataset events) := reaches.imp fun _ _ each => each.follows
  have settled : Settled id (events.length - 1) event expected after
      (Pool.recallAll exec (protocol dates) (begun events)
        (sanityPool dates config dataset events) schedule) :=
    Pool.observed_invariant (settled_step left) (begun_settled ofStory final dataset) follow timely
  obtain ⟨progress, found, own⟩ := settled.own
  have ended : progress.Ended dates :=
    Pool.post_of_finished (Pool.run_reaches reaches schedule) finished progress
      (List.mem_of_getElem? found)
  have wrote : progress.stage = .wrote := by
    have begins := ended (own.event ▸ complete)
    have answered := own.answered
    cases stage : progress.stage with
    | pending => exact absurd stage begins
    | lost => exact absurd stage answered
    | wrote => rfl
  rw [own.written wrote]
  exact StoryEvent.agrees_of_leaves left

def hosted : Config := ⟨some "hakawi", some "production"⟩

def undated : Dates := ⟨fun _ => none, fun _ => ""⟩

/-- The story of the examples, with or without an excerpt. -/
def tale (title : String) (excerpt : Option String) : StorySnapshot where
  id := "1"
  authorId := "author"
  title
  slug := "tale"
  excerpt
  content := none
  coverImage := none
  status := "draft"
  publishedAt := none

/-- An excerpt is added, the handlers one after the other. -/
theorem document_agrees_added :
    let events := [.created "1" (some (tale "Tale" none)),
      .updated "1" (some (tale "Tale" (some "Once")))]
    let after := ((sanityPool undated hosted .empty events).run exec
      [(0, .quiet), (0, .quiet), (1, .quiet), (1, .quiet)]).state
    StoryEvent.Agrees undated (.updated "1" (some (tale "Tale" (some "Once"))))
      (after.getDocument (documentIdOf "1")) :=
  document_agrees undated hosted (by decide) "1" .empty _ (by decide) _ rfl
    (by decide) _ (by decide) (by decide)

/-- The excerpt is taken away, the handlers one after the other, and stays in the document; and a
story is deleted between the lookup of its creation and the write, which brings it back. -/
theorem document_disagrees :
    (let events := [.created "1" (some (tale "Tale" (some "Once"))),
        .updated "1" (some (tale "Tale" none))]
      let pool := (sanityPool undated hosted .empty events).run exec
        [(0, .quiet), (0, .quiet), (1, .quiet), (1, .quiet)]
      pool.Finished ∧ ¬ StoryEvent.Agrees undated (.updated "1" (some (tale "Tale" none)))
        (pool.state.getDocument (documentIdOf "1"))) ∧
    (let events := [.created "1" (some (tale "Tale" none)), .deleted "1"]
      let pool := (sanityPool undated hosted .empty events).run exec
        [(0, .quiet), (1, .quiet), (0, .quiet)]
      pool.Finished ∧ ¬ StoryEvent.Agrees undated (.deleted "1")
        (pool.state.getDocument (documentIdOf "1"))) := by
  refine ⟨⟨by decide, ?_⟩, ⟨by decide, ?_⟩⟩
  · rintro ⟨story, carried, doc, found, mirrors⟩
    obtain rfl := Option.some.inj carried
    have stale : doc.excerpt = some "Once" := by
      have kept := congrArg (Option.map SanityStoryDocument.excerpt) found
      exact Option.some.inj (kept.symm.trans (by decide))
    rw [mirrors.excerpt] at stale
    cases stale
  · intro gone
    have there := congrArg Option.isSome gone
    revert there
    decide

end Sanity
