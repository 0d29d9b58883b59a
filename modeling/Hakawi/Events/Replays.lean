import Hakawi.Effects.Pool
import Hakawi.Events.Faithful

/-!
# Replays of the dead letters

Any number of replays, of the same entry or of others, each at its own pace. A replay reads an
entry, delivers it and then deletes it, so another that reads it in between delivers it too.
Where none does, every entry is delivered once.
-/

namespace Events
open Common Effects

/-- How far a replay is. -/
inductive Phase where
  | idle
  /-- There was no entry. -/
  | missing
  /-- The entry is not accepted. -/
  | refused
  /-- The entry is not accepted, and is to be written again. -/
  | retrying (parked : DLQEvent)
  | read (letter : Event)
  | delivered (letter : Event)
  | deleted (letter : Event)

namespace Phase

/-- The letter that a replay has read to deliver it. -/
def letter? : Phase → Option Event
  | .read letter | .delivered letter | .deleted letter => some letter
  | _ => none

/-- The letter that a replay has delivered. -/
def sent? : Phase → Option Event
  | .delivered letter | .deleted letter => some letter
  | _ => none

/-- Has read an entry and not deleted it. -/
def holds : Phase → Bool
  | .read _ | .delivered _ => true
  | _ => false

end Phase

/-- A replay of an entry. -/
structure Replay where
  id : String
  phase : Phase := .idle

section Protocol
variable (texts : Texts)

/-- What a replay makes of what it reads first. -/
def Phase.reads (value : Option Text) : Phase :=
  match truthy value with
  | none => .missing
  | some text =>
    match DLQEvent.parse texts text with
    | none => .idle
    | some parked => if parked.event.accepted texts then .read parked.event else .refused

/-- What it makes of what it reads to write it again. -/
def Phase.rereads (value : Option Text) : Phase :=
  ((truthy value).bind (DLQEvent.parse texts)).elim .refused .retrying

def Phase.next : Phase → (call : Call) → call.Result → Phase
  | .idle, .valkey (.get _), .ok value => .reads texts value
  | .refused, .valkey (.get _), .ok value => .rereads texts value
  | .read _, .deliver letter, _ => .delivered letter
  | .delivered letter, .valkey (.del _), .ok _ => .deleted letter
  | phase, _, _ => phase

/-- The calls that a replay of an entry makes in each phase. -/
inductive Calls (id : String) : Phase → Call → Prop
  | look : Calls id .idle (.valkey (.get (dlqKey id)))
  | lookAgain : Calls id .refused (.valkey (.get (dlqKey id)))
  | rewrite (parked : DLQEvent) : Calls id (.retrying parked) (.valkey (.set (dlqKey id)
      (DLQEvent.stringify texts { parked with retryCount := parked.retryCount + 1 })
      (some DLQ_TTL_SECONDS)))
  | index (parked : DLQEvent) : Calls id (.retrying parked) (.valkey (.sadd DLQ_INDEX_KEY id))
  | deliver (letter : Event) : Calls id (.read letter) (.deliver letter)
  | delete (letter : Event) : Calls id (.delivered letter) (.valkey (.del (dlqKey id)))
  | unindex (letter : Event) : Calls id (.deleted letter) (.valkey (.srem DLQ_INDEX_KEY id))

def replays : Protocol Call Call.Result Replay :=
  ⟨fun replay => Calls texts replay.id replay.phase, fun replay call result =>
    { replay with phase := replay.phase.next texts call result }⟩

/-- No entry is read to be delivered that another replay has read and not yet deleted. -/
def Undisturbed (_ : Choice) (_ : World) (memory : List Replay) (replay : Replay) (_ : Call) :
    Prop :=
  replay.phase matches .idle → ∀ other ∈ memory, other.id = replay.id → ¬ other.phase.holds

instance (choice : Choice) (world : World) (memory : List Replay) (replay : Replay)
    (call : Call) : Decidable (Undisturbed choice world memory replay call) :=
  inferInstanceAs (Decidable (_ → ∀ other ∈ memory, _ → ¬ _))

/-- How a replay ends. -/
def Replay.Ended (result : Except Failure Replayed) (replay : Replay) : Prop :=
  match result with
  | .error _ => True
  | .ok ⟨true, _⟩ => ∃ letter, replay.phase = .deleted letter
  | .ok ⟨false, _⟩ => replay.phase = .missing ∨ replay.phase = .refused ∨
    ∃ parked, replay.phase = .retrying parked

variable {texts}

theorem reaches_valkey {command : Command String} {replay : Replay}
    {Q : Except Failure command.Answer → Replay → Prop}
    (allowed : Calls texts replay.id replay.phase (.valkey command))
    (rest : ∀ result, Q result { replay with
      phase := replay.phase.next texts (.valkey command) result }) :
    wpE (replays texts).spec (valkey command) Q replay := ⟨allowed, rest⟩

theorem reaches_get {id : String} {phase : Phase}
    {Q : Except Failure (Option DLQEvent) → Replay → Prop}
    (reading : phase = .idle ∨ phase = .refused) (failed : ∀ e phase, Q (.error e) ⟨id, phase⟩)
    (missing : ∀ value, truthy value = none → Q (.ok none)
      ⟨id, phase.next texts (.valkey (.get (dlqKey id))) (.ok value)⟩)
    (found : ∀ value text parked, truthy value = some text →
      DLQEvent.parse texts text = some parked → Q (.ok (some parked))
        ⟨id, phase.next texts (.valkey (.get (dlqKey id))) (.ok value)⟩) :
    wpE (replays texts).spec (DLQService.get texts id) Q ⟨id, phase⟩ := by
  rw [DLQService.get, wpE_bind]
  refine reaches_valkey ?_ fun result => ?_
  · rcases reading with rfl | rfl
    · exact .look
    · exact .lookAgain
  · cases result with
    | error e => exact failed e _
    | ok value =>
      cases present : truthy value with
      | none =>
        simp only [present]
        exact missing value present
      | some text =>
        simp only [present]
        cases parses : DLQEvent.parse texts text with
        | none => exact failed _ _
        | some parked => exact found value text parked present parses

theorem reaches_retry (id : String) : wpE (replays texts).spec (DLQService.retry texts id)
    (fun result replay => ∀ done, result = .ok done →
      replay.phase = .refused ∨ ∃ parked, replay.phase = .retrying parked) ⟨id, .refused⟩ := by
  rw [DLQService.retry, wpE_bind]
  refine reaches_get (Or.inr rfl) (fun _ _ _ never => nomatch never) (fun value absent => ?_)
    fun value text parked present parses => ?_
  · intro _ _
    left
    change Phase.rereads texts value = .refused
    rw [Phase.rereads, absent]
    rfl
  · have again : Phase.next texts .refused (.valkey (.get (dlqKey id))) (.ok value) =
        .retrying parked := by
      change Phase.rereads texts value = .retrying parked
      rw [Phase.rereads, present, Option.bind_some, parses]
      rfl
    rw [again]
    refine reaches_valkey (.rewrite parked) fun result => ?_
    cases result with
    | error e => exact fun _ never => by cases never
    | ok _ => exact reaches_valkey (.index parked) fun result _ _ => Or.inr ⟨parked, rfl⟩

theorem reaches_replayDeadLettered (id : String) : wpE (replays texts).spec
    (EventValidatorService.replayDeadLettered texts id) (Replay.Ended) ⟨id, .idle⟩ := by
  rw [EventValidatorService.replayDeadLettered, wpE_bind]
  refine reaches_get (Or.inl rfl) (fun _ _ => trivial) (fun value absent => ?_)
    fun value text parked present parses => ?_
  · left
    change Phase.reads texts value = .missing
    rw [Phase.reads, absent]
  · have first : Phase.next texts .idle (.valkey (.get (dlqKey id))) (.ok value) =
        if parked.event.accepted texts then .read parked.event else .refused := by
      change Phase.reads texts value = _
      rw [Phase.reads, present]
      simp only [parses]
    rw [first, Event.accepted, DLQEvent.event]
    cases validated : validateEvent texts parked.eventName parked.payload with
    | error reason =>
      simp only [validated, wpE_bind]
      refine wpE_mono (replays texts).spec_monotone (fun result replay retried => ?_)
        (reaches_retry id)
      cases result with
      | error e => trivial
      | ok done => exact Or.inr (retried done rfl)
    | ok _ =>
      simp only [validated, wpE_bind]
      refine ⟨.deliver _, fun _ => ?_⟩
      rw [DLQService.delete]
      simp only [Program.wp_done]
      refine reaches_valkey (.delete _) fun result => ?_
      cases result with
      | error e => trivial
      | ok _ =>
        refine reaches_valkey (.unindex _) fun result => ?_
        cases result with
        | error e => trivial
        | ok _ => exact ⟨_, rfl⟩

end Protocol

theorem dlqKey_injective {id id' : String} (same : dlqKey id = dlqKey id') : id = id' := by
  simpa [dlqKey] using same

theorem dlqKey_eq_index_iff {id : String} : dlqKey id = DLQ_INDEX_KEY ↔ id = "index" := by
  constructor
  · intro same
    exact dlqKey_injective (same.trans (by decide))
  · rintro rfl
    decide

section Effects
variable {texts : Texts} {world : World} {choice : Choice} {replay : Replay} {call : Call}
  {id : String}

/-- The text under a key. -/
def World.TextAt (world : World) (key : String) (text : Text) : Prop :=
  ∃ expiresAt, world.store.entries key = some ⟨.text text, expiresAt⟩

theorem exec_store (choice : Choice) (world : World) (command : Command String) :
    (world.exec choice (.valkey command)).2.store = world.store ∨
      (world.exec choice (.valkey command)).2.store =
        (world.store.exec (world.clock + choice.elapsed) command).2 := by
  simp only [World.exec, ValkeyWorld.exec]
  cases choice.outcome with
  | performed => exact Or.inr rfl
  | refused => exact Or.inl rfl
  | lost => exact Or.inr rfl

/-- A command on a set turns nothing into a text. -/
theorem textAt_of_members {store : Valkey String} {now : Int} {key other member : String}
    {entry : Entry String} {text : Text} (isText : entry.content = .text text) :
    ((store.exec now (.sadd key member)).2.entries other = some entry →
      store.entries other = some entry) ∧
    ((store.exec now (.srem key member)).2.entries other = some entry →
      store.entries other = some entry) := by
  have put (content : Option (Entry String)) (never : ∀ e ∈ content, e.content ≠ .text text)
      (after : (store.put key content).entries other = some entry) :
      store.entries other = some entry := by
    by_cases same : other = key
    · subst same
      rw [Valkey.put_entries_self] at after
      exact absurd isText (never entry after)
    · rwa [Valkey.put_entries_ne same] at after
  constructor
  · simp only [Valkey.exec, Valkey.sadd]
    split
    · exact put _ (by simp)
    · exact put _ (by simp)
    · exact id
  · simp only [Valkey.exec, Valkey.srem]
    split
    · exact id
    · split
      · exact put _ (by simp)
      · exact put _ (by simp)
    · exact id

/-- A text that is there after a step was there before, or is an entry written again. -/
theorem exec_textAt {text : Text} (calls : Calls texts replay.id replay.phase call)
    (after : (world.exec choice call).2.TextAt (dlqKey id) text) :
    world.TextAt (dlqKey id) text ∨ ∃ parked, replay.phase = .retrying parked ∧
      id = replay.id ∧ text = DLQEvent.stringify texts
        { parked with retryCount := parked.retryCount + 1 } := by
  obtain ⟨own, phase⟩ := replay
  obtain ⟨expiresAt, after⟩ := after
  cases calls with
  | deliver letter => exact Or.inl ⟨expiresAt, after⟩
  | look | lookAgain =>
    rcases exec_store choice world (.get (dlqKey own)) with same | same
    all_goals
      rw [same] at after
      exact Or.inl ⟨expiresAt, after⟩
  | index parked =>
    rcases exec_store choice world (.sadd DLQ_INDEX_KEY own) with same | same
    · rw [same] at after
      exact Or.inl ⟨expiresAt, after⟩
    · rw [same] at after
      exact Or.inl ⟨expiresAt, (textAt_of_members rfl).1 after⟩
  | unindex letter =>
    rcases exec_store choice world (.srem DLQ_INDEX_KEY own) with same | same
    · rw [same] at after
      exact Or.inl ⟨expiresAt, after⟩
    · rw [same] at after
      exact Or.inl ⟨expiresAt, (textAt_of_members rfl).2 after⟩
  | delete letter =>
    rcases exec_store choice world (.del (dlqKey own)) with same | same
    · rw [same] at after
      exact Or.inl ⟨expiresAt, after⟩
    · rw [same] at after
      by_cases here : dlqKey id = dlqKey own
      · rw [here] at after
        simp [Valkey.exec, Valkey.del] at after
      · rw [Valkey.exec_frame _ here] at after
        exact Or.inl ⟨expiresAt, after⟩
  | rewrite parked =>
    rcases exec_store choice world (.set (dlqKey own) (DLQEvent.stringify texts
      { parked with retryCount := parked.retryCount + 1 }) (some DLQ_TTL_SECONDS)) with same | same
    · rw [same] at after
      exact Or.inl ⟨expiresAt, after⟩
    · rw [same] at after
      by_cases here : dlqKey id = dlqKey own
      · right
        rw [here] at after
        simp [Valkey.exec, Valkey.set, Valkey.written, DLQ_TTL_SECONDS] at after
        exact ⟨parked, rfl, dlqKey_injective here, after.1.symm⟩
      · rw [Valkey.exec_frame _ here] at after
        exact Or.inl ⟨expiresAt, after⟩

/-- An entry stays as it is, unless it is written again or deleted. -/
theorem exec_entries (calls : Calls texts replay.id replay.phase call) (entry : id ≠ "index") :
    (world.exec choice call).2.store.entries (dlqKey id) = world.store.entries (dlqKey id) ∨
      id = replay.id ∧ ((∃ parked, replay.phase = .retrying parked) ∨
        ∃ letter, replay.phase = .delivered letter) := by
  obtain ⟨own, phase⟩ := replay
  have notIndex : dlqKey id ≠ DLQ_INDEX_KEY := fun same => entry (dlqKey_eq_index_iff.mp same)
  have frame (command : Command String) (other : dlqKey id ≠ command.key) :
      (world.exec choice (.valkey command)).2.store.entries (dlqKey id) =
        world.store.entries (dlqKey id) := by
    rcases exec_store choice world command with same | same
    · rw [same]
    · rw [same, Valkey.exec_frame _ other]
  cases calls with
  | deliver letter => exact Or.inl rfl
  | look | lookAgain =>
    left
    rcases exec_store choice world (.get (dlqKey own)) with same | same
    all_goals exact congrArg (Valkey.entries · (dlqKey id)) same
  | index parked => exact Or.inl (frame _ notIndex)
  | unindex letter => exact Or.inl (frame _ notIndex)
  | delete letter =>
    by_cases here : id = own
    · exact Or.inr ⟨here, Or.inr ⟨letter, rfl⟩⟩
    · exact Or.inl (frame _ fun same => here (dlqKey_injective same))
  | rewrite parked =>
    by_cases here : id = own
    · exact Or.inr ⟨here, Or.inl ⟨parked, rfl⟩⟩
    · exact Or.inl (frame _ fun same => here (dlqKey_injective same))

/-- What a read answers. -/
theorem exec_get {key : String} {value : Option Text}
    (answered : (world.exec choice (.valkey (.get key))).1 = .ok value) :
    (value = none ∧ world.store.live (world.clock + choice.elapsed) key = none) ∨
      ∃ text, value = some text ∧ world.TextAt key text := by
  have read : world.store.get (world.clock + choice.elapsed) key = .ok value := by
    simp only [World.exec, ValkeyWorld.exec] at answered
    split at answered
    · exact answered
    · cases answered
    · cases answered
  rw [Valkey.get] at read
  split at read
  · rename_i absent
    cases read
    exact Or.inl ⟨rfl, absent⟩
  · rename_i text expiresAt found
    cases read
    exact Or.inr ⟨text, rfl, expiresAt, (Valkey.live_eq_some.mp found).1⟩
  · cases read

theorem exec_del {key : String}
    (answered : (world.exec choice (.valkey (.del key))).1 = .ok ()) :
    (world.exec choice (.valkey (.del key))).2.store.entries key = none := by
  simp only [World.exec, ValkeyWorld.exec] at answered ⊢
  split at answered
  · exact Valkey.put_entries_self _
  · cases answered
  · cases answered

end Effects

section Invariant
variable (texts : Texts)

/-- An entry that the service has written. -/
def World.Parks (world : World) (id : String) (event : DLQEvent) : Prop :=
  world.TextAt (dlqKey id) (event.stringify texts)

def World.Letter (world : World) (id : String) (letter : Event) : Prop :=
  ∃ event, world.Parks texts id event ∧ event.letter texts = letter

/-- The texts of the queue are entries that the service has written, none under the index. -/
def World.Queue (world : World) : Prop :=
  ∀ id text, world.TextAt (dlqKey id) text → id ≠ "index" ∧
    ∃ event : DLQEvent, text = event.stringify texts

variable {texts} {start : World}

theorem stringify_letter {event event' : DLQEvent}
    (same : event.stringify texts = event'.stringify texts) :
    event.letter texts = event'.letter texts := by
  obtain ⟨parsed, parses, is, -⟩ := event.parse_stringify texts
  obtain ⟨parsed', parses', is', -⟩ := event'.parse_stringify texts
  rw [same, parses'] at parses
  cases parses
  exact is.symm.trans is'

theorem Letter.unique {id : String} {letter letter' : Event} (one : start.Letter texts id letter)
    (other : start.Letter texts id letter') : letter = letter' := by
  obtain ⟨event, ⟨time, found⟩, rfl⟩ := one
  obtain ⟨event', ⟨time', found'⟩, rfl⟩ := other
  rw [found] at found'
  simp only [Option.some.injEq, Entry.mk.injEq, Content.text.injEq] at found'
  exact stringify_letter found'.1

theorem Letter.ne_index (queue : start.Queue texts) {id : String} {letter : Event}
    (holds : start.Letter texts id letter) : id ≠ "index" := by
  obtain ⟨event, found, -⟩ := holds
  exact (queue id _ found).1

variable (texts start) in
/-- What a replay knows of the entry as it was at the start. -/
def Replay.Knows (replay : Replay) : Prop :=
  match replay.phase with
  | .idle | .missing => True
  | .refused => ∃ letter, start.Letter texts replay.id letter ∧ letter.accepted texts = false
  | .retrying parked => start.Letter texts replay.id (parked.letter texts) ∧
    (parked.letter texts).accepted texts = false
  | .read letter | .delivered letter | .deleted letter =>
    start.Letter texts replay.id letter ∧ letter.accepted texts

/-- Some replay has delivered an entry. -/
def Sent (memory : List Replay) (id : String) : Prop :=
  ∃ replay ∈ memory, replay.id = id ∧ replay.phase.sent?.isSome

variable (texts start) in
/-- What holds of the entries, and of the replays that are under way. -/
structure Kept (world : World) (memory : List Replay) : Prop where
  letters : ∀ id text, world.TextAt (dlqKey id) text →
    ∃ event : DLQEvent, text = event.stringify texts ∧ start.Letter texts id (event.letter texts)
  knows : ∀ replay ∈ memory, replay.Knows texts start
  /-- No two replays have read an entry that is accepted. -/
  apart : ∀ (i j : Nat) (one other : Replay), memory[i]? = some one → memory[j]? = some other → i ≠ j →
    one.id = other.id → one.phase.letter?.isSome → other.phase.letter? = none
  gone : ∀ replay ∈ memory, ∀ letter, replay.phase = .deleted letter →
    world.store.entries (dlqKey replay.id) = none
  delivered : world.delivered.Perm (start.delivered ++ memory.filterMap (·.phase.sent?))
  untouched : ∀ id letter, start.Letter texts id letter → letter.accepted texts →
    ¬ Sent memory id → world.store.entries (dlqKey id) = start.store.entries (dlqKey id)
  missing : ∀ replay ∈ memory, replay.phase = .missing → ∀ letter,
    start.Letter texts replay.id letter → letter.accepted texts →
      Sent memory replay.id ∨ start.store.live world.clock (dlqKey replay.id) = none

theorem exec_clock (choice : Choice) (world : World) (call : Call) :
    (world.exec choice call).2.clock = world.clock + choice.elapsed := by
  cases call <;> rfl

theorem live_eq_none_of_le {store : Valkey String} {key : String} {time time' : Int}
    (later : time ≤ time') (gone : store.live time key = none) : store.live time' key = none := by
  refine Option.eq_none_iff_forall_ne_some.mpr fun entry found => ?_
  obtain ⟨there, fresh⟩ := Valkey.live_eq_some.mp found
  have alive : store.live time key = some entry :=
    Valkey.live_eq_some.mpr ⟨there, fun limit member => by
      have := fresh limit member
      omega⟩
  rw [gone] at alive
  cases alive

theorem perm_filterMap_set {α β : Type} {f : α → Option β} {items : List α} {i : Nat} {a : α}
    (here : items[i]? = some a) (a' : α) : ∃ rest, (items.filterMap f).Perm ((f a).toList ++ rest) ∧
      ((items.set i a').filterMap f).Perm ((f a').toList ++ rest) := by
  obtain ⟨inside, rfl⟩ := List.getElem?_eq_some_iff.mp here
  have inside' : i < (items.set i a').length := by rwa [List.length_set]
  have split {xs : List α} (h : i < xs.length) :
      (xs.filterMap f).Perm ((f xs[i]).toList ++ (xs.eraseIdx i).filterMap f) := by
    have moved := (List.getElem_cons_eraseIdx_perm h).filterMap f
    rw [List.filterMap_cons] at moved
    cases value : f xs[i] with
    | none =>
      rw [value] at moved
      exact moved.symm
    | some b =>
      rw [value] at moved
      exact moved.symm
  refine ⟨_, split inside, ?_⟩
  have moved := split inside'
  rwa [List.getElem_set_self, List.eraseIdx_set_eq] at moved

theorem Sent.set {memory : List Replay} {i : Nat} {replay : Replay} {phase : Phase} {id : String}
    (sent : Sent memory id) (remembers : memory[i]? = some replay)
    (sends : replay.phase.sent?.isSome → phase.sent?.isSome) :
    Sent (memory.set i ⟨replay.id, phase⟩) id :=
  Pool.exists_mem_set remembers _ sent fun ⟨same, before⟩ => ⟨same, sends before⟩

section Step
variable {world : World} {memory : List Replay} {i : Nat} {replay : Replay} {choice : Choice}
  {call : Call} {phase : Phase}

/-- What one call of a replay keeps, given what is said of the phase it comes to. -/
theorem Kept.step (queue : start.Queue texts) (kept : Kept texts start world memory)
    (remembers : memory[i]? = some replay) (calls : Calls texts replay.id replay.phase call)
    (knows : Replay.Knows texts start ⟨replay.id, phase⟩)
    (sends : replay.phase.sent?.isSome → phase.sent?.isSome)
    (apart : phase.letter?.isSome → replay.phase.letter?.isSome ∨ ∀ other ∈ memory,
      other.id = replay.id → other.phase.letter? = none)
    (gone : ∀ letter, phase = .deleted letter →
      (world.exec choice call).2.store.entries (dlqKey replay.id) = none)
    (delivered : (world.exec choice call).2.delivered.Perm
      (start.delivered ++ (memory.set i ⟨replay.id, phase⟩).filterMap (·.phase.sent?)))
    (missing : phase = .missing → ∀ letter, start.Letter texts replay.id letter →
      letter.accepted texts → Sent memory replay.id ∨
        start.store.live (world.clock + choice.elapsed) (dlqKey replay.id) = none) :
    Kept texts start (world.exec choice call).2 (memory.set i ⟨replay.id, phase⟩) := by
  have own := kept.knows replay (List.mem_of_getElem? remembers)
  -- The entry of a replay that is to write it again is not accepted.
  have refused {letter : Event} (holds : start.Letter texts replay.id letter)
      (accepted : letter.accepted texts) (parked : DLQEvent) :
      replay.phase ≠ .retrying parked := by
    intro same
    rw [Replay.Knows, same] at own
    rw [Letter.unique holds own.1, own.2] at accepted
    cases accepted
  constructor
  · intro id text there
    rcases exec_textAt calls there with before | ⟨parked, same, rfl, rfl⟩
    · exact kept.letters id text before
    · rw [Replay.Knows, same] at own
      exact ⟨_, rfl, own.1⟩
  · exact Pool.forall_mem_set kept.knows knows
  · intro j k one other one_at other_at different same reads
    rw [Pool.getElem?_set_of_some remembers] at one_at other_at
    by_cases hj : j = i
    · have hk : k ≠ i := fun hk => different (hj.trans hk.symm)
      rw [if_pos hj] at one_at
      rw [if_neg hk] at other_at
      cases one_at
      rcases apart reads with before | free
      · exact kept.apart i k replay other remembers other_at (Ne.symm hk) same before
      · exact free other (List.mem_of_getElem? other_at) same.symm
    · rw [if_neg hj] at one_at
      by_cases hk : k = i
      · rw [if_pos hk] at other_at
        cases other_at
        refine Option.not_isSome_iff_eq_none.mp fun now => ?_
        rcases apart now with before | free
        · rw [kept.apart i j replay one remembers one_at (Ne.symm hj) same.symm before] at reads
          cases reads
        · rw [free one (List.mem_of_getElem? one_at) same] at reads
          cases reads
      · rw [if_neg hk] at other_at
        exact kept.apart j k one other one_at other_at different same reads
  · intro other member letter deleted
    rcases List.mem_or_eq_of_mem_set member with old | rfl
    · have holds := kept.knows other old
      rw [Replay.Knows, deleted] at holds
      obtain ⟨k, inside, at_k⟩ := List.getElem_of_mem old
      rcases exec_entries calls (Letter.ne_index queue holds.1) with same | ⟨same, parked | sent⟩
      · rw [same]
        exact kept.gone other old letter deleted
      · obtain ⟨parked, retrying⟩ := parked
        exact absurd retrying (refused (same ▸ holds.1) holds.2 parked)
      · obtain ⟨sent, delivered⟩ := sent
        have at_k' : memory[k]? = some other := by rw [List.getElem?_eq_getElem inside, at_k]
        by_cases here : i = k
        · subst here
          rw [remembers] at at_k'
          cases at_k'
          rw [deleted] at delivered
          cases delivered
        · have free := kept.apart i k replay other remembers at_k' here same.symm
            (by rw [delivered]; rfl)
          rw [deleted] at free
          cases free
    · exact gone letter deleted
  · exact delivered
  · intro id letter holds accepted unsent
    have before : ¬ Sent memory id := fun sent => unsent (sent.set remembers sends)
    rcases exec_entries calls (Letter.ne_index queue holds) with same | ⟨rfl, parked | sent⟩
    · rw [same]
      exact kept.untouched id letter holds accepted before
    · obtain ⟨parked, retrying⟩ := parked
      exact absurd retrying (refused holds accepted parked)
    · obtain ⟨sent, delivered⟩ := sent
      refine absurd ⟨replay, List.mem_of_getElem? remembers, rfl, ?_⟩ before
      rw [delivered]
      rfl
  · intro other member absent letter holds accepted
    rw [exec_clock]
    rcases List.mem_or_eq_of_mem_set member with old | rfl
    · exact (kept.missing other old absent letter holds accepted).imp
        (fun sent => sent.set remembers sends) (live_eq_none_of_le (by omega))
    · exact (missing absent letter holds accepted).imp_left fun sent => sent.set remembers sends

/-- Nothing is delivered while no replay comes to have delivered more. -/
theorem Kept.quiet (kept : Kept texts start world memory) (remembers : memory[i]? = some replay)
    (same : phase.sent? = replay.phase.sent?)
    (silent : (world.exec choice call).2.delivered = world.delivered) :
    (world.exec choice call).2.delivered.Perm
      (start.delivered ++ (memory.set i ⟨replay.id, phase⟩).filterMap (·.phase.sent?)) := by
  obtain ⟨rest, before, after⟩ :=
    perm_filterMap_set (f := fun replay : Replay => replay.phase.sent?) remembers ⟨replay.id, phase⟩
  rw [silent]
  refine kept.delivered.trans (List.Perm.append_left _ (before.trans ?_))
  have moved := after.symm
  simp only [same] at moved
  exact moved

/-- What a first read leads to. -/
theorem Kept.reads (kept : Kept texts start world memory) {id : String} {value : Option Text}
    (answered : (world.exec choice (.valkey (.get (dlqKey id)))).1 = .ok value) :
    (Phase.reads texts value = .missing ∧
      world.store.live (world.clock + choice.elapsed) (dlqKey id) = none) ∨
    ∃ letter, start.Letter texts id letter ∧ (∃ entry, world.store.entries (dlqKey id) = some entry) ∧
      Phase.reads texts value = if letter.accepted texts then .read letter else .refused := by
  rcases exec_get answered with ⟨rfl, gone⟩ | ⟨text, rfl, there⟩
  · exact Or.inl ⟨rfl, gone⟩
  · right
    obtain ⟨event, rfl, holds⟩ := kept.letters id text there
    obtain ⟨parsed, parses, is, -⟩ := event.parse_stringify texts
    obtain ⟨expiresAt, found⟩ := there
    refine ⟨event.letter texts, holds, ⟨_, found⟩, ?_⟩
    have present : truthy (some (event.stringify texts)) = some (event.stringify texts) := rfl
    rw [Phase.reads, present]
    simp only [parses, is]

/-- What a second read leads to. -/
theorem Kept.rereads (kept : Kept texts start world memory) {id : String} {value : Option Text}
    (answered : (world.exec choice (.valkey (.get (dlqKey id)))).1 = .ok value) :
    Phase.rereads texts value = .refused ∨ ∃ parked, Phase.rereads texts value = .retrying parked ∧
      start.Letter texts id (parked.letter texts) := by
  rcases exec_get answered with ⟨rfl, -⟩ | ⟨text, rfl, there⟩
  · exact Or.inl rfl
  · right
    obtain ⟨event, rfl, holds⟩ := kept.letters id text there
    obtain ⟨parsed, parses, -, same⟩ := event.parse_stringify texts
    have present : truthy (some (event.stringify texts)) = some (event.stringify texts) := rfl
    refine ⟨parsed, ?_, same ▸ holds⟩
    rw [Phase.rereads, present, Option.bind_some, parses]
    rfl

/-- A call that leaves a replay in its phase. -/
theorem Kept.stay (queue : start.Queue texts) (kept : Kept texts start world memory)
    (remembers : memory[i]? = some replay) (calls : Calls texts replay.id replay.phase call)
    (silent : (world.exec choice call).2.delivered = world.delivered) :
    Kept texts start (world.exec choice call).2 (memory.set i replay) := by
  have member := List.mem_of_getElem? remembers
  have own := kept.knows replay member
  refine kept.step queue remembers calls own id Or.inl (fun letter deleted => ?_)
    (kept.quiet remembers rfl silent) fun absent letter holds accepted => ?_
  · rw [Replay.Knows, deleted] at own
    rcases exec_entries calls (Letter.ne_index queue own.1) with same | ⟨-, ⟨_, other⟩ | ⟨_, other⟩⟩
    · rw [same]
      exact kept.gone replay member letter deleted
    · rw [deleted] at other
      cases other
    · rw [deleted] at other
      cases other
  · exact (kept.missing replay member absent letter holds accepted).imp_right
      (live_eq_none_of_le (by omega))

end Step

theorem kept_preserves (queue : start.Queue texts) (choice : Choice) (world : World)
    (memory : List Replay) (i : Nat) (replay : Replay) (call : Call)
    (remembers : memory[i]? = some replay) (kept : Kept texts start world memory)
    (calls : (replays texts).allowed replay call)
    (undisturbed : Undisturbed choice world memory replay call) :
    Kept texts start (world.exec choice call).2
      (memory.set i ((replays texts).next replay call (world.exec choice call).1)) := by
  obtain ⟨id, phase⟩ := replay
  have member := List.mem_of_getElem? remembers
  change Calls texts id phase call at calls
  cases calls with
  | look =>
    cases answered : (world.exec choice (.valkey (.get (dlqKey id)))).1 with
    | error e => exact kept.stay queue remembers .look rfl
    | ok value =>
      change Kept _ _ _ (memory.set i ⟨id, Phase.reads texts value⟩)
      rcases kept.reads answered with ⟨missing, gone⟩ | ⟨letter, holds, ⟨entry, found⟩, reads⟩
      · rw [missing]
        refine kept.step queue remembers .look trivial (by rintro ⟨⟩) (by rintro ⟨⟩) (by simp)
          (kept.quiet remembers rfl rfl) fun _ letter holds accepted => ?_
        by_cases sent : Sent memory id
        · exact Or.inl sent
        · right
          rw [Valkey.live] at gone ⊢
          rwa [kept.untouched id letter holds accepted sent] at gone
      · rw [reads]
        cases accepted : letter.accepted texts with
        | false =>
          exact kept.step queue remembers .look ⟨letter, holds, accepted⟩ (by rintro ⟨⟩)
            (by rintro ⟨⟩) (by simp)
            (kept.quiet remembers rfl rfl) (by simp)
        | true =>
          refine kept.step queue remembers .look ⟨holds, accepted⟩ (by rintro ⟨⟩)
            (fun _ => Or.inr ?_) (by simp)
            (kept.quiet remembers rfl rfl) (by simp)
          intro other inside same
          have free := undisturbed rfl other inside same
          -- Who has deleted the entry has left none to be read.
          cases at' : other.phase with
          | read _ | delivered _ => exact absurd (by rw [at']; rfl) free
          | deleted letter' =>
            have gone := kept.gone other inside letter' at'
            rw [same, found] at gone
            cases gone
          | _ => rfl
  | lookAgain =>
    cases answered : (world.exec choice (.valkey (.get (dlqKey id)))).1 with
    | error e => exact kept.stay queue remembers .lookAgain rfl
    | ok value =>
      change Kept _ _ _ (memory.set i ⟨id, Phase.rereads texts value⟩)
      obtain ⟨letter, holds, refused⟩ : ∃ letter, start.Letter texts id letter ∧
        letter.accepted texts = false := kept.knows _ member
      rcases kept.rereads answered with same | ⟨parked, same, holds'⟩
      · rw [same]
        exact kept.stay queue remembers .lookAgain rfl
      · rw [same]
        refine kept.step queue remembers .lookAgain ⟨holds', ?_⟩ (by rintro ⟨⟩) (by rintro ⟨⟩)
          (by simp)
          (kept.quiet remembers rfl rfl) (by simp)
        rw [Letter.unique holds' holds]
        exact refused
  | rewrite parked => exact kept.stay queue remembers (.rewrite parked) rfl
  | index parked => exact kept.stay queue remembers (.index parked) rfl
  | unindex letter => exact kept.stay queue remembers (.unindex letter) rfl
  | deliver letter =>
    have own := kept.knows _ member
    refine kept.step queue remembers (.deliver letter) own (by rintro ⟨⟩) (fun _ => Or.inl rfl)
      (by rintro _ ⟨⟩) ?_ (by rintro ⟨⟩)
    obtain ⟨rest, before, after⟩ := perm_filterMap_set
      (f := fun replay : Replay => replay.phase.sent?) remembers ⟨id, .delivered letter⟩
    have all : world.delivered.Perm (start.delivered ++ rest) :=
      kept.delivered.trans (List.Perm.append_left _ before)
    refine (all.append_right [letter]).trans
      (List.Perm.trans ?_ (List.Perm.append_left _ after.symm))
    rw [List.append_assoc]
    exact List.Perm.append_left _ List.perm_append_comm
  | delete letter =>
    have own := kept.knows _ member
    cases answered : (world.exec choice (.valkey (.del (dlqKey id)))).1 with
    | error e => exact kept.stay queue remembers (.delete letter) rfl
    | ok _ =>
      exact kept.step queue remembers (.delete letter) own (fun _ => rfl)
        (fun _ => Or.inl rfl) (fun _ _ => exec_del answered) (kept.quiet remembers rfl rfl)
        (by rintro ⟨⟩)

end Invariant

section Runs
variable (texts : Texts)

def begin (world : World) (ids : List String) :
    Pool World Call Call.Result (Except Failure Replayed) :=
  ⟨world, ids.map fun id => (EventValidatorService.replayDeadLettered texts id).run⟩

/-- What the replays of some entries have delivered, entries that were parked at the start, each
of them once. -/
structure Delivered (start : World) (replayed : List (String × Event)) (after : World) : Prop where
  once : (replayed.map Prod.fst).Nodup
  parked : ∀ id letter, (id, letter) ∈ replayed → ∃ event, start.Parks texts id event ∧
    (event.letter texts).accepted texts
  delivered : after.delivered.Perm (start.delivered ++ replayed.map Prod.snd)

/-- Every letter is the event that was parked, with dates for dates. -/
def Unchanged (parked : List DLQEvent) (replayed : List (String × Event)) : Prop :=
  ∀ event ∈ parked, ∀ letter, (event.id, letter) ∈ replayed →
    letter = event.event ∧ letter.givesDates

/-- A replay that has not thrown leaves an entry delivered that was accepted and had time. -/
def Complete (start : World) (replayed : List (String × Event)) (after : World)
    (ids : List String) (pool : Pool World Call Call.Result (Except Failure Replayed)) : Prop :=
  ∀ i id done event, ids[i]? = some id → pool.result? i = some (.ok done) →
    start.Parks texts id event → (event.letter texts).accepted texts →
    (start.store.live after.clock (dlqKey id)).isSome → id ∈ replayed.map Prod.fst

variable {texts}

/-- The ids and letters of the replays that have delivered. -/
def sentBy (memory : List Replay) : List (String × Event) :=
  memory.filterMap fun replay => replay.phase.sent?.map (replay.id, ·)

theorem mem_sentBy {memory : List Replay} {id : String} {letter : Event} :
    (id, letter) ∈ sentBy memory ↔
      ∃ replay ∈ memory, replay.id = id ∧ replay.phase.sent? = some letter := by
  simp only [sentBy, List.mem_filterMap, Option.map_eq_some_iff, Prod.mk.injEq]
  constructor
  · rintro ⟨replay, member, letter', sent, rfl, rfl⟩
    exact ⟨replay, member, rfl, sent⟩
  · rintro ⟨replay, member, rfl, sent⟩
    exact ⟨replay, member, letter, sent, rfl, rfl⟩

theorem letter?_of_sent? {phase : Phase} {letter : Event} (sent : phase.sent? = some letter) :
    phase.letter? = some letter := by
  cases phase <;> first | exact sent | cases sent

theorem Kept.knows_sent {start world : World} {memory : List Replay}
    (kept : Kept texts start world memory) {replay : Replay} (member : replay ∈ memory)
    {letter : Event} (sent : replay.phase.sent? = some letter) :
    start.Letter texts replay.id letter ∧ letter.accepted texts := by
  have own := kept.knows replay member
  rw [Replay.Knows] at own
  cases phase : replay.phase with
  | delivered _ | deleted _ =>
    rw [phase] at own sent
    cases sent
    exact own
  | _ =>
    rw [phase] at sent
    cases sent

theorem Kept.sentBy_delivered {start world : World} {memory : List Replay}
    (kept : Kept texts start world memory) : Delivered texts start (sentBy memory) world := by
  constructor
  · rw [List.Nodup, List.pairwise_map, sentBy, List.pairwise_filterMap, List.pairwise_iff_getElem]
    intro i j hi hj before one first other second same
    obtain ⟨letter, sent, rfl⟩ := Option.map_eq_some_iff.mp first
    obtain ⟨letter', sent', rfl⟩ := Option.map_eq_some_iff.mp second
    have free := kept.apart i j _ _ (List.getElem?_eq_getElem hi) (List.getElem?_eq_getElem hj)
      (by omega) same (by rw [letter?_of_sent? sent]; rfl)
    rw [letter?_of_sent? sent'] at free
    cases free
  · intro id letter member
    obtain ⟨replay, inside, rfl, sent⟩ := mem_sentBy.mp member
    obtain ⟨⟨event, parks, rfl⟩, accepted⟩ := kept.knows_sent inside sent
    exact ⟨event, parks, accepted⟩
  · have letters : (sentBy memory).map Prod.snd = memory.filterMap (·.phase.sent?) := by
      rw [sentBy, List.map_filterMap]
      congr 1
      funext replay
      cases replay.phase.sent? <;> rfl
    rw [letters]
    exact kept.delivered

/-- How the memory of a replay that has ended, not by throwing, looks. -/
theorem Kept.complete {start world : World} {memory : List Replay}
    (kept : Kept texts start world memory) {replay : Replay} (member : replay ∈ memory)
    {done : Replayed} (ended : replay.Ended (.ok done)) {event : DLQEvent}
    (parks : start.Parks texts replay.id event) (accepted : (event.letter texts).accepted texts)
    (fresh : (start.store.live world.clock (dlqKey replay.id)).isSome) : Sent memory replay.id := by
  have holds : start.Letter texts replay.id (event.letter texts) := ⟨event, parks, rfl⟩
  have own := kept.knows replay member
  obtain ⟨replayed, reason⟩ := done
  cases replayed with
  | true =>
    obtain ⟨letter, deleted⟩ := ended
    exact ⟨replay, member, rfl, by rw [deleted]; rfl⟩
  | false =>
    rw [Replay.Knows] at own
    rcases ended with missing | refused | ⟨parked, retrying⟩
    · refine (kept.missing replay member missing _ holds accepted).resolve_right fun gone => ?_
      rw [gone] at fresh
      cases fresh
    · rw [refused] at own
      obtain ⟨letter, holds', never⟩ := own
      rw [Letter.unique holds' holds, accepted] at never
      cases never
    · rw [retrying] at own
      have never := own.2
      rw [Letter.unique own.1 holds, accepted] at never
      cases never

variable (texts) in
/-- Replays of any entries, interleaved in any way, where none reads an entry that another has
read and not yet deleted: every entry is delivered once at most, and once if a replay of it ends
that finds it accepted. What is delivered is what was parked, dates for dates, exactly if the
payload is plain and has no dates. -/
theorem replayed_once {start : World} (queue : start.Queue texts) {parked : List DLQEvent}
    (parks : ∀ event ∈ parked, start.Parks texts event.id event) {ids : List String}
    {schedule : List (Nat × Choice)}
    (orderly : Pool.Orderly World.exec (replays texts) Undisturbed (fun _ => True) schedule
      (ids.map fun id => ⟨id, .idle⟩) (begin texts start ids)) :
    let after := (begin texts start ids).run World.exec schedule
    ∃ replayed, Delivered texts start replayed after.state ∧
      Complete texts start replayed after.state ids after ∧
      (Unchanged parked replayed ↔ ∀ event ∈ parked, ∀ letter, (event.id, letter) ∈ replayed →
        event.payload.isPlain ∧ event.event.dateless) := by
  have reaches : List.Forall₂ ((replays texts).Reaches Replay.Ended)
      (ids.map fun id => ⟨id, .idle⟩) (begin texts start ids).threads := by
    simp only [begin, List.forall₂_map_left_iff, List.forall₂_map_right_iff, List.forall₂_same]
    exact fun id _ => reaches_replayDeadLettered id
  have follow : Pool.Follow (replays texts) (ids.map fun id => ⟨id, .idle⟩)
      (begin texts start ids) := reaches.imp fun _ _ => Protocol.Reaches.follows
  have none' : (ids.map fun id => (⟨id, .idle⟩ : Replay)).filterMap (·.phase.sent?) = [] := by
    simp [List.filterMap_map, Phase.sent?]
  have opening : Kept texts start start (ids.map fun id => ⟨id, .idle⟩) := by
    have idle : ∀ replay ∈ ids.map fun id => (⟨id, .idle⟩ : Replay), replay.phase = .idle := by
      intro replay member
      obtain ⟨id, -, rfl⟩ := List.mem_map.mp member
      rfl
    constructor
    · intro id text there
      obtain ⟨-, event, rfl⟩ := queue id text there
      exact ⟨event, rfl, event, there, rfl⟩
    · intro replay member
      rw [Replay.Knows, idle replay member]
      trivial
    · intro i j one other one_at _ _ _ reads
      rw [idle one (List.mem_of_getElem? one_at)] at reads
      cases reads
    · intro replay member letter deleted
      rw [idle replay member] at deleted
      cases deleted
    · rw [none', List.append_nil]
    · exact fun _ _ _ _ _ => rfl
    · intro replay member missing
      rw [idle replay member] at missing
      cases missing
  have kept : Kept texts start ((begin texts start ids).run World.exec schedule).state
      (Pool.recallAll World.exec (replays texts) (ids.map fun id => ⟨id, .idle⟩)
        (begin texts start ids) schedule) :=
    Pool.orderly_invariant
      (fun choice world memory i replay call remembers kept _ _ calls undisturbed =>
        kept_preserves queue choice world memory i replay call remembers kept calls undisturbed)
      opening follow orderly
  have ends : List.Forall₂ ((replays texts).Reaches Replay.Ended)
      (Pool.recallAll World.exec (replays texts) (ids.map fun id => ⟨id, .idle⟩)
        (begin texts start ids) schedule)
      ((begin texts start ids).run World.exec schedule).threads := Pool.run_reaches reaches schedule
  refine ⟨_, kept.sentBy_delivered, ?_, ?_⟩
  · intro i id done event asked result parks accepted fresh
    have ended := Pool.done_of_result? result
    have long := ends.length_eq
    obtain ⟨inside, -⟩ := List.getElem?_eq_some_iff.mp ended
    have remembers := List.getElem?_eq_getElem (long ▸ inside)
    have own : ∀ replay, (ids.map fun id => (⟨id, .idle⟩ : Replay))[i]? = some replay →
        replay.id = id := by
      intro replay first
      rw [List.getElem?_map, asked] at first
      cases first
      rfl
    have same := Pool.recallAll_kept World.exec (replays texts) (fun _ _ _ same => same) own schedule
      (begin texts start ids) _ remembers
    have member := List.mem_of_getElem? remembers
    rw [← same] at parks fresh
    obtain ⟨replay, inside', named, sent⟩ := kept.complete member
      (Pool.post_of_done ends remembers ended) parks accepted fresh
    obtain ⟨letter, sent⟩ := Option.isSome_iff_exists.mp sent
    exact List.mem_map.mpr ⟨(id, letter), mem_sentBy.mpr ⟨replay, inside', named.trans same, sent⟩,
      rfl⟩
  · have letter_of {id : String} {letter : Event} {event : DLQEvent}
        (member : (id, letter) ∈ sentBy (Pool.recallAll World.exec (replays texts)
          (ids.map fun id => ⟨id, .idle⟩) (begin texts start ids) schedule))
        (parks : start.Parks texts id event) :
        letter = event.letter texts ∧ letter.accepted texts := by
      obtain ⟨replay, inside, rfl, sent⟩ := mem_sentBy.mp member
      obtain ⟨holds, accepted⟩ := kept.knows_sent inside sent
      exact ⟨Letter.unique holds ⟨event, parks, rfl⟩, accepted⟩
    refine forall₂_congr fun event among => forall₂_congr fun letter member => ?_
    obtain ⟨rfl, accepted⟩ := letter_of member (parks event among)
    exact DLQEvent.letter_iff accepted

end Runs

section Examples

/-- Dates at the beginning of time. -/
def Texts.epoch : Texts where
  toISOString time := if time = 0 then "1970-01-01T00:00:00.000Z" else ""
  parseDate text := if text = "1970-01-01T00:00:00.000Z" then some 0 else none
  string _ := ""
  isEmail _ := true

/-- A queue with one entry. -/
def parking (event : DLQEvent) : World :=
  ⟨0, Valkey.empty.put (dlqKey event.id) (some ⟨.text (event.stringify .epoch), none⟩), []⟩

theorem parking_textAt {event : DLQEvent} {id : String} {text : Text}
    (there : (parking event).TextAt (dlqKey id) text) :
    id = event.id ∧ text = event.stringify .epoch := by
  obtain ⟨expiresAt, found⟩ := there
  by_cases same : id = event.id
  · subst same
    simp only [parking, Valkey.put_entries_self, Option.some.injEq, Entry.mk.injEq,
      Content.text.injEq] at found
    exact ⟨rfl, found.1.symm⟩
  · have other : dlqKey id ≠ dlqKey event.id := fun equal => same (dlqKey_injective equal)
    simp [parking, Valkey.put_entries_ne other, Valkey.empty] at found

theorem parking_queue {event : DLQEvent} (named : event.id ≠ "index") :
    (parking event).Queue .epoch := by
  intro id text there
  obtain ⟨rfl, rfl⟩ := parking_textAt there
  exact ⟨named, event, rfl⟩

theorem parking_parks (event : DLQEvent) : (parking event).Parks .epoch event.id event :=
  ⟨none, Valkey.put_entries_self _⟩

def deletedStory : DLQEvent where
  id := "letter"
  eventName := "story.deleted"
  payload := .obj [("storyId", .str "1"), ("authorId", .str "2")]
  error := "authorId: Required"
  timestamp := some 0
  retryCount := 0

def publishedStory : DLQEvent :=
  { deletedStory with
    eventName := "story.published"
    payload := .obj [("storyId", .str "1"), ("publishedAt", .date (some 0))] }

def turns (threads : List Nat) : List (Nat × Choice) := threads.map fun i => (i, {})

def replayTwice (event : DLQEvent) (threads : List Nat) :
    Pool World Call Call.Result (Except Failure Replayed) :=
  (begin .epoch (parking event) ["letter", "letter"]).run World.exec (turns threads)

/-- The second replay finds nothing any more. -/
theorem deletedStory_once : ∃ replayed,
    Delivered .epoch (parking deletedStory) replayed
      (replayTwice deletedStory [0, 0, 0, 1, 0, 1]).state ∧
    "letter" ∈ replayed.map Prod.fst ∧ Unchanged [deletedStory] replayed := by
  have orderly : Pool.Orderly World.exec (replays .epoch) Undisturbed (fun _ => True)
      (turns [0, 0, 0, 1, 0, 1]) (["letter", "letter"].map fun id => ⟨id, .idle⟩)
      (begin .epoch (parking deletedStory) ["letter", "letter"]) := by decide
  have parks : ∀ event ∈ [deletedStory], (parking deletedStory).Parks .epoch event.id event := by
    intro event member
    rw [List.mem_singleton.mp member]
    exact parking_parks deletedStory
  obtain ⟨replayed, delivered, complete, unchanged⟩ :=
    replayed_once .epoch (parking_queue (by decide)) parks orderly
  refine ⟨replayed, delivered, ?_, unchanged.mpr fun event member letter _ => ?_⟩
  · exact complete 0 "letter" ⟨true, "delivered"⟩ deletedStory rfl (by decide)
      (parking_parks deletedStory) (by decide) (by decide)
  · rw [List.mem_singleton.mp member]
    decide

/-- A replay delivers a text where a date was parked; two that both read the entry before either
has deleted it deliver it twice. -/
theorem dates_and_letters_lost : (∀ replayed, Delivered .epoch (parking publishedStory) replayed
      (replayTwice publishedStory [0, 0, 0, 0]).state →
        replayed ≠ [] ∧ ¬ Unchanged [publishedStory] replayed) ∧
    ∀ replayed, ¬ Delivered .epoch (parking deletedStory) replayed
      (replayTwice deletedStory [0, 1, 0, 1]).state := by
  have only {event : DLQEvent} {replayed : List (String × Event)} {after : World}
      (delivered : Delivered .epoch (parking event) replayed after) :
      replayed.length = after.delivered.length ∧ ∀ entry ∈ replayed, entry.1 = event.id := by
    constructor
    · simpa [parking] using delivered.delivered.length_eq.symm
    · intro entry member
      obtain ⟨_, parks, -⟩ := delivered.parked entry.1 entry.2 member
      exact (parking_textAt parks).1
  constructor
  · intro replayed delivered
    obtain ⟨long, named⟩ := only delivered
    have one : (replayTwice publishedStory [0, 0, 0, 0]).state.delivered.length = 1 := by
      decide
    rw [one, List.length_eq_one_iff] at long
    obtain ⟨⟨id, letter⟩, rfl⟩ := long
    refine ⟨(by simp), fun unchanged => ?_⟩
    obtain rfl : id = "letter" := named _ List.mem_cons_self
    have same := (unchanged publishedStory List.mem_cons_self letter List.mem_cons_self).1
    have texts : (replayTwice publishedStory [0, 0, 0, 0]).state.delivered.all
        (·.payload.isPlain) := by decide
    have among : letter ∈ (replayTwice publishedStory [0, 0, 0, 0]).state.delivered :=
      delivered.delivered.symm.mem_iff.mp (by simp)
    have plain := List.all_eq_true.mp texts letter among
    rw [same] at plain
    cases plain
  · intro replayed delivered
    obtain ⟨long, named⟩ := only delivered
    have two : (replayTwice deletedStory [0, 1, 0, 1]).state.delivered.length = 2 := by
      decide
    rw [two, List.length_eq_two] at long
    obtain ⟨one, other, rfl⟩ := long
    have nodup := delivered.once
    simp only [List.map_cons, List.map_nil, named one (by simp), named other (by simp)] at nodup
    exact absurd nodup (by simp)

end Examples
end Events
