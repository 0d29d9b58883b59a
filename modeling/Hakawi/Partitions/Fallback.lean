import Hakawi.Effects.Trace
import Hakawi.Partitions.Repositories

/-!
# Where a read answers from

The class comments name one reason to ask the legacy table: the partitioned one is not there. A
read that catches an error without a code asks it as well, and every error of a statement that
went through the query builder is wrapped and has none.
-/

namespace Partitions

open Effects

/-- What the statement throws. -/
def Choice.failure (choice : Choice) : Option Thrown :=
  match choice.outcome with
  | .performed => none
  | .refused error => some error
  | .lost error => some error

/-- What the environment decides after `n` statements. -/
def later (choices : Nat → Choice) (n : Nat) : Nat → Choice := fun k => choices (k + n)

theorem exec_select (choice : Choice) (db : Database) (source : Source) (query : Query) :
    exec choice db (.select source query) =
      (match choice.failure with
        | none => .ok (query.yields (db.tables source))
        | some error => .error error, db) := by
  rcases choice with ⟨outcome, uuid, now⟩
  cases outcome <;> rfl

namespace Reading
variable {α : Type}

/-- The error that a read of one of the two places ends with. -/
def failure (choices : Nat → Choice) : Reading α → Option Thrown
  | one .. => (choices 0).failure
  | both .. => (choices 0).failure.or (choices 1).failure

/-- How many statements it takes, a rejected one ending it. -/
def statements (choices : Nat → Choice) : Reading α → Nat
  | one .. => 1
  | both .. => if (choices 0).failure.isSome then 1 else 2

/-- What comes of asking one of the two places. -/
def asked (reading : Reading α) (choices : Nat → Choice) (tables : Tables) : Except Thrown α :=
  match reading.failure choices with
  | none => .ok (reading.yields tables)
  | some error => .error error

theorem eval_select {β : Type} (source : Source) (query : Query)
    (next : query.Answer → Method β) (choices : Nat → Choice) (db : Database) :
    (call (.select source query) >>= next : Method β).run.eval exec choices db =
      match (choices 0).failure with
      | none => (next (query.yields (db.tables source))).run.eval exec (later choices 1) db
      | some error => (.error error, db) := by
  change Program.eval exec (Program.bind (.call (.select source query) .done) _) choices db = _
  simp only [Program.bind, Program.eval, exec_select]
  cases (choices 0).failure <;> rfl

theorem calls_select {β : Type} (source : Source) (query : Query)
    (next : query.Answer → Method β) (choices : Nat → Choice) (db : Database) :
    (call (.select source query) >>= next : Method β).run.calls exec choices db =
      match (choices 0).failure with
      | none => (next (query.yields (db.tables source))).run.calls exec (later choices 1) db + 1
      | some _ => 1 := by
  change Program.calls exec (Program.bind (.call (.select source query) .done) _) choices db = _
  simp only [Program.bind, Program.calls, exec_select]
  cases (choices 0).failure <;> rfl

theorem eval_ask (reading : Reading α) (source : Source) (choices : Nat → Choice) (db : Database) :
    (reading.ask source).run.eval exec choices db =
      (reading.asked choices (db.tables source), db) := by
  cases reading with
  | one query result =>
    rw [ask, eval_select, asked, failure]
    cases (choices 0).failure <;> rfl
  | both first second result =>
    rw [ask, eval_select, asked, failure]
    cases (choices 0).failure with
    | some error => rfl
    | none =>
      simp only [Option.none_or]
      rw [eval_select]
      simp only [later, Nat.zero_add]
      cases (choices 1).failure <;> rfl

theorem calls_ask (reading : Reading α) (source : Source) (choices : Nat → Choice)
    (db : Database) :
    (reading.ask source).run.calls exec choices db = reading.statements choices := by
  cases reading with
  | one query result =>
    rw [ask, calls_select, statements]
    cases (choices 0).failure <;> rfl
  | both first second result =>
    rw [ask, calls_select, statements]
    cases (choices 0).failure with
    | some error => rfl
    | none =>
      simp only
      rw [calls_select]
      simp only [later, Nat.zero_add]
      cases (choices 1).failure <;> rfl

/-- A read as the environment decides: the partitioned rows, the legacy rows, or neither. -/
def answered (reading : Reading α) (invalid : Option α) (choices : Nat → Choice) (db : Database) :
    Except Thrown α :=
  match reading.failure choices with
  | none => .ok (reading.yields db.partitioned)
  | some error =>
    if error.code = some "42P01" ∨ error.code = none then
      reading.asked (later choices (reading.statements choices)) db.legacy
    else match invalid with
      | some value => if error.code = some "22P02" then .ok value else .error error
      | none => .error error

theorem eval_withFallback (reading : Reading α) (invalid : Option α) (choices : Nat → Choice)
    (db : Database) :
    (reading.withFallback invalid).run.eval exec choices db =
      (reading.answered invalid choices db, db) := by
  rw [withFallback, eval_tryCatch, eval_ask, calls_ask]
  simp only [asked, answered, Database.tables]
  cases reading.failure choices with
  | none => rfl
  | some error =>
    simp only
    split
    · exact eval_ask reading .legacy _ db
    · cases invalid with
      | none => rfl
      | some value => simp only; split <;> rfl

end Reading

/-- One unread message. -/
def oneMessage (id conversationId senderId : String) : Tables :=
  ⟨[⟨id, conversationId, senderId, "", false, none, 0⟩], []⟩

def oneReaction (id userId storyId type : String) : Tables := ⟨[], [⟨id, userId, storyId, type, 0⟩]⟩

/-- The reads of the two repositories. -/
inductive Read where
  | messageById (id : String)
  | conversation (conversationId : String) (page limit : Nat)
  | unread (conversationId userId : String)
  | lastMessages (conversationIds : List String)
  | incomingUnread (conversationIds senderIds : List String)
  | reactionById (id : String)
  | reactionOf (userId storyId : String)
  | reactions (storyId : String) (page limit : Nat)
  | total (storyId : String)
  | totalOfType (storyId type : String)
  | byType (storyId : String)

namespace Read

@[reducible] def Reply : Read → Type
  | messageById _ => Option Message
  | conversation .. => Page Message
  | unread .. => Nat
  | lastMessages _ => List (String × Message)
  | incomingUnread .. => List (String × Nat)
  | reactionById _ => Option Reaction
  | reactionOf .. => Option Reaction
  | reactions .. => Page Reaction
  | total _ => Nat
  | totalOfType .. => Nat
  | byType _ => List (String × Nat)

def program : (read : Read) → Method read.Reply
  | messageById id => MessagesRepository.findById id
  | conversation conversationId page limit =>
    MessagesRepository.findByConversation conversationId page limit
  | unread conversationId userId => MessagesRepository.countUnread conversationId userId
  | lastMessages conversationIds => MessagesRepository.findLastByConversations conversationIds
  | incomingUnread conversationIds senderIds =>
    MessagesRepository.countIncomingUnreadByConversations conversationIds senderIds
  | reactionById id => ReactionsRepository.findById id
  | reactionOf userId storyId => ReactionsRepository.findByUserAndStory userId storyId
  | reactions storyId page limit => ReactionsRepository.findReactionsByStory storyId page limit
  | total storyId => ReactionsRepository.countReactions storyId
  | totalOfType storyId type => ReactionsRepository.countReactionsByType storyId type
  | byType storyId => ReactionsRepository.countByType storyId

/-- The queries of a read, and what it makes of their answers. -/
def reading : (read : Read) → Reading read.Reply
  | messageById id => .one (.messageById id) fun row => row
  | conversation conversationId page limit =>
    .both (.messagePage conversationId limit ((page - 1) * limit)) (.messageTotal conversationId)
      Page.mk
  | unread conversationId userId => .one (.unread conversationId userId) fun total => total
  | lastMessages conversationIds =>
    .one (.newestMessages conversationIds) fun rows => rows.map fun row => (row.conversationId, row)
  | incomingUnread conversationIds senderIds =>
    .one (.incomingUnread conversationIds senderIds) fun rows => rows
  | reactionById id => .one (.reactionById id) fun row => row
  | reactionOf userId storyId => .one (.reactionByPair userId storyId) fun row => row
  | reactions storyId page limit =>
    .both (.reactionPage storyId limit ((page - 1) * limit)) (.reactionTotal storyId) Page.mk
  | total storyId => .one (.reactionTotal storyId) fun total => total
  | totalOfType storyId type => .one (.reactionTotalOfType storyId type) fun total => total
  | byType storyId => .one (.reactionsByType storyId) fun rows => rows

/-- What the queries of a read yield. -/
def yields (read : Read) (tables : Tables) : read.Reply := read.reading.yields tables

/-- What a read answers where the id it was given is none. -/
def invalid : (read : Read) → Option read.Reply
  | messageById _ => some none
  | reactionById _ => some none
  | reactionOf .. => some none
  | _ => none

/-- The read sends a statement at all. -/
def asks : Read → Prop
  | lastMessages conversationIds => conversationIds ≠ []
  | incomingUnread conversationIds senderIds => conversationIds ≠ [] ∧ senderIds ≠ []
  | _ => True

theorem program_of_asks {read : Read} (asks : read.asks) :
    read.program = read.reading.withFallback read.invalid := by
  cases read with
  | lastMessages conversationIds => exact if_neg asks
  | incomingUnread conversationIds senderIds => exact if_neg (not_or.mpr asks)
  | _ => rfl

theorem program_of_not_asks {read : Read} (silent : ¬ read.asks) (tables : Tables) :
    read.program = pure (read.yields tables) := by
  cases read with
  | lastMessages conversationIds =>
    obtain rfl := not_not.mp silent
    simp [program, MessagesRepository.findLastByConversations, yields, reading, Reading.yields,
      Query.yields, newestByConversation]
  | incomingUnread conversationIds senderIds =>
    have empty : conversationIds = [] ∨ senderIds = [] := by
      by_contra nonempty
      exact silent (not_or.mp nonempty)
    have nothing : ∀ m ∈ tables.messages, ¬ (m.conversationId ∈ conversationIds ∧
        m.senderId ∈ senderIds ∧ m.isRead = false) := by
      rintro m - ⟨conversation, sender, -⟩
      rcases empty with rfl | rfl
      · cases conversation
      · cases sender
    have none : tables.messages.filter (fun m => decide (m.conversationId ∈ conversationIds ∧
        m.senderId ∈ senderIds ∧ m.isRead = false)) = [] :=
      List.filter_eq_nil_iff.mpr fun m member => by simpa using nothing m member
    simp only [program, MessagesRepository.countIncomingUnreadByConversations, if_pos empty, yields,
      reading, Reading.yields, Query.yields, none]
    rfl
  | _ => exact (silent trivial).elim

/-- A row that is asked for makes a difference. -/
theorem exists_yields_ne_empty {read : Read} (asks : read.asks) :
    ∃ legacy, read.yields legacy ≠ read.yields ⟨[], []⟩ := by
  cases read with
  | messageById id =>
    refine ⟨oneMessage id "" "", ?_⟩
    simp [yields, reading, Reading.yields, Query.yields, oneMessage]
  | conversation conversationId page limit =>
    refine ⟨oneMessage "" conversationId "", fun same => ?_⟩
    have totals := congrArg Page.total same
    simp [yields, reading, Reading.yields, Query.yields, oneMessage] at totals
  | unread conversationId userId =>
    obtain ⟨sender, other⟩ : ∃ sender, sender ≠ userId := by
      by_cases empty : userId = ""
      · exact ⟨"sender", by simp [empty]⟩
      · exact ⟨"", Ne.symm empty⟩
    refine ⟨oneMessage "" conversationId sender, ?_⟩
    simp [yields, reading, Reading.yields, Query.yields, oneMessage, other]
  | lastMessages conversationIds =>
    obtain ⟨conversationId, rest, rfl⟩ := List.exists_cons_of_ne_nil asks
    refine ⟨oneMessage "" conversationId "", ?_⟩
    simp [yields, reading, Reading.yields, Query.yields, oneMessage, newestByConversation, newestOf]
  | incomingUnread conversationIds senderIds =>
    obtain ⟨conversationId, rest, rfl⟩ := List.exists_cons_of_ne_nil asks.1
    obtain ⟨senderId, others, rfl⟩ := List.exists_cons_of_ne_nil asks.2
    refine ⟨oneMessage "" conversationId senderId, ?_⟩
    simp [yields, reading, Reading.yields, Query.yields, oneMessage, countBy]
  | reactionById id =>
    refine ⟨oneReaction id "" "" "", ?_⟩
    simp [yields, reading, Reading.yields, Query.yields, oneReaction]
  | reactionOf userId storyId =>
    refine ⟨oneReaction "" userId storyId "", ?_⟩
    simp [yields, reading, Reading.yields, Query.yields, oneReaction]
  | reactions storyId page limit =>
    refine ⟨oneReaction "" "" storyId "", fun same => ?_⟩
    have totals := congrArg Page.total same
    simp [yields, reading, Reading.yields, Query.yields, oneReaction] at totals
  | total storyId =>
    refine ⟨oneReaction "" "" storyId "", ?_⟩
    simp [yields, reading, Reading.yields, Query.yields, oneReaction]
  | totalOfType storyId type =>
    refine ⟨oneReaction "" "" storyId type, ?_⟩
    simp [yields, reading, Reading.yields, Query.yields, oneReaction]
  | byType storyId =>
    refine ⟨oneReaction "" "" storyId "", ?_⟩
    simp [yields, reading, Reading.yields, Query.yields, oneReaction, countBy]

/-- No answer is the answer on every content of the legacy tables. -/
theorem exists_yields_ne {read : Read} (asks : read.asks) (value : read.Reply) :
    ∃ legacy, read.yields legacy ≠ value := by
  obtain ⟨legacy, differ⟩ := exists_yields_ne_empty asks
  by_cases same : read.yields ⟨[], []⟩ = value
  · exact ⟨legacy, same ▸ differ⟩
  · exact ⟨_, same⟩

end Read

/-- The read throws, or it answers what its queries yield on the partitioned rows. -/
def Sound (read : Read) (choices : Nat → Choice) (db : Database) : Prop :=
  ∀ value, (read.program.run.eval exec choices db).1 = .ok value →
    value = read.yields db.partitioned

/-- The table of no statement that fails is absent. -/
def Present (choices : Nat → Choice) : Prop :=
  ∀ n error, (choices n).failure = some error → error.sqlState ≠ some "42P01"

/-- The error that a read catches has a code, or the legacy table cannot be read either; and an
id that is no id is one that no row has. -/
structure Coded (read : Read) (choices : Nat → Choice) (partitioned : Tables) : Prop where
  coded : ∀ error, read.asks → read.reading.failure choices = some error → error.code = none →
    (read.reading.failure (later choices (read.reading.statements choices))).isSome
  invalid : ∀ error value, read.asks → read.reading.failure choices = some error →
    error.code = some "22P02" → read.invalid = some value → value = read.yields partitioned

section Soundness
variable {read : Read} {choices : Nat → Choice} {db : Database}

theorem Reading.present_of_failure {α : Type} {reading : Reading α} (present : Present choices)
    {error : Thrown} (failed : reading.failure choices = some error) :
    error.code ≠ some "42P01" := by
  intro absent
  cases reading with
  | one query result => exact present 0 error failed (Thrown.sqlState_of_code absent)
  | both first second result =>
    rcases Option.or_eq_some_iff.mp failed with first | ⟨-, second⟩
    · exact present 0 error first (Thrown.sqlState_of_code absent)
    · exact present 1 error second (Thrown.sqlState_of_code absent)

/-- What a read that sends statements ends with. -/
theorem eval_of_asks (asks : read.asks) :
    (read.program.run.eval exec choices db).1 =
      read.reading.answered read.invalid choices db := by
  rw [Read.program_of_asks asks, Reading.eval_withFallback]

theorem eval_read (read : Read) (choices : Nat → Choice) (db : Database) :
    (read.program.run.eval exec choices db).2 = db := by
  by_cases asks : read.asks
  · rw [Read.program_of_asks asks, Reading.eval_withFallback]
  · rw [Read.program_of_not_asks asks db.partitioned]
    rfl

theorem sound_of_coded (present : Present choices) (coded : Coded read choices db.partitioned) :
    Sound read choices db := by
  intro value ended
  by_cases asks : read.asks
  · rw [eval_of_asks asks, Reading.answered] at ended
    cases failed : read.reading.failure choices with
    | none =>
      simp only [failed, Except.ok.injEq] at ended
      exact ended.symm
    | some error =>
      have standing := Reading.present_of_failure present failed
      simp only [failed, standing, false_or] at ended
      by_cases wrapped : error.code = none
      · obtain ⟨again, refused⟩ :=
          Option.isSome_iff_exists.mp (coded.coded error asks failed wrapped)
        rw [if_pos wrapped, Reading.asked, refused] at ended
        cases ended
      · rw [if_neg wrapped] at ended
        cases unknown : read.invalid with
        | none =>
          rw [unknown] at ended
          cases ended
        | some answer =>
          simp only [unknown] at ended
          split at ended
          · rename_i spelled
            rw [← Except.ok.inj ended]
            exact coded.invalid error answer asks failed spelled unknown
          · cases ended
  · rw [Read.program_of_not_asks asks db.partitioned] at ended
    exact (Except.ok.inj ended).symm

theorem coded_of_sound (sound : ∀ legacy, Sound read choices (db.withLegacy legacy)) :
    Coded read choices db.partitioned := by
  constructor
  · intro error asks failed wrapped
    by_contra answers
    obtain ⟨legacy, differ⟩ := Read.exists_yields_ne asks (read.yields db.partitioned)
    refine differ (sound legacy _ ?_)
    rw [eval_of_asks asks, Reading.answered, failed]
    simp only [wrapped, or_true, if_true]
    rw [Reading.asked, Option.not_isSome_iff_eq_none.mp answers]
    rfl
  · intro error value asks failed spelled unknown
    refine sound db.legacy value ?_
    rw [eval_of_asks asks, Reading.answered, failed]
    simp [spelled, unknown]

end Soundness

section Runs

/-- What the repositories are asked for. -/
inductive Operation where
  | read (read : Read)
  | createMessage (data : CreateMessageInput)
  | markAsRead (id : String)
  | markAllAsRead (conversationId userId : String)
  | createReaction (userId storyId type : String)
  | updateReaction (id type : String)
  | deleteReaction (id : String)
  | deleteByUserAndStory (userId storyId : String)

def Operation.program : Operation → Method Unit
  | .read asked => do let _ ← asked.program
  | .createMessage data => do let _ ← MessagesRepository.create data
  | .markAsRead id => do let _ ← MessagesRepository.markAsRead id
  | .markAllAsRead conversationId userId => MessagesRepository.markAllAsRead conversationId userId
  | .createReaction userId storyId type => do
    let _ ← ReactionsRepository.create userId storyId type
  | .updateReaction id type => do let _ ← ReactionsRepository.update id type
  | .deleteReaction id => ReactionsRepository.delete id
  | .deleteByUserAndStory userId storyId => ReactionsRepository.deleteByUserAndStory userId storyId

def Database.step (db : Database) (operation : Operation × (Nat → Choice)) : Database :=
  (operation.1.program.run.eval exec operation.2 db).2

/-- An operation that writes is one statement. -/
def Operation.write? : Operation → Option Write
  | .read _ => none
  | .createMessage data => some (.insertMessage data)
  | .markAsRead id => some (.markRead id)
  | .markAllAsRead conversationId userId => some (.markAllRead conversationId userId)
  | .createReaction userId storyId type => some (.insertReaction userId storyId type)
  | .updateReaction id type => some (.setReactionType id type)
  | .deleteReaction id => some (.deleteReaction id)
  | .deleteByUserAndStory userId storyId => some (.deletePair userId storyId)

theorem step_eq (db : Database) (operation : Operation × (Nat → Choice)) :
    db.step operation =
      match operation.1.write? with
      | none => db
      | some write => (exec (operation.2 0) db (.write write)).2 := by
  obtain ⟨operation, choices⟩ := operation
  have written (write : Write) :
      ((do let _ ← call (.write write) : Method Unit).run.eval exec choices db).2 =
        (exec (choices 0) db (.write write)).2 := by
    change (Program.eval exec (Program.bind (.call (.write write) .done) _) choices db).2 = _
    simp only [Program.bind, Program.eval]
    cases (exec (choices 0) db (.write write)).1 <;> rfl
  cases operation with
  | read asked =>
    have discarded : ((do let _ ← asked.program : Method Unit).run.eval exec choices db).2 =
        (asked.program.run.eval exec choices db).2 := by
      change ((asked.program.run >>= _ : Program _ _ _).eval exec choices db).2 = _
      rw [Program.eval_bind]
      cases (asked.program.run.eval exec choices db).1 <;> rfl
    exact discarded.trans (eval_read asked choices db)
  | _ => exact written _

theorem step_withLegacy (db : Database) (legacy : Tables)
    (operation : Operation × (Nat → Choice)) :
    (db.withLegacy legacy).step operation = (db.step operation).withLegacy legacy := by
  rw [step_eq, step_eq]
  cases operation.1.write? with
  | none => rfl
  | some write =>
    simp only [exec]
    cases (operation.2 0).outcome <;> rfl

/-- No operation writes a legacy row, and none that writes reads one. -/
theorem run_withLegacy (db : Database) (legacy : Tables)
    (operations : List (Operation × (Nat → Choice))) :
    Trace.run Database.step (db.withLegacy legacy) operations =
      (Trace.run Database.step db operations).withLegacy legacy := by
  induction operations generalizing db with
  | nil => rfl
  | cons operation rest ih => rw [Trace.run_cons, Trace.run_cons, step_withLegacy, ih]

/-- Over every sequence of calls, whatever the legacy tables hold and whichever statements fail
while both tables stand: a read throws or answers what its queries yield on the partitioned rows,
if and only if the error it catches has a code. -/
theorem sound_iff_coded (db : Database) (operations : List (Operation × (Nat → Choice)))
    (read : Read) {choices : Nat → Choice} (present : Present choices) :
    (∀ legacy, Sound read choices
      (Trace.run Database.step (db.withLegacy legacy) operations)) ↔
        Coded read choices (Trace.run Database.step db operations).partitioned := by
  simp only [run_withLegacy]
  constructor
  · exact coded_of_sound
  · intro coded legacy
    exact sound_of_coded present coded

/-- The first statement throws. -/
def failing (error : Thrown) : Nat → Choice := fun n =>
  if n = 0 then { outcome := .refused error } else {}

theorem present_failing {error : Thrown} (standing : error.sqlState ≠ some "42P01") :
    Present (failing error) := by
  intro n thrown failed
  simp only [failing] at failed
  split at failed
  · obtain rfl := Option.some.inj failed
    exact standing
  · cases failed

/-- A query that does not go through the query builder is cancelled: its error has a code. -/
theorem sound_iff_coded_cancelled :
    let db : Database := ⟨⟨[], []⟩, oneMessage "message" "conversation" "sender"⟩
    let operations := [(Operation.createReaction "reader" "story" "like",
      failing (.wrapped (.driver (some "40001"))))]
    let read := Read.incomingUnread ["conversation"] ["sender"]
    let choices := failing (.driver (some "57014"))
    (∀ legacy, Sound read choices
      (Trace.run Database.step (db.withLegacy legacy) operations)) ↔
        Coded read choices (Trace.run Database.step db operations).partitioned :=
  sound_iff_coded _ _ _ (present_failing (by decide))

/-- The count of a story's reactions is cancelled, and answered from the empty legacy table. -/
theorem total_answers_legacy :
    let choices := failing (.wrapped (.driver (some "57014")))
    Present choices ∧ ¬ Sound (.total "story") choices
      ⟨⟨[], []⟩, oneReaction "reaction" "reader" "story" "like"⟩ := by
  intro choices
  refine ⟨present_failing (by decide), fun sound => ?_⟩
  have answered := sound 0 (by rfl)
  cases answered

end Runs
end Partitions
