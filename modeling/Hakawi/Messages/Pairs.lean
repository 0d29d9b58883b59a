import Hakawi.Effects.Pool
import Hakawi.Messages.Service
import Mathlib.Data.Sym.Sym2

/-!
# One conversation for two users

A conversation is between the users of an unordered pair, and the index knows ordered pairs only.
The order of the texts makes up for the difference while every text is ordered as the printed id
is, and a call that finds no row gets to insert one while no other call does so in between.
-/

namespace Messages
open Html Common Store Effects

/-- Whom a conversation joins. -/
def Conversation.pair (conversation : Conversation) : Sym2 Nat :=
  s(conversation.participant1Id, conversation.participant2Id)

/-- At most one conversation for a pair, and none with oneself. -/
structure Single (conversations : Conversations) : Prop where
  nodup : (conversations.rows.map Conversation.pair).Nodup
  joins : ∀ r ∈ conversations.rows, ¬ r.pair.IsDiag

section Order

theorem eq_of_not_lt {a b : Units} (above : ¬ a < b) (below : ¬ b < a) : a = b :=
  List.le_antisymm below above

variable (ids : UuidText)

/-- The rows are in the order of the printed ids. -/
def Normalised (conversations : Conversations) : Prop :=
  ∀ r ∈ conversations.rows, ids.print r.participant1Id < ids.print r.participant2Id

variable {ids}

theorem Normalised.single {conversations : Conversations}
    (normal : Normalised ids conversations) : Single conversations := by
  have distinct := conversations.distinct
  constructor
  · refine List.Nodup.map_on (fun r hr s hs same => ?_) (List.Nodup.of_map _ distinct)
    rcases Sym2.eq_iff.mp same with ⟨first, second⟩ | ⟨first, second⟩
    · exact conversations.eq_of_index_eq hr hs (Prod.ext first second)
    · -- The other order is that of no row.
      have one := normal r hr
      have other := normal s hs
      rw [first, second] at one
      exact absurd other (List.lt_asymm one)
  · intro r hr diagonal
    have ordered := normal r hr
    rw [Sym2.mk_isDiag_iff.mp diagonal] at ordered
    exact List.lt_irrefl _ ordered

variable (ids) in
/-- A text stands to the caller's id as the printed text of the same id does. -/
def SortsAsPrinted (caller : Nat) (text : Units) : Prop :=
  ∀ k ∈ ids.parse text, (ids.print caller < text ↔ ids.print caller < ids.print k) ∧
    (text < ids.print caller ↔ ids.print k < ids.print caller)

instance (caller : Nat) (text : Units) : Decidable (SortsAsPrinted ids caller text) :=
  inferInstanceAs (Decidable (∀ k ∈ ids.parse text, _))

variable {caller k : Nat} {text : Units} (sorted : SortsAsPrinted ids caller text)

include sorted in
/-- The sorted texts name the ids in the order of the printed ones. -/
theorem SortsAsPrinted.sort_eq (different : ids.print caller ≠ text)
    (read : ids.parse text = some k) : ∃ first second,
      readPair ids (sort (ids.print caller) text).1 (sort (ids.print caller) text).2 =
        .ok (first, second) ∧
      ids.print first < ids.print second ∧ s(first, second) = s(caller, k) := by
  obtain ⟨above, below⟩ := sorted k read
  have own := ids.parse_print caller
  rw [sort]
  split
  · rename_i less
    exact ⟨k, caller, by simp [readPair, own, read], below.mp less, Sym2.eq_swap⟩
  · rename_i kept
    refine ⟨caller, k, by simp [readPair, own, read], above.mp ?_, rfl⟩
    exact Decidable.byContradiction fun less => different (eq_of_not_lt less kept)

end Order

/-- What a call has been handed, and whether the index has refused its row. -/
structure Contact where
  handed : Option Conversation := none
  lost : Bool := false
  deriving DecidableEq

namespace Contact

def next (g : Contact) : (statement : Statement) → statement.Result → Contact
  | .findByParticipants _ _, .ok (some conversation) => { g with handed := some conversation }
  | .create _ _, .ok conversation => { g with handed := some conversation }
  | .create _ _, .error e =>
    if e = .drizzle (.uniqueViolation CONVERSATIONS_UNIQUE_IDX) then { g with lost := true } else g
  | _, _ => g

end Contact

section Calls
variable (ids : UuidText) (users : List Nat)

/-- A row that is inserted is in the order of the printed ids. -/
def Statement.Ordered : Statement → Prop
  | .findByParticipants _ _ => True
  | .create participant1Id participant2Id => ∀ pair,
    readPair ids participant1Id participant2Id = .ok pair → ids.print pair.1 < ids.print pair.2

def contacts : Protocol Statement Statement.Result Contact :=
  ⟨fun _ statement => statement.Ordered ids, Contact.next⟩

/-- No other call has inserted a row for the pair that is to be inserted. -/
def Unraced (_ : Int) (conversations : Conversations) (_ : Contact) : Statement → Prop
  | .findByParticipants _ _ => True
  | .create participant1Id participant2Id =>
    ∀ i ∈ ids.parse participant1Id, ∀ j ∈ ids.parse participant2Id,
      conversations.findBy? (i, j) = none

instance (now : Int) (conversations : Conversations) (g : Contact) (statement : Statement) :
    Decidable (Unraced ids now conversations g statement) := by
  cases statement with
  | findByParticipants _ _ => exact .isTrue trivial
  | create _ _ => exact inferInstanceAs (Decidable (∀ i ∈ _, ∀ j ∈ _, _))

/-- The rows are in order, what has been handed out is among them, and no row was refused. -/
def Kept (conversations : Conversations) (memory : List Contact) : Prop :=
  Normalised ids conversations ∧
    ∀ g ∈ memory, g.lost = false ∧ ∀ c ∈ g.handed, c ∈ conversations.rows

variable {ids users} {now : Int} {conversations after : Conversations} {a b : Units}

theorem readPair_eq_ok {pair : Nat × Nat} :
    readPair ids a b = .ok pair ↔ ids.parse a = some pair.1 ∧ ids.parse b = some pair.2 := by
  rw [readPair]
  split
  · rename_i first second hfirst hsecond
    simp [hfirst, hsecond, Prod.ext_iff]
  · rename_i none'
    exact ⟨nofun, fun ⟨hfirst, hsecond⟩ => absurd hsecond (none' _ _ hfirst)⟩

theorem perform_find {answer : Option Conversation}
    (performed : perform ids users now conversations (.findByParticipants a b) =
      .ok (answer, after)) : after = conversations ∧ ∃ pair,
        readPair ids a b = .ok pair ∧ answer = conversations.findBy? pair := by
  rw [perform] at performed
  cases read : readPair ids a b with
  | error e =>
    rw [read] at performed
    cases performed
  | ok pair =>
    rw [read] at performed
    cases performed
    exact ⟨rfl, pair, rfl, rfl⟩

variable (users now conversations) in
/-- How an insert ends, once the ids are read. -/
theorem perform_create {pair : Nat × Nat} (read : readPair ids a b = .ok pair) :
    (perform ids users now conversations (.create a b) =
        .error (.uniqueViolation CONVERSATIONS_UNIQUE_IDX) ∧
      (conversations.findBy? pair).isSome) ∨
    (perform ids users now conversations (.create a b) = .error (.failed (some "23503")) ∧
      ¬ (pair.1 ∈ users ∧ pair.2 ∈ users)) ∨
    ∃ conversation after, conversation.participants = pair ∧
      after.rows = conversations.rows ++ [conversation] ∧
      perform ids users now conversations (.create a b) = .ok (conversation, after) := by
  simp only [perform, read, bind, Except.bind]
  cases inserted : conversations.insert? (Conversation.new pair now) (fun _ => rfl) with
  | none => exact Or.inl ⟨rfl, Indexed.insert?_eq_none_iff.mp inserted⟩
  | some after =>
    right
    by_cases exist : pair.1 ∈ users ∧ pair.2 ∈ users
    · right
      refine ⟨Conversation.new pair now conversations.next, after, rfl, ?_, if_pos exist⟩
      rw [Indexed.toTable_of_insert? inserted]
      rfl
    · exact Or.inl ⟨if_neg exist, exist⟩

theorem perform_create_error {e : DatabaseError} (unread : readPair ids a b = .error e) :
    perform ids users now conversations (.create a b) = .error e := by
  simp only [perform, unread, bind, Except.bind]

/-- A row that is added in order is the only thing that changes. -/
theorem Kept.add {memory : List Contact} {i : Nat} {g : Contact} {conversation : Conversation}
    (kept : Kept ids conversations memory) (remembers : memory[i]? = some g)
    (added : after.rows = conversations.rows ++ [conversation])
    (ordered : ids.print conversation.participant1Id < ids.print conversation.participant2Id) :
    Kept ids after (memory.set i { g with handed := some conversation }) := by
  obtain ⟨normal, known⟩ := kept
  have old : ∀ r ∈ conversations.rows, r ∈ after.rows := fun r member => by
    rw [added]
    exact List.mem_append_left _ member
  constructor
  · intro r member
    rw [added] at member
    rcases List.mem_append.mp member with before | new
    · exact normal r before
    · rw [List.mem_singleton.mp new]
      exact ordered
  · refine Pool.forall_mem_set (fun x member => ?_) ⟨?_, ?_⟩
    · exact ⟨(known x member).1, fun c handed => old c ((known x member).2 c handed)⟩
    · exact (known g (List.mem_of_getElem? remembers)).1
    · intro c handed
      cases handed
      rw [added]
      exact List.mem_append_right _ (List.mem_singleton_self _)

theorem Kept.hand {memory : List Contact} {i : Nat} {g : Contact} {conversation : Conversation}
    (kept : Kept ids conversations memory) (remembers : memory[i]? = some g)
    (member : conversation ∈ conversations.rows) :
    Kept ids conversations (memory.set i { g with handed := some conversation }) := by
  obtain ⟨normal, known⟩ := kept
  refine ⟨normal, Pool.forall_mem_set known ⟨?_, ?_⟩⟩
  · exact (known g (List.mem_of_getElem? remembers)).1
  · intro c handed
    cases handed
    exact member

variable (ids users) in
theorem kept_preserves : Pool.Preserves (exec ids users) (contacts ids) (Unraced ids) (Kept ids) := by
  intro now conversations memory i g statement remembers kept ordered unraced
  have same : Kept ids conversations (memory.set i g) := by rwa [Pool.set_of_some remembers]
  simp only [exec]
  cases statement with
  | findByParticipants a b =>
    cases performed : perform ids users now conversations (.findByParticipants a b) with
    | error e => exact same
    | ok answered =>
      obtain ⟨rfl, pair, -, found⟩ := perform_find performed
      obtain ⟨answer, after⟩ := answered
      cases answer with
      | none => exact same
      | some conversation =>
        exact kept.hand remembers (Indexed.findBy?_eq_some_iff.mp found.symm).1
  | create a b =>
    cases read : readPair ids a b with
    | error e =>
      rw [perform_create_error read]
      have other : e ≠ .uniqueViolation CONVERSATIONS_UNIQUE_IDX := by
        rw [readPair] at read
        split at read <;> cases read
        exact nofun
      simpa only [contacts, Contact.next, Exception.drizzle.injEq, if_neg other] using same
    | ok pair =>
      obtain ⟨first, second⟩ := readPair_eq_ok.mp read
      rcases perform_create users now conversations read with ⟨-, taken⟩ | ⟨failed, -⟩ |
        ⟨conversation, after, about, added, performed⟩
      · rw [unraced _ first _ second] at taken
        cases taken
      · rw [failed]
        simpa only [contacts, Contact.next, Exception.drizzle.injEq, reduceCtorEq, if_false]
          using same
      · rw [performed]
        refine kept.add remembers added ?_
        have inOrder := ordered pair read
        rwa [← about] at inOrder

section One
variable {caller k : Nat} {text : Units}

theorem follows_query {statement : Statement} (ordered : statement.Ordered ids)
    {Q : statement.Result → Contact → Prop} {g : Contact} (rest : ∀ result g, Q result g) :
    wpE (contacts ids).spec (query statement) Q g := ⟨ordered, fun result => rest result _⟩

theorem follows_getOrCreateConversation (sorted : SortsAsPrinted ids caller text) :
    wpE (contacts ids).spec (MessagesService.getOrCreateConversation (ids.print caller) text)
      (fun _ _ => True) {} := by
  rw [MessagesService.getOrCreateConversation]
  split
  · exact trivial
  · rename_i different
    have ordered : (Statement.create (sort (ids.print caller) text).1
        (sort (ids.print caller) text).2).Ordered ids := by
      intro pair named
      cases read : ids.parse text with
      | none =>
        obtain ⟨first, second⟩ := readPair_eq_ok.mp named
        rw [sort] at first second
        split at first
        · rw [read] at first
          cases first
        · rename_i kept
          rw [if_neg kept, read] at second
          cases second
      | some k =>
        obtain ⟨first, second, reads, less, -⟩ := sorted.sort_eq different read
        cases reads.symm.trans named
        exact less
    rw [wpE_bind]
    refine follows_query (by exact trivial) fun found g => ?_
    match found with
    | .error e => exact trivial
    | .ok (some existing) => exact trivial
    | .ok none =>
      simp only [wpE_tryCatch]
      refine follows_query ordered fun created g => ?_
      match created with
      | .ok conversation => exact trivial
      | .error e =>
        simp only
        split
        · rw [wpE_bind]
          refine follows_query (by exact trivial) fun raced g => ?_
          match raced with
          | .error e => exact trivial
          | .ok none => exact trivial
          | .ok (some conversation) => exact trivial
        · exact trivial

/-- How a call for two users who exist ends. -/
def Handed (caller k : Nat) (result : Except Exception Conversation) (g : Contact) : Prop :=
  (∃ c, result = .ok c ∧ g.handed = some c ∧ c.pair = s(caller, k)) ∨ g.lost = true

theorem among_getOrCreateConversation (sorted : SortsAsPrinted ids caller text)
    (read : ids.parse text = some k) (other : k ≠ caller) (exists' : caller ∈ users)
    (existsToo : k ∈ users) : wpE (Pool.amid (exec ids users) (contacts ids))
      (MessagesService.getOrCreateConversation (ids.print caller) text) (Handed caller k) {} := by
  have different : ids.print caller ≠ text := by
    rintro rfl
    rw [ids.parse_print, Option.some.injEq] at read
    exact other read.symm
  obtain ⟨first, second, reads, -, same⟩ := sorted.sort_eq different read
  have known : first ∈ users ∧ second ∈ users := by
    rcases Sym2.eq_iff.mp same with ⟨rfl, rfl⟩ | ⟨rfl, rfl⟩
    · exact ⟨exists', existsToo⟩
    · exact ⟨existsToo, exists'⟩
  have joins (c : Conversation) (about : c.participants = (first, second)) :
      c.pair = s(caller, k) := by
    obtain ⟨rfl, rfl⟩ := Prod.ext_iff.mp about
    exact same
  rw [MessagesService.getOrCreateConversation, if_neg different, wpE_bind]
  intro now conversations
  have found : exec ids users now conversations
      (.findByParticipants (sort (ids.print caller) text).1 (sort (ids.print caller) text).2) =
        (.ok (conversations.findBy? (first, second)), conversations) := by
    simp only [exec, perform, reads, bind, Except.bind, pure, Except.pure]
  simp only [found, Program.wp_done]
  cases existing : conversations.findBy? (first, second) with
  | some c =>
    have about := (Indexed.findBy?_eq_some_iff.mp existing).2
    exact Or.inl ⟨c, rfl, rfl, joins c about⟩
  | none =>
    simp only [wpE_tryCatch]
    intro now conversations
    simp only [exec]
    rcases perform_create users now conversations reads with
      ⟨refused, -⟩ | ⟨-, missing⟩ | ⟨conversation, after, about, -, performed⟩
    · rw [refused]
      exact Or.inr rfl
    · exact absurd known missing
    · rw [performed]
      exact Or.inl ⟨conversation, rfl, rfl, joins conversation about⟩

end One

/-- Somebody's call of the route. -/
structure Request where
  caller : Nat
  body : CreateConversationInput

section Requests
variable (isUuid : Units → Bool)

/-- The text that an accepted body names. -/
def Request.recipient? (request : Request) : Option Units :=
  match CreateConversationDto.parse isUuid request.body with
  | .ok parsed => parsed.recipient?.filter (· ≠ [])
  | .error _ => none

variable (ids) in
def Request.method (request : Request) : Method (Option Conversation) :=
  MessagesController.createConversation isUuid request.body (ids.print request.caller)

variable {isUuid} {request : Request}

theorem Request.wpE_method {G : Type} {spec : Program.OpSpec Statement Statement.Result G}
    {Q : Except Exception (Option Conversation) → G → Prop} {g : G}
    (refused : ∀ result, request.recipient? isUuid = none → Q result g)
    (named : ∀ text, request.recipient? isUuid = some text →
      wpE spec (MessagesService.getOrCreateConversation (ids.print request.caller) text)
        (fun result g => Q (result.map some) g) g) :
    wpE spec (request.method ids isUuid) Q g := by
  rw [Request.method, MessagesController.createConversation]
  rw [Request.recipient?] at refused named
  cases parsed : CreateConversationDto.parse isUuid request.body with
  | error e =>
    rw [parsed] at refused
    exact refused _ rfl
  | ok body =>
    rw [parsed] at refused named
    simp only [wpE_bind, wpE_liftM]
    match recipient : body.recipient? with
    | none => exact refused _ (by simp [recipient])
    | some [] => exact refused _ (by simp [recipient])
    | some (u :: rest) =>
      simp only [wpE_bind]
      have called := named (u :: rest) (by simp [recipient])
      simp only [wpE] at called ⊢
      convert called using 3 with result g
      cases result <;> rfl

end Requests

section Runs
variable (ids users) (isUuid : Units → Bool)

/-- A call for two users who exist has been answered with their conversation. -/
def Request.Answered (request : Request) (result : Except Exception (Option Conversation))
    (conversations : Conversations) : Prop :=
  ∀ text k, request.recipient? isUuid = some text → ids.parse text = some k →
    request.caller ∈ users → k ∈ users → k ≠ request.caller →
      ∃ c ∈ conversations.rows, result = .ok (some c) ∧ c.pair = s(request.caller, k)

def begin (conversations : Conversations) (requests : List Request) :
    Pool Conversations Statement Statement.Result (Except Exception (Option Conversation)) :=
  ⟨conversations, requests.map fun request => (request.method ids isUuid).run⟩

/-- Any calls, interleaved in any way, where every text is ordered as the printed id is and no
call inserts a pair's row between another's look and its insert: there is one conversation for a
pair at most and none with oneself, and who has called for another user has it. -/
theorem one_conversation_for_a_pair {conversations : Conversations}
    (normal : Normalised ids conversations) {requests : List Request}
    (sorted : ∀ request ∈ requests, ∀ text ∈ request.recipient? isUuid,
      SortsAsPrinted ids request.caller text) {schedule : List (Nat × Int)}
    (unraced : Pool.Meets (exec ids users) (contacts ids) (Unraced ids) schedule
      (List.replicate requests.length {}) (begin ids isUuid conversations requests)) :
    let after := (begin ids isUuid conversations requests).run (exec ids users) schedule
    Single after.state ∧ ∀ i request result, requests[i]? = some request →
      after.result? i = some result → request.Answered ids users isUuid result after.state := by
  have follow : Pool.Follow (contacts ids) (List.replicate requests.length {})
      (begin ids isUuid conversations requests) := by
    have each : ∀ p ∈ (begin ids isUuid conversations requests).threads,
        (contacts ids).Follows {} p := by
      intro p member
      obtain ⟨request, asked, rfl⟩ := List.mem_map.mp member
      refine Request.wpE_method (fun _ _ => trivial) fun text named => ?_
      exact follows_getOrCreateConversation (sorted request asked text named)
    simpa [begin] using Pool.follow_replicate each conversations
  have start : Kept ids conversations (List.replicate requests.length {}) := by
    refine ⟨normal, fun g member => ?_⟩
    rw [List.eq_of_mem_replicate member]
    exact ⟨rfl, nofun⟩
  obtain ⟨kept, followed⟩ :=
    Pool.run_invariant (kept_preserves ids users) start follow unraced
  refine ⟨kept.1.single, fun i request result asked done text k named read here there other => ?_⟩
  have within : i < requests.length := (List.getElem?_eq_some_iff.mp asked).1
  have remembers : (List.replicate requests.length ({} : Contact))[i]? = some {} := by
    rw [List.getElem?_replicate, if_pos within]
  have about : (begin ids isUuid conversations requests).threads[i]? =
      some (request.method ids isUuid).run := by
    simp [begin, asked]
  have among : wpE (Pool.amid (exec ids users) (contacts ids)) (request.method ids isUuid)
      (fun result g => (∃ c, result = .ok (some c) ∧ g.handed = some c ∧
        c.pair = s(request.caller, k)) ∨ g.lost = true) {} := by
    refine Request.wpE_method (fun _ never => ?_) fun text' named' => ?_
    · rw [named] at never
      cases never
    · cases named.symm.trans named'
      refine wpE_mono Pool.amid_monotone (fun result g handed => ?_)
        (among_getOrCreateConversation (sorted request (List.mem_of_getElem? asked) text named)
          read other here there)
      exact handed.imp_left fun ⟨c, ok, rest⟩ => ⟨c, by rw [ok]; rfl, rest⟩
  have ended := Pool.done_of_result? done
  obtain ⟨g, left⟩ : ∃ g, (Pool.recallAll (exec ids users) (contacts ids)
      (List.replicate requests.length {}) (begin ids isUuid conversations requests)
      schedule)[i]? = some g := by
    have long := followed.length_eq
    obtain ⟨inside, -⟩ := List.getElem?_eq_some_iff.mp ended
    exact ⟨_, List.getElem?_eq_getElem (by omega)⟩
  obtain ⟨unlost, known⟩ := kept.2 g (List.mem_of_getElem? left)
  rcases Pool.post_of_amid remembers about among schedule ended left with
    ⟨c, ok, handed, joins⟩ | lost
  · exact ⟨c, known c handed, ok, joins⟩
  · rw [unlost] at lost
    cases lost

end Runs
end Calls

/-- `8-4-4-4-12` digits, in either case. -/
def isUuidText (text : Units) : Bool :=
  text.all (fun u => u = UuidText.UUID_HYPHEN || isHexDigit u) &&
    (text.splitOn UuidText.UUID_HYPHEN).map List.length = [8, 4, 4, 4, 12]

section Examples

def SULTAN : Nat := 10
def VIZIER : Nat := 11

def printed (id : Nat) : Units := UuidText.hexadecimal.print id

/-- An id in capitals. -/
def capitals (id : Nat) : Units :=
  (printed id).map fun u => if isLetter u then u - 32 else u

def write (caller : Nat) (text : Units) : Request := ⟨caller, { recipientId := some text }⟩

def serve (requests : List Request) (threads : List Nat) :
    Pool Conversations Statement Statement.Result (Except Exception (Option Conversation)) :=
  (begin .hexadecimal isUuidText Indexed.empty requests).run (exec .hexadecimal [SULTAN, VIZIER])
    (threads.map fun i => (i, 0))

/-- Each writes to the other, one looking before and after the other inserts. -/
theorem sultan_and_vizier : Single
    (serve [write SULTAN (printed VIZIER), write VIZIER (printed SULTAN)] [0, 0, 1]).state ∧
    ∃ c ∈ (serve [write SULTAN (printed VIZIER), write VIZIER (printed SULTAN)]
      [0, 0, 1]).state.rows, c.pair = s(VIZIER, SULTAN) := by
  have normal : Normalised .hexadecimal Indexed.empty := nofun
  have sorted : ∀ request ∈ [write SULTAN (printed VIZIER), write VIZIER (printed SULTAN)],
      ∀ text ∈ request.recipient? isUuidText, SortsAsPrinted .hexadecimal request.caller text := by
    decide
  have unraced : Pool.Meets (exec .hexadecimal [SULTAN, VIZIER]) (contacts .hexadecimal)
      (Unraced .hexadecimal) ([0, 0, 1].map fun i => (i, 0)) (List.replicate 2 {})
      (begin .hexadecimal isUuidText Indexed.empty
        [write SULTAN (printed VIZIER), write VIZIER (printed SULTAN)]) := by decide
  have both := one_conversation_for_a_pair .hexadecimal [SULTAN, VIZIER] isUuidText normal sorted
    unraced
  obtain ⟨c, member, -, joins⟩ := both.2 1 (write VIZIER (printed SULTAN))
    (.ok (some ⟨0, SULTAN, VIZIER, none, 0⟩)) rfl (by decide) (printed SULTAN) SULTAN
    (by decide) (by decide) (by decide) (by decide) (by decide)
  exact ⟨both.1, c, member, joins⟩

/-- In capitals one's own id is not recognised, and another's may sort differently; who loses the
race for the row is not handed the winner's. -/
theorem capitals_start_another : ¬ Single (serve [write SULTAN (capitals SULTAN)] [0, 0]).state ∧
    ¬ Single (serve [write SULTAN (printed VIZIER), write SULTAN (capitals VIZIER)]
      [0, 0, 1, 1]).state ∧
    ∃ result, (serve [write SULTAN (printed VIZIER), write VIZIER (printed SULTAN)]
        [0, 1, 0, 1]).result? 1 = some result ∧
      ¬ (write VIZIER (printed SULTAN)).Answered .hexadecimal [SULTAN, VIZIER] isUuidText result
        (serve [write SULTAN (printed VIZIER), write VIZIER (printed SULTAN)]
          [0, 1, 0, 1]).state := by
  refine ⟨fun single => ?_, fun single => ?_, .error (.drizzle (.uniqueViolation
    CONVERSATIONS_UNIQUE_IDX)), by decide, fun answered => ?_⟩
  · exact single.joins ⟨0, SULTAN, SULTAN, none, 0⟩ (by decide) rfl
  · have twice : (serve [write SULTAN (printed VIZIER), write SULTAN (capitals VIZIER)]
        [0, 0, 1, 1]).state.rows.map Conversation.pair = [s(SULTAN, VIZIER), s(VIZIER, SULTAN)] := by
      have rows : (serve [write SULTAN (printed VIZIER), write SULTAN (capitals VIZIER)]
        [0, 0, 1, 1]).state.rows = [⟨0, SULTAN, VIZIER, none, 0⟩, ⟨1, VIZIER, SULTAN, none, 0⟩] := by
          decide
      rw [rows]
      rfl
    have nodup := single.nodup
    rw [twice, Sym2.eq_swap] at nodup
    exact List.not_nodup_pair _ nodup
  · obtain ⟨c, -, never, -⟩ := answered (printed SULTAN) SULTAN (by decide)
      (by decide) (by decide) (by decide) (by decide)
    cases never

end Examples
end Messages
