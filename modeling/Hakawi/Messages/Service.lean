import Hakawi.Common.Exceptions
import Hakawi.Common.Uuids
import Hakawi.Effects.Program
import Hakawi.Store.Indexed

/-!
# Starting a conversation

The service orders the two ids as texts, looks the pair up and inserts it when there is none.
The database compares ids as values, and its index is on the ordered pair.
-/

namespace Messages
open Html Common Store Effects

structure Conversation where
  id : Nat
  participant1Id : Nat
  participant2Id : Nat
  lastMessageAt : Option Int
  createdAt : Int
  deriving DecidableEq

def CONVERSATIONS_UNIQUE_IDX : String := "conversations_unique_idx"

/-- The columns of the index. -/
def Conversation.participants (conversation : Conversation) : Nat × Nat :=
  (conversation.participant1Id, conversation.participant2Id)

abbrev Conversations : Type := Indexed Conversation Conversation.id Conversation.participants

inductive Statement where
  | findByParticipants (participant1Id participant2Id : Units)
  | create (participant1Id participant2Id : Units)
  deriving DecidableEq

@[reducible] def Statement.Answer : Statement → Type
  | .findByParticipants _ _ => Option Conversation
  | .create _ _ => Conversation

abbrev Statement.Result (statement : Statement) : Type := Except Exception statement.Answer

section Database
variable (ids : UuidText) (users : List Nat)

/-- The ids that a statement names. -/
def readPair (participant1Id participant2Id : Units) : Except DatabaseError (Nat × Nat) :=
  match ids.parse participant1Id, ids.parse participant2Id with
  | some first, some second => .ok (first, second)
  | _, _ => .error .invalidText

def Conversation.new (pair : Nat × Nat) (now : Int) (id : Nat) : Conversation :=
  { id, participant1Id := pair.1, participant2Id := pair.2, lastMessageAt := none, createdAt := now }

/-- The index is checked as the row goes in, the references to the users at the end. -/
def perform (now : Int) (conversations : Conversations) :
    (statement : Statement) → Except DatabaseError (statement.Answer × Conversations)
  | .findByParticipants participant1Id participant2Id => do
    let pair ← readPair ids participant1Id participant2Id
    return (conversations.findBy? pair, conversations)
  | .create participant1Id participant2Id => do
    let pair ← readPair ids participant1Id participant2Id
    match conversations.insert? (Conversation.new pair now) (fun _ => rfl) with
    | none => throw (.uniqueViolation CONVERSATIONS_UNIQUE_IDX)
    | some inserted =>
      if pair.1 ∈ users ∧ pair.2 ∈ users then
        return (Conversation.new pair now conversations.next, inserted)
      else throw (.failed (some "23503"))

/-- A statement that is rejected changes nothing. -/
def exec (now : Int) (conversations : Conversations) (statement : Statement) :
    statement.Result × Conversations :=
  match perform ids users now conversations statement with
  | .ok (answer, after) => (.ok answer, after)
  | .error e => (.error (.drizzle e), conversations)

end Database

abbrev Method (α : Type) : Type := Fallible Statement Statement.Result Exception α

def query (statement : Statement) : Method statement.Answer :=
  ExceptT.mk (.call statement .done)

/-- `[a, b].sort()`: by code units. -/
def sort (a b : Units) : Units × Units := if b < a then (b, a) else (a, b)

def MessagesService.getOrCreateConversation (userId recipientId : Units) :
    Method Conversation := do
  if userId = recipientId then
    throw (.badRequest (units "Cannot start a conversation with yourself"))
  else
    let (participant1Id, participant2Id) := sort userId recipientId
    match ← query (.findByParticipants participant1Id participant2Id) with
    | some existing => return existing
    | none =>
      tryCatch (query (.create participant1Id participant2Id)) fun error => do
        if error.isUniqueViolation then
          match ← query (.findByParticipants participant1Id participant2Id) with
          | some raced => return raced
          | none => throw error
        else throw error

/-- A body whose fields are texts; a body with any other value in them is refused as well. -/
structure CreateConversationInput where
  recipientId : Option Units := none
  participantIds : Option (List Units) := none
  deriving DecidableEq

section Controller
variable (isUuid : Units → Bool)

/-- `z.string().uuid(message)` at a path. -/
def uuidIssues (path : Units) (message : String) (text : Units) : List Units :=
  if isUuid text then [] else [path ++ units ": " ++ units message]

def CreateConversationDto.issues (body : CreateConversationInput) : List Units :=
  (match body.recipientId with
    | none => []
    | some text => uuidIssues isUuid (units "recipientId") "recipientId must be a valid UUID" text) ++
  (match body.participantIds with
    | none => []
    | some [] => [units "participantIds: participantIds must not be empty"]
    | some (text :: rest) => ((text :: rest).zipIdx.map fun (text, i) =>
        uuidIssues isUuid (units s!"participantIds.{i}")
          "participantIds must contain only valid UUIDs" text).flatten) ++
  if body.recipientId.getD [] = [] ∧ body.participantIds = none then
    [units "recipientId: recipientId or participantIds is required"] else []

/-- `parseOrThrow(CreateConversationDto, body)` -/
def CreateConversationDto.parse (body : CreateConversationInput) :
    Except Exception CreateConversationInput :=
  match issues isUuid body with
  | [] => .ok body
  | found => .error (.badRequest ((units ", ").intercalate found))

/-- `parsed.recipientId ?? parsed.participantIds?.[0]` -/
def CreateConversationInput.recipient? (parsed : CreateConversationInput) : Option Units :=
  parsed.recipientId <|> parsed.participantIds.bind (·.head?)

def MessagesController.createConversation (body : CreateConversationInput) (userId : Units) :
    Method (Option Conversation) := do
  let parsed ← CreateConversationDto.parse isUuid body
  match parsed.recipient? with
  | none | some [] => return none
  | some (u :: rest) =>
    return some (← MessagesService.getOrCreateConversation userId (u :: rest))

end Controller
end Messages
