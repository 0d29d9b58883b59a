import Mathlib.Data.List.Dedup
import Mathlib.Data.List.Sort

/-!
# The partitioned tables and the tables they replace

Messages, notifications, payment transactions and reactions are kept twice: in the table they
were always in, and in a parent partitioned by month whose name ends in `_p` and whose primary
key takes in the creation time. The columns are the same.
-/

namespace Partitions

structure Message where
  id : String
  conversationId : String
  senderId : String
  content : String
  isRead : Bool
  readAt : Option Int
  createdAt : Int
  deriving DecidableEq

structure Notification where
  id : String
  userId : String
  type : String
  title : String
  message : String
  data : Option String
  isRead : Bool
  readAt : Option Int
  createdAt : Int
  deriving DecidableEq

structure PaymentTransaction where
  id : String
  paymentId : String
  type : String
  status : String
  amount : Int
  currency : String
  gatewayResponse : Option String
  createdAt : Int
  deriving DecidableEq

structure Reaction where
  id : String
  userId : String
  storyId : String
  type : String
  createdAt : Int
  deriving DecidableEq

/-- Which of the two a statement names. -/
inductive Source where
  | legacy
  | partitioned
  deriving DecidableEq

/-- The rows the repositories of this development read, in one of the two places. -/
structure Tables where
  messages : List Message
  reactions : List Reaction

structure Database where
  legacy : Tables
  partitioned : Tables

def Database.tables (db : Database) : Source → Tables
  | .legacy => db.legacy
  | .partitioned => db.partitioned

/-- The same `*_p` rows beside other rows of the legacy tables. -/
def Database.withLegacy (db : Database) (legacy : Tables) : Database := { db with legacy }

/-- A rejected statement as the caller catches it. -/
inductive Thrown where
  /-- What the driver throws; an error of the connection need not carry a code. -/
  | driver (code : Option String)
  /-- `DrizzleQueryError`: it has a `cause`, and no `code` of its own. -/
  | wrapped (cause : Thrown)
  deriving DecidableEq

/-- `(error as { code?: string } | null)?.code` -/
def Thrown.code : Thrown → Option String
  | .driver code => code
  | .wrapped _ => none

/-- The code of the driver's error, however often it was wrapped. -/
def Thrown.sqlState : Thrown → Option String
  | .driver code => code
  | .wrapped cause => cause.sqlState

theorem Thrown.sqlState_of_code {thrown : Thrown} {code : String}
    (own : thrown.code = some code) : thrown.sqlState = some code := by
  cases thrown with
  | driver _ => exact own
  | wrapped cause => cases own

section Queries

/-- `ORDER BY created_at DESC` -/
def newestFirst {ρ : Type} (createdAt : ρ → Int) (rows : List ρ) : List ρ :=
  rows.insertionSort fun a b => createdAt b ≤ createdAt a

/-- `LIMIT limit OFFSET offset` -/
def window {ρ : Type} (limit offset : Nat) (rows : List ρ) : List ρ :=
  (rows.drop offset).take limit

/-- `count(*) ... GROUP BY` -/
def countBy {ρ : Type} (group : ρ → String) (rows : List ρ) : List (String × Nat) :=
  (rows.map group).dedup.map fun key => (key, rows.countP (group · = key))

/-- `ORDER BY created_at DESC, id DESC` has `a` before `b`. -/
def Message.precedes (a b : Message) : Bool :=
  b.createdAt < a.createdAt ∨ (b.createdAt = a.createdAt ∧ b.id ≤ a.id)

/-- The newest message of a conversation, by creation time and then by id. -/
def newestOf (rows : List Message) (conversationId : String) : Option Message :=
  ((rows.filter (·.conversationId = conversationId)).insertionSort
    fun a b => a.precedes b).head?

/-- `DISTINCT ON (conversation_id)`: one row for each conversation that has one. -/
def newestByConversation (rows : List Message) (conversationIds : List String) : List Message :=
  (((rows.map (·.conversationId)).filter (· ∈ conversationIds)).dedup).filterMap (newestOf rows)

inductive Query where
  | messageById (id : String)
  | messagePage (conversationId : String) (limit offset : Nat)
  | messageTotal (conversationId : String)
  | unread (conversationId userId : String)
  | newestMessages (conversationIds : List String)
  | incomingUnread (conversationIds senderIds : List String)
  | reactionById (id : String)
  | reactionByPair (userId storyId : String)
  | reactionPage (storyId : String) (limit offset : Nat)
  | reactionTotal (storyId : String)
  | reactionTotalOfType (storyId type : String)
  | reactionsByType (storyId : String)

@[reducible] def Query.Answer : Query → Type
  | messageById _ => Option Message
  | messagePage .. => List Message
  | messageTotal _ => Nat
  | unread .. => Nat
  | newestMessages _ => List Message
  | incomingUnread .. => List (String × Nat)
  | reactionById _ => Option Reaction
  | reactionByPair .. => Option Reaction
  | reactionPage .. => List Reaction
  | reactionTotal _ => Nat
  | reactionTotalOfType .. => Nat
  | reactionsByType _ => List (String × Nat)

/-- What the query yields on the rows of one of the two places. -/
def Query.yields (tables : Tables) : (query : Query) → query.Answer
  | messageById id => tables.messages.find? (·.id = id)
  | messagePage conversationId limit offset =>
    window limit offset (newestFirst Message.createdAt
      (tables.messages.filter (·.conversationId = conversationId)))
  | messageTotal conversationId => tables.messages.countP (·.conversationId = conversationId)
  | unread conversationId userId =>
    tables.messages.countP fun m =>
      m.conversationId = conversationId ∧ m.senderId ≠ userId ∧ m.isRead = false
  | newestMessages conversationIds => newestByConversation tables.messages conversationIds
  | incomingUnread conversationIds senderIds =>
    countBy Message.conversationId (tables.messages.filter fun m =>
      m.conversationId ∈ conversationIds ∧ m.senderId ∈ senderIds ∧ m.isRead = false)
  | reactionById id => tables.reactions.find? (·.id = id)
  | reactionByPair userId storyId =>
    tables.reactions.find? fun r => r.userId = userId ∧ r.storyId = storyId
  | reactionPage storyId limit offset =>
    window limit offset (newestFirst Reaction.createdAt
      (tables.reactions.filter (·.storyId = storyId)))
  | reactionTotal storyId => tables.reactions.countP (·.storyId = storyId)
  | reactionTotalOfType storyId type =>
    tables.reactions.countP fun r => r.storyId = storyId ∧ r.type = type
  | reactionsByType storyId =>
    countBy Reaction.type (tables.reactions.filter (·.storyId = storyId))

end Queries
end Partitions
