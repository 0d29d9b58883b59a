import Hakawi.Effects.Transaction
import Hakawi.Partitions.Tables

/-!
# The repositories after the cutover

Writes name the partitioned table. A read asks the partitioned table first and, as long as the
error it catches has the code of a table that is not there or no code at all, asks the legacy
table instead.
-/

namespace Partitions

open Effects

structure CreateMessageInput where
  conversationId : String
  senderId : String
  content : String
  deriving DecidableEq

/-- A statement that writes; the row of an insert gets a fresh id and the time. -/
inductive Write where
  | insertMessage (data : CreateMessageInput)
  | markRead (id : String)
  | markAllRead (conversationId userId : String)
  | insertReaction (userId storyId type : String)
  | setReactionType (id type : String)
  | deleteReaction (id : String)
  | deletePair (userId storyId : String)
  deriving DecidableEq

inductive Call where
  | select (source : Source) (query : Query)
  | write (write : Write)

/-- What `returning()` hands back of the rows written. -/
inductive Returned where
  | message (row : Option Message)
  | reaction (row : Option Reaction)
  deriving DecidableEq

@[reducible] def Call.Value : Call → Type
  | .select _ query => query.Answer
  | .write _ => Returned

@[reducible] def Call.Answer (call : Call) : Type := Except Thrown call.Value

structure Choice where
  outcome : Transaction.Outcome Thrown := .performed
  /-- `randomUUID()` -/
  uuid : String := ""
  /-- `new Date()` -/
  now : Int := 0

namespace Tables

def setMessages (tables : Tables) (p : Message → Bool) (f : Message → Message) : Tables :=
  { tables with messages := tables.messages.map fun m => if p m then f m else m }

def setReactions (tables : Tables) (p : Reaction → Bool) (f : Reaction → Reaction) : Tables :=
  { tables with reactions := tables.reactions.map fun r => if p r then f r else r }

def deleteReactions (tables : Tables) (p : Reaction → Bool) : Tables :=
  { tables with reactions := tables.reactions.filter fun r => !p r }

def write (choice : Choice) (tables : Tables) : Write → Returned × Tables
  | .insertMessage data =>
    let row : Message :=
      ⟨choice.uuid, data.conversationId, data.senderId, data.content, false, none, choice.now⟩
    (.message row, { tables with messages := tables.messages ++ [row] })
  | .markRead id =>
    let read (m : Message) : Message := { m with isRead := true, readAt := some choice.now }
    (.message ((tables.messages.find? (·.id = id)).map read), tables.setMessages (·.id = id) read)
  | .markAllRead conversationId userId =>
    (.message none, tables.setMessages
      (fun m => m.conversationId = conversationId ∧ m.senderId ≠ userId ∧ m.isRead = false)
      fun m => { m with isRead := true, readAt := some choice.now })
  | .insertReaction userId storyId type =>
    let row : Reaction := ⟨choice.uuid, userId, storyId, type, choice.now⟩
    (.reaction row, { tables with reactions := tables.reactions ++ [row] })
  | .setReactionType id type =>
    let typed (r : Reaction) : Reaction := { r with type }
    (.reaction ((tables.reactions.find? (·.id = id)).map typed),
      tables.setReactions (·.id = id) typed)
  | .deleteReaction id => (.reaction none, tables.deleteReactions (·.id = id))
  | .deletePair userId storyId =>
    (.reaction none, tables.deleteReactions fun r => r.userId = userId ∧ r.storyId = storyId)

end Tables

namespace Database

def perform (choice : Choice) (db : Database) : (call : Call) → call.Value × Database
  | .select source query => (query.yields (db.tables source), db)
  | .write write =>
    let (returned, partitioned) := db.partitioned.write choice write
    (returned, { db with partitioned })

end Database

/-- A statement alone in its transaction. -/
def exec (choice : Choice) (db : Database) (call : Call) : call.Answer × Database :=
  match choice.outcome with
  | .performed => (.ok (db.perform choice call).1, (db.perform choice call).2)
  | .refused error => (.error error, db)
  | .lost error => (.error error, (db.perform choice call).2)

abbrev Method (α : Type) : Type := Fallible Call Call.Answer Thrown α

def call (op : Call) : Method op.Value := ExceptT.mk (.call op .done)

/-- What a read asks of the one place or the other: one statement, or two at a time. -/
inductive Reading (α : Type) where
  | one (query : Query) (result : query.Answer → α)
  | both (first second : Query) (result : first.Answer → second.Answer → α)

namespace Reading
variable {α : Type}

def ask (source : Source) : Reading α → Method α
  | one query result => do return result (← call (.select source query))
  -- `Promise.all` rejects as soon as one of its statements does; no answer of the other is used.
  | both first second result => do
    let a ← call (.select source first)
    let b ← call (.select source second)
    return result a b

def yields (tables : Tables) : Reading α → α
  | one query result => result (query.yields tables)
  | both first second result => result (first.yields tables) (second.yields tables)

/-- The `catch` of every read. `invalid` is what a read answers that looks an id up. -/
def withFallback (reading : Reading α) (invalid : Option α) : Method α :=
  tryCatch (reading.ask .partitioned) fun error =>
    if error.code = some "42P01" ∨ error.code = none then reading.ask .legacy
    else match invalid with
      | some value => if error.code = some "22P02" then pure value else throw error
      | none => throw error

end Reading

/-- The page and the total of a paginated read. -/
structure Page (ρ : Type) where
  rows : List ρ
  total : Nat
  deriving DecidableEq

namespace MessagesRepository

def findById (id : String) : Method (Option Message) :=
  (Reading.one (.messageById id) fun row => row).withFallback (some none)

def findByConversation (conversationId : String) (page limit : Nat) : Method (Page Message) :=
  let offset := (page - 1) * limit
  (Reading.both (.messagePage conversationId limit offset) (.messageTotal conversationId)
    Page.mk).withFallback none

def create (data : CreateMessageInput) : Method Returned := call (.write (.insertMessage data))

def markAsRead (id : String) : Method Returned := call (.write (.markRead id))

def markAllAsRead (conversationId userId : String) : Method Unit := do
  let _ ← call (.write (.markAllRead conversationId userId))

def countUnread (conversationId userId : String) : Method Nat :=
  (Reading.one (.unread conversationId userId) fun total => total).withFallback none

def findLastByConversations (conversationIds : List String) : Method (List (String × Message)) :=
  if conversationIds = [] then return []
  else (Reading.one (.newestMessages conversationIds) fun rows =>
    rows.map fun row => (row.conversationId, row)).withFallback none

def countIncomingUnreadByConversations (conversationIds senderIds : List String) :
    Method (List (String × Nat)) :=
  if conversationIds = [] ∨ senderIds = [] then return []
  else (Reading.one (.incomingUnread conversationIds senderIds) fun rows => rows).withFallback none

end MessagesRepository

namespace ReactionsRepository

def findById (id : String) : Method (Option Reaction) :=
  (Reading.one (.reactionById id) fun row => row).withFallback (some none)

def findByUserAndStory (userId storyId : String) : Method (Option Reaction) :=
  (Reading.one (.reactionByPair userId storyId) fun row => row).withFallback (some none)

def findReactionsByStory (storyId : String) (page limit : Nat) : Method (Page Reaction) :=
  let offset := (page - 1) * limit
  (Reading.both (.reactionPage storyId limit offset) (.reactionTotal storyId)
    Page.mk).withFallback none

def create (userId storyId type : String) : Method Returned :=
  call (.write (.insertReaction userId storyId type))

def update (id type : String) : Method Returned := call (.write (.setReactionType id type))

def delete (id : String) : Method Unit := do
  let _ ← call (.write (.deleteReaction id))

def deleteByUserAndStory (userId storyId : String) : Method Unit := do
  let _ ← call (.write (.deletePair userId storyId))

def countReactions (storyId : String) : Method Nat :=
  (Reading.one (.reactionTotal storyId) fun total => total).withFallback none

def countReactionsByType (storyId type : String) : Method Nat :=
  (Reading.one (.reactionTotalOfType storyId type) fun total => total).withFallback none

def countByType (storyId : String) : Method (List (String × Nat)) :=
  (Reading.one (.reactionsByType storyId) fun rows => rows).withFallback none

end ReactionsRepository
end Partitions
