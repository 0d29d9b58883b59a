import Hakawi.Effects.Pool
import Hakawi.Social.Repository

/-!
# Comments, reactions and the handlers of their events

The operations are programs over the calls of the repositories and the event
bus. The bus checks an event against its schema: what passes waits for its
handler, what fails is parked in the dead letter queue. A handler is one write
of a counter; it runs whenever the environment picks its event.
-/

namespace Social

open Common Store Effects

/-- A field of a request body that may be absent. -/
inductive Optional (α : Type) where
  | undefined
  | null
  | value (a : α)
  deriving DecidableEq

namespace Optional
variable {α : Type}

/-- `field ?? null` -/
def orNull : Optional α → Option α
  | value a => some a
  | _ => none

end Optional

inductive Event where
  | reacted (kind : Kind) (userId : String) (targetId : Nat) (type : String)
  | reactionRemoved (kind : Kind) (userId : String) (targetId : Nat)
  | commentCreated (commentId storyId : Nat) (authorId : String) (parentId : Optional Nat)
  | commentDeleted (commentId storyId : Nat) (parentId : Option Nat)
  deriving DecidableEq

/-- The schemas: `parentId: z.string().optional()` takes no `null`, and the schema of a
deletion does not look at the field. -/
def Event.isValid : Event → Bool
  | .commentCreated _ _ _ parentId => parentId ≠ .null
  | _ => true

/-- The handlers of `StoriesEventHandler` and `CommentsEventHandler` that keep counters. -/
def Event.handle (tables : SocialTables) : Event → SocialTables
  | .reacted kind _ targetId _ => tables.incrementLikeCount kind targetId
  | .reactionRemoved kind _ targetId => tables.decrementLikeCount kind targetId
  | .commentCreated _ storyId _ parentId =>
    if parentId.orNull.isSome then tables else tables.incrementCommentCount storyId
  | .commentDeleted _ storyId parentId =>
    if parentId.isSome then tables else tables.decrementCommentCount storyId

structure System where
  now : Int
  tables : SocialTables
  /-- announced, not yet handled -/
  pending : List Event
  emitted : List Event
  deadLetters : List Event

namespace System

def opening (stories : Nat) : System := ⟨0, .opening stories, [], [], []⟩

def emit (system : System) (event : Event) : System :=
  if event.isValid then
    { system with
      pending := system.pending ++ [event], emitted := system.emitted ++ [event] }
  else { system with deadLetters := system.deadLetters ++ [event] }

/-- The handler of one pending event runs. -/
def deliver (system : System) (i : Nat) : System :=
  match system.pending[i]? with
  | none => system
  | some event =>
    { system with pending := system.pending.eraseIdx i, tables := event.handle system.tables }

end System

inductive Call where
  | findComment (id : Nat)
  | createComment (storyId : Nat) (authorId : String) (parentId : Optional Nat)
  | softDelete (id : Nat)
  | incrementReplyCount (id : Nat)
  | decrementReplyCount (id : Nat)
  | findReaction (kind : Kind) (userId : String) (targetId : Nat)
  | createReaction (kind : Kind) (userId : String) (targetId : Nat) (type : String)
  | updateReaction (kind : Kind) (id : Nat) (type : String)
  | deleteReactions (kind : Kind) (userId : String) (targetId : Nat)
  | emit (event : Event)
  | runHandler

abbrev Call.Answer : Call → Type
  | .findComment _ => Option Comment
  | .createComment _ _ _ => Except Failure Comment
  | .findReaction _ _ _ => Option Reaction
  | .createReaction _ _ _ _ => Except Failure Reaction
  | .softDelete _ | .incrementReplyCount _ | .decrementReplyCount _ | .updateReaction _ _ _
  | .deleteReactions _ _ _ | .emit _ | .runHandler => Unit

/-- What the environment decides at a call: the time that passes, and which pending event a
handler takes. -/
structure Choice where
  elapsed : Nat := 0
  event : Nat := 0

namespace System

/-- The tables after a statement that may be refused, which then changes nothing. -/
def written {α : Type} (system : System) (result : Except Failure (α × SocialTables)) :
    Except Failure α × System :=
  match result with
  | .error e => (.error e, system)
  | .ok (row, tables) => (.ok row, { system with tables })

def perform (system : System) (event : Nat) : (call : Call) → call.Answer × System
  | .findComment id => (system.tables.findComment id, system)
  | .createComment storyId authorId parentId =>
    system.written (system.tables.createComment storyId authorId parentId.orNull)
  | .softDelete id => ((), { system with tables := system.tables.softDelete id })
  | .incrementReplyCount id =>
    ((), { system with tables := system.tables.incrementReplyCount id })
  | .decrementReplyCount id =>
    ((), { system with tables := system.tables.decrementReplyCount id })
  | .findReaction kind userId targetId =>
    (system.tables.findReaction kind userId targetId, system)
  | .createReaction kind userId targetId type =>
    system.written (system.tables.createReaction kind userId targetId type system.now)
  | .updateReaction kind id type =>
    ((), { system with tables := system.tables.updateReaction kind id type })
  | .deleteReactions kind userId targetId =>
    ((), { system with tables := system.tables.deleteReactions kind userId targetId })
  | .emit announced => ((), system.emit announced)
  | .runHandler => ((), system.deliver event)

end System

/-- Some time passes before the call. -/
def exec (choice : Choice) (system : System) (call : Call) : call.Answer × System :=
  System.perform { system with now := system.now + choice.elapsed } choice.event call

abbrev Handler (α : Type) : Type := Fallible Call Call.Answer Failure α

@[simp] def call (op : Call) : Handler op.Answer :=
  ExceptT.mk (.call op fun answer => .done (.ok answer))

structure CreateCommentInput where
  storyId : Nat
  authorId : String
  parentId : Optional Nat
  deriving DecidableEq

/-- A reply goes to a comment of its story that can still be read and is no reply itself. -/
def checkParent (parent : Option Comment) (storyId : Nat) : Except Failure Unit :=
  match parent with
  | none => .error (.notFound "Parent comment not found")
  | some parent =>
    if parent.isDeleted then .error (.notFound "Parent comment not found")
    else if parent.storyId ≠ storyId then
      .error (.badRequest "Parent comment belongs to a different story")
    else if parent.parentId.isSome then
      .error (.badRequest "Replies cannot be nested more than two levels deep")
    else .ok ()

def validateParent (input : CreateCommentInput) : Handler Unit :=
  match input.parentId with
  | .value parentId => do checkParent (← call (.findComment parentId)) input.storyId
  | _ => return

def raiseReplyCount : Optional Nat → Handler Unit
  | .value parentId => call (.incrementReplyCount parentId)
  | _ => return

def lowerReplyCount : Option Nat → Handler Unit
  | some parentId => call (.decrementReplyCount parentId)
  | none => return

namespace CommentsService

def create (input : CreateCommentInput) : Handler Unit := do
  validateParent input
  let comment ← (← call (.createComment input.storyId input.authorId input.parentId)
    : Except Failure Comment)
  raiseReplyCount input.parentId
  call (.emit (.commentCreated comment.id comment.storyId comment.authorId input.parentId))

/-- The comment that was found, if it has not been deleted. -/
def live (found : Option Comment) : Except Failure Comment :=
  match found with
  | none => .error (.notFound "Comment not found")
  | some comment =>
    if comment.isDeleted then .error (.notFound "Comment not found") else .ok comment

def ownedBy (comment : Comment) (authorId : String) : Except Failure Unit :=
  if comment.authorId ≠ authorId then
    .error (.forbidden "You can only delete your own comments")
  else .ok ()

def delete (id : Nat) (authorId : String) : Handler Unit := do
  let comment ← live (← call (.findComment id))
  ownedBy comment authorId
  lowerReplyCount comment.parentId
  call (.softDelete id)
  call (.emit (.commentDeleted id comment.storyId comment.parentId))

end CommentsService

/-- A moderator's removal is the author's own delete, and nothing for what is gone already. -/
def handleModerationContentRemoved (targetId : Nat) : Handler Unit := do
  match ← call (.findComment targetId) with
  | none => return
  | some comment =>
    if comment.isDeleted then return
    else tryCatch (CommentsService.delete comment.id comment.authorId) fun _ => pure ()

def checkType (type : String) : Except Failure Unit :=
  if type ∈ VALID_REACTION_TYPES then .ok () else .error (.notFound "Invalid reaction type")

/-- The reader's reaction is changed, or written and announced. -/
def react (kind : Kind) (userId : String) (targetId : Nat) (type : String) : Handler Unit := do
  match ← call (.findReaction kind userId targetId) with
  | some existing => call (.updateReaction kind existing.id type)
  | none =>
    let _ ← (← call (.createReaction kind userId targetId type) : Except Failure Reaction)
    call (.emit (.reacted kind userId targetId type))

def unreact (kind : Kind) (userId : String) (targetId : Nat) : Handler Unit := do
  match ← call (.findReaction kind userId targetId) with
  | none => throw (.notFound "Reaction not found")
  | some _ =>
    call (.deleteReactions kind userId targetId)
    call (.emit (.reactionRemoved kind userId targetId))

namespace ReactionsService

def addReaction (userId : String) (storyId : Nat) (type : String) : Handler Unit := do
  checkType type
  react .story userId storyId type

def removeReaction (userId : String) (storyId : Nat) : Handler Unit :=
  unreact .story userId storyId

end ReactionsService

namespace CommentReactionsService

def addReaction (userId : String) (commentId : Nat) (type : String) : Handler Unit := do
  checkType type
  let _ ← CommentsService.live (← call (.findComment commentId))
  react .comment userId commentId type

def removeReaction (userId : String) (commentId : Nat) : Handler Unit := do
  let _ ← CommentsService.live (← call (.findComment commentId))
  unreact .comment userId commentId

end CommentReactionsService

inductive Task where
  | createComment (input : CreateCommentInput)
  | deleteComment (id : Nat) (authorId : String)
  | contentRemoved (commentId : Nat)
  | addReaction (kind : Kind) (userId : String) (targetId : Nat) (type : String)
  | removeReaction (kind : Kind) (userId : String) (targetId : Nat)
  | eventHandler
  deriving DecidableEq

def Task.handler : Task → Handler Unit
  | .createComment input => CommentsService.create input
  | .deleteComment id authorId => CommentsService.delete id authorId
  | .contentRemoved commentId => handleModerationContentRemoved commentId
  | .addReaction .story userId storyId type => ReactionsService.addReaction userId storyId type
  | .addReaction .comment userId commentId type =>
    CommentReactionsService.addReaction userId commentId type
  | .removeReaction .story userId storyId => ReactionsService.removeReaction userId storyId
  | .removeReaction .comment userId commentId =>
    CommentReactionsService.removeReaction userId commentId
  | .eventHandler => call .runHandler

/-- The requests and the runs of handlers at hand, none of them begun. -/
def pool (system : System) (tasks : List Task) :
    Pool System Call Call.Answer (Except Failure Unit) :=
  ⟨system, tasks.map fun task => task.handler.run⟩

end Social
