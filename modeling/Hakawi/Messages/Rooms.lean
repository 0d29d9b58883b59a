import Hakawi.Messages.Service

/-!
# Messages over two transports

The controller and the gateway call one service. A request of the controller passes
`RestrictionGuard`, and its body a schema; an event of a socket passes neither. The
service announces what it did, and the handlers of the announcement deliver it to
the room of the conversation. A handler is detached; nothing that it reads is
changed by others, and it is run where the service announces.

Log lines and the presence events, which go to no room, are left out.
-/

namespace Messages.Rooms

open Html Common Store Effects

structure Message where
  id : Nat
  conversationId : Nat
  senderId : Nat
  content : Units
  isRead : Bool
  readAt : Option Int
  createdAt : Int
  deriving DecidableEq

/-- What is sent to a room. -/
inductive RoomEvent where
  | messageReceived (message : Message)
  | messageRead (messageId conversationId readBy : Nat) (readAt : Option Int)
  | userTyping (userId : Nat) (conversationId : Units) (isTyping : Bool)
  deriving DecidableEq

/-- Whose doing an event is. -/
def RoomEvent.causer : RoomEvent → Nat
  | messageReceived message => message.senderId
  | messageRead _ _ readBy _ => readBy
  | userTyping userId _ _ => userId

/-- A connected socket, its account once the handshake has been verified. -/
structure Socket where
  id : Nat
  userId : Option Nat
  rooms : List Units
  deriving DecidableEq

/-- What was sent to a room, and what was true of it then: the participants of the conversation
whose room it is, and what restricted the account whose doing it was. -/
structure Delivery where
  room : Units
  event : RoomEvent
  receivers : List Nat
  participants : Option (Nat × Nat)
  restriction : Option String
  deriving DecidableEq

structure World where
  conversations : Conversations
  messages : Table Message Message.id
  /-- `restriction:<userId>` -/
  restrictions : Nat → Option String
  sockets : List Socket
  delivered : List Delivery

inductive Op where
  | readCurrentRestriction (userId : Nat)
  | findConversation (id : Units)
  | updateLastMessage (id : Units)
  | findMessage (id : Units)
  | findByConversation (conversationId : Units) (page limit : Nat)
  | createMessage (conversationId : Units) (senderId : Nat) (content : Option Units)
  | markAsRead (id : Units)
  | markAllAsRead (conversationId : Units) (userId : Nat)
  | sendToDLQ (eventName : String)
  | broadcast (room : Units) (event : RoomEvent) (except : Option Nat)
  | join (socket : Nat) (room : Units)
  | leave (socket : Nat) (room : Units)

@[reducible] def Op.Answer : Op → Type
  | readCurrentRestriction _ => Option String
  | findConversation _ => Option Conversation
  | findMessage _ => Option Message
  | findByConversation _ _ _ => List Message × Nat
  | createMessage _ _ _ => Message
  | markAsRead _ => Option Message
  | _ => Unit

/-- What is thrown: an exception of the database or of HTTP, an `Error`, or the refusal of a
restricted account with its status. -/
inductive Thrown where
  | exception (e : Exception)
  | error (message : String)
  | restricted (statusCode : Nat) (message type : String)
  deriving DecidableEq

@[reducible] def Op.Result (op : Op) : Type := Except Thrown op.Answer

/-- What the environment decides about one call. -/
structure Choice where
  /-- The call throws, and nothing is written. -/
  fault : Option Thrown := none
  now : Int := 0

def Choice.quiet : Choice := {}

namespace World
variable (ids : UuidText) (world : World)

def socket? (id : Nat) : Option Socket := world.sockets.find? fun socket => socket.id = id

/-- The conversation that a text names. -/
def conversation? (text : Units) : Option Conversation :=
  (ids.parse text).bind world.conversations.toTable.find?

def message? (text : Units) : Option Message := (ids.parse text).bind world.messages.find?

/-- `server.to(room).emit` and `client.to(room).emit`: every socket in the room, but the client. -/
def broadcast (room : Units) (event : RoomEvent) (except : Option Nat) : World :=
  { world with
    delivered := world.delivered ++ [{
      room
      event
      receivers := (world.sockets.filter fun socket =>
        room ∈ socket.rooms ∧ some socket.id ≠ except).map Socket.id
      participants := (world.conversation? ids room).map Conversation.participants
      restriction := world.restrictions event.causer }] }

def modifySocket (id : Nat) (f : Socket → Socket) : World :=
  { world with sockets := world.sockets.map fun socket => if socket.id = id then f socket else socket }

/-- Writes the time of the last message. -/
def touch (id : Nat) (now : Int) : World :=
  { world with
    conversations := (world.conversations.modify? id (fun conversation =>
        { conversation with lastMessageAt := some now }) fun _ => rfl).getD world.conversations }

/-- The columns of a new row. -/
def newMessage (conversationId senderId : Nat) (content : Units) (now : Int) (id : Nat) : Message where
  id
  conversationId
  senderId
  content
  isRead := false
  readAt := none
  createdAt := now

def insertMessage (conversationId senderId : Nat) (content : Units) (now : Int) : World :=
  { world with
    messages := world.messages.insert (newMessage conversationId senderId content now) fun _ => rfl }

def readMessage (id : Nat) (now : Int) : World :=
  { world with
    messages := world.messages.modify id (fun message =>
      { message with isRead := true, readAt := some now }) fun _ => rfl }

/-- The messages of a conversation that the reader did not send and has not read. -/
def readMessages (conversationId userId : Nat) (now : Int) : World :=
  { world with
    messages := world.messages.map (fun message =>
      if message.conversationId = conversationId ∧ message.senderId ≠ userId ∧ ¬ message.isRead then
        { message with isRead := true, readAt := some now }
      else message) fun message => by split <;> rfl }

end World

section Execution
variable (ids : UuidText)

/-- A statement about an id whose text the server does not take for one is rejected. -/
def byId {α : Type} (world : World) (text : Units) (run : Nat → Except Thrown α × World) :
    Except Thrown α × World :=
  match ids.parse text with
  | none => (.error (.exception (.drizzle .invalidText)), world)
  | some id => run id

/-- A call that does not throw for a reason of its own. -/
def performOp (now : Int) (world : World) : (op : Op) → op.Result × World
  | .readCurrentRestriction userId => (.ok (world.restrictions userId), world)
  | .findConversation id =>
    byId ids world id fun id => (.ok (world.conversations.toTable.find? id), world)
  | .updateLastMessage id => byId ids world id fun id => (.ok (), world.touch id now)
  | .findMessage id => byId ids world id fun id => (.ok (world.messages.find? id), world)
  | .findByConversation conversationId page limit => byId ids world conversationId fun id =>
    let found := (world.messages.rows.filter fun message => message.conversationId = id).mergeSort
      fun a b => b.createdAt ≤ a.createdAt
    (.ok ((found.drop ((page - 1) * limit)).take limit, found.length), world)
  | .createMessage conversationId senderId content =>
    match content with
    | none => (.error (.exception (.drizzle (.notNullViolation "content"))), world)
    | some content => byId ids world conversationId fun id =>
      (.ok (World.newMessage id senderId content now world.messages.next),
        world.insertMessage id senderId content now)
  | .markAsRead id => byId ids world id fun id =>
    (.ok ((world.readMessage id now).messages.find? id), world.readMessage id now)
  | .markAllAsRead conversationId userId => byId ids world conversationId fun id =>
    (.ok (), world.readMessages id userId now)
  | .sendToDLQ _ => (.ok (), world)
  | .broadcast room event except => (.ok (), world.broadcast ids room event except)
  | .join socket room => (.ok (), world.modifySocket socket fun socket =>
      { socket with rooms := room :: socket.rooms })
  | .leave socket room => (.ok (), world.modifySocket socket fun socket =>
      { socket with rooms := socket.rooms.filter (· ≠ room) })

def exec (choice : Choice) (world : World) (op : Op) : op.Result × World :=
  match choice.fault with
  | some thrown => (.error thrown, world)
  | none => performOp ids choice.now world op

end Execution

abbrev Handler (α : Type) : Type := Fallible Op Op.Result Thrown α

abbrev call (op : Op) : Handler op.Answer := Effects.perform op

def httpError {α : Type} (e : Exception) : Handler α := throw (.exception e)

def conversationNotFound {α : Type} : Handler α :=
  httpError (.notFound (units "Conversation not found"))

/-- The announcements of the service, with the ids as the service has them. -/
inductive Announcement where
  | messageSent (messageId : Nat) (conversationId : Units) (senderId recipientId : Nat)
  | messageRead (messageId : Units) (conversationId readBy : Nat)

namespace Announcement
variable (ids : UuidText)

def eventName : Announcement → String
  | messageSent _ _ _ _ => "message.sent"
  | messageRead _ _ _ => "message.read"

/-- The ids that the schema of the event checks. -/
def texts : Announcement → List Units
  | messageSent messageId conversationId senderId recipientId =>
    [ids.print messageId, conversationId, ids.print senderId, ids.print recipientId]
  | messageRead messageId conversationId readBy =>
    [messageId, ids.print conversationId, ids.print readBy]

end Announcement

section Announcing
variable (ids : UuidText) (isUuid : Units → Bool)

def MessagesEventHandler.handleMessageSent (messageId : Units) : Handler Unit := do
  match ← call (.findMessage messageId) with
  | none => return ()
  | some message =>
    call (.broadcast (ids.print message.conversationId) (.messageReceived message) none)

def MessagesEventHandler.handleMessageRead (messageId : Units) (readBy : Nat) : Handler Unit := do
  match ← call (.findMessage messageId) with
  | none => return ()
  | some message => call (.broadcast (ids.print message.conversationId)
      (.messageRead message.id message.conversationId readBy message.readAt) none)

def Announcement.handler : Announcement → Handler Unit
  | messageSent messageId _ _ _ => MessagesEventHandler.handleMessageSent ids (ids.print messageId)
  | messageRead messageId _ readBy => MessagesEventHandler.handleMessageRead ids messageId readBy

/-- What the schema accepts is handled, and what the handler throws reaches nobody; what it
refuses is dead-lettered. -/
def EventValidatorService.emit (announcement : Announcement) : Handler Unit :=
  if (announcement.texts ids).all isUuid then
    tryCatch (announcement.handler ids) fun _ => return ()
  else
    call (.sendToDLQ announcement.eventName)

end Announcing

/-- `participant1Id === userId || participant2Id === userId` -/
def Participates (participants : Nat × Nat) (userId : Nat) : Prop :=
  participants.1 = userId ∨ participants.2 = userId

instance (participants : Nat × Nat) (userId : Nat) : Decidable (Participates participants userId) :=
  inferInstanceAs (Decidable (_ ∨ _))

section Service
variable (ids : UuidText) (isUuid : Units → Bool)

/-- The conversation, for one of its participants. -/
def ownConversation (conversationId : Units) (userId : Nat) : Handler Conversation := do
  match ← call (.findConversation conversationId) with
  | none => conversationNotFound
  | some conversation =>
    if Participates conversation.participants userId then return conversation
    else conversationNotFound

def MessagesService.getMessages (conversationId : Units) (userId page limit : Nat) :
    Handler (List Message × Nat) := do
  let _ ← ownConversation conversationId userId
  call (.findByConversation conversationId page limit)

def MessagesService.sendMessage (conversationId : Units) (senderId : Nat)
    (content : Option Units) : Handler Message := do
  let conversation ← ownConversation conversationId senderId
  let message ← call (.createMessage conversationId senderId content)
  call (.updateLastMessage conversationId)
  let recipientId := if conversation.participant1Id = senderId then conversation.participant2Id
    else conversation.participant1Id
  EventValidatorService.emit ids isUuid
    (.messageSent message.id conversationId senderId recipientId)
  return message

/-- The refusals of a reader that the message does not concern. -/
def MessagesService.markAsRead (messageId : Units) (userId : Nat) : Handler Message := do
  match ← call (.findMessage messageId) with
  | none => httpError (.notFound (units "Message not found"))
  | some message =>
    if message.senderId = userId then
      httpError (.badRequest (units "Cannot mark own message as read"))
    else
      match ← call (.findConversation (ids.print message.conversationId)) with
      | none => httpError (.forbidden (units "You are not a participant of this conversation"))
      | some conversation =>
        if Participates conversation.participants userId then do
          match ← call (.markAsRead messageId) with
          | none => httpError .typeError
          | some updated => do
            EventValidatorService.emit ids isUuid
              (.messageRead messageId updated.conversationId userId)
            return updated
        else httpError (.forbidden (units "You are not a participant of this conversation"))

def MessagesService.markAllAsRead (conversationId : Units) (userId : Nat) : Handler Unit := do
  let _ ← ownConversation conversationId userId
  call (.markAllAsRead conversationId userId)

end Service

def MAX_MESSAGE_LENGTH : Nat := 4000

/-- What a body has for its content: nothing, a text, or a value of another type. -/
inductive BodyValue where
  | missing
  | text (text : Units)
  | other (type : String)
  deriving DecidableEq

def SendMessageDto.issues : BodyValue → List String
  | .missing => ["Message content is required"]
  | .other type => [s!"Expected string, received {type}"]
  | .text text =>
    (if (trim text).length < 1 then ["Message content must not be empty"] else []) ++
      if MAX_MESSAGE_LENGTH < (trim text).length then
        [s!"Message must not exceed {MAX_MESSAGE_LENGTH} characters"] else []

def BodyValue.trimmed : BodyValue → Units
  | text given => trim given
  | _ => []

/-- `parseOrThrow(SendMessageDto, body)` -/
def SendMessageDto.parse (content : BodyValue) : Except Thrown Units :=
  match issues content with
  | [] => .ok content.trimmed
  | found => .error (.exception (.badRequest
      ((units ", ").intercalate (found.map fun message => units s!"content: {message}"))))

def FULLY_BLOCKED : List String := ["ban"]
def WRITE_DENIED : List String := ["mute"]
def SAFE_METHODS : List String := ["GET", "HEAD", "OPTIONS"]

/-- A failure of the store counts as no restriction. -/
def RestrictionGuard.canActivate (method : String) (subject : Nat) : Handler Unit := do
  let restrictionType ← tryCatch (call (.readCurrentRestriction subject)) fun _ => return none
  match restrictionType with
  | none => return ()
  | some type =>
    if type ∈ FULLY_BLOCKED then
      throw (.restricted 403
        "Your account has been suspended. Contact support if you believe this is a mistake." type)
    else if type ∈ WRITE_DENIED ∧ method ∉ SAFE_METHODS then
      throw (.restricted 423
        "Your account is muted. You can read but not post until this is lifted." type)
    else return ()

section Transports
variable (ids : UuidText) (isUuid : Units → Bool)

def ParseUUIDPipe (text : Units) : Handler Unit :=
  if isUuid text then return ()
  else httpError (.badRequest (units "Validation failed (uuid is expected)"))

def MessagesController.sendMessage (caller : Nat) (conversationId : Units) (body : BodyValue) :
    Handler Message := do
  RestrictionGuard.canActivate "POST" caller
  ParseUUIDPipe isUuid conversationId
  let content ← SendMessageDto.parse body
  MessagesService.sendMessage ids isUuid conversationId caller (some content)

def MessagesController.markAsRead (caller : Nat) (messageId : Units) : Handler Message := do
  RestrictionGuard.canActivate "PATCH" caller
  ParseUUIDPipe isUuid messageId
  MessagesService.markAsRead ids isUuid messageId caller

def MessagesController.markAllAsRead (caller : Nat) (conversationId : Units) : Handler Unit := do
  RestrictionGuard.canActivate "PATCH" caller
  ParseUUIDPipe isUuid conversationId
  MessagesService.markAllAsRead conversationId caller

namespace MessagesGateway
variable (client : Socket)

/-- The account of the socket. -/
def authorized : Handler Nat :=
  match client.userId with
  | none => throw (.error "Unauthorized")
  | some userId => return userId

def handleJoinConversation (conversationId : Units) : Handler Unit := do
  let userId ← authorized client
  let _ ← tryCatch (MessagesService.getMessages conversationId userId 1 1)
    fun _ => throw (.error "Conversation not found")
  call (.join client.id conversationId)

def handleLeaveConversation (conversationId : Units) : Handler Unit := do
  let _ ← authorized client
  call (.leave client.id conversationId)

/-- The content as the driver writes it: `none` for `undefined` and `null`. -/
def handleSendMessage (conversationId : Units) (content : Option Units) : Handler Unit := do
  let userId ← authorized client
  let _ ← MessagesService.sendMessage ids isUuid conversationId userId content

def handleMarkAsRead (messageId : Units) : Handler Unit := do
  let userId ← authorized client
  let _ ← MessagesService.markAsRead ids isUuid messageId userId

def handleUserTyping (conversationId : Units) (isTyping : Bool) : Handler Unit := do
  let userId ← authorized client
  call (.broadcast conversationId (.userTyping userId conversationId isTyping) (some client.id))

end MessagesGateway
end Transports
end Messages.Rooms
