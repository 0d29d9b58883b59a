import Hakawi.Effects.Trace
import Hakawi.Messages.Pairs
import Hakawi.Messages.Rooms

/-!
# What reaches a room

Over HTTP a message has the content its schema returned, and its sender passed the
restriction guard. Over a socket the account was checked once, at the handshake: no
event is checked against the schema or the restrictions, and typing not even
against the participants.
-/

namespace Messages.Rooms

open Html Common Store Effects

/-- The content is one that `SendMessageDto` returns. -/
def Sendable (content : Units) : Prop := ∃ body, SendMessageDto.parse body = .ok content

/-- Trimmed, neither empty nor too long. -/
theorem sendable_iff {content : Units} : Sendable content ↔
    trim content = content ∧ 1 ≤ content.length ∧ content.length ≤ MAX_MESSAGE_LENGTH := by
  constructor
  · rintro ⟨body, parsed⟩
    rw [SendMessageDto.parse] at parsed
    split at parsed
    · rename_i accepted
      obtain rfl := Except.ok.inj parsed
      cases body with
      | missing => cases accepted
      | other type => cases accepted
      | text given =>
        simp only [SendMessageDto.issues, List.append_eq_nil_iff, ite_eq_right_iff,
          List.cons_ne_nil, imp_false, Nat.not_lt] at accepted
        exact ⟨trim_trim given, accepted⟩
    · cases parsed
  · rintro ⟨trimmed, filled, short⟩
    refine ⟨.text content, ?_⟩
    have accepted : SendMessageDto.issues (.text content) = [] := by
      rw [SendMessageDto.issues, trimmed, if_neg (Nat.not_lt.mpr filled),
        if_neg (Nat.not_lt.mpr short), List.append_nil]
    rw [SendMessageDto.parse, accepted]
    exact congrArg Except.ok trimmed

instance (content : Units) : Decidable (Sendable content) := decidable_of_iff' _ sendable_iff

/-- Muted or banned. -/
def Barred (restriction : Option String) : Prop :=
  ∃ type ∈ restriction, type ∈ FULLY_BLOCKED ∨ type ∈ WRITE_DENIED

instance (restriction : Option String) : Decidable (Barred restriction) :=
  inferInstanceAs (Decidable (∃ type ∈ restriction, _))

/-- Caused by a participant of the conversation whose room it is, who was neither muted nor
banned. -/
def Delivery.Rightful (delivery : Delivery) : Prop :=
  ∀ participants ∈ delivery.participants,
    Participates participants delivery.event.causer ∧ ¬ Barred delivery.restriction

instance (delivery : Delivery) : Decidable delivery.Rightful :=
  inferInstanceAs (Decidable (∀ participants ∈ delivery.participants, _))

/-- Every message has a content that the schema returns, and whatever was delivered to a room was
delivered rightfully. -/
structure World.Proper (world : World) : Prop where
  sendable : ∀ message ∈ world.messages.rows, Sendable message.content
  rightful : ∀ delivery ∈ world.delivered, delivery.Rightful

instance (world : World) : Decidable world.Proper :=
  decidable_of_iff ((∀ message ∈ world.messages.rows, Sendable message.content) ∧
    ∀ delivery ∈ world.delivered, delivery.Rightful)
    ⟨fun ⟨sendable, rightful⟩ => ⟨sendable, rightful⟩, fun h => ⟨h.sendable, h.rightful⟩⟩

/-- The requests and events of both transports, and what becomes of an account's restriction. -/
inductive Request where
  | createConversation (caller : Nat) (body : CreateConversationInput)
  | postMessage (caller : Nat) (conversationId : Units) (body : BodyValue)
  | patchRead (caller : Nat) (messageId : Units)
  | patchAllRead (caller : Nat) (conversationId : Units)
  /-- A handshake, with the account its token was verified for. -/
  | connect (socket : Nat) (subject : Option Nat)
  | disconnect (socket : Nat)
  | joinConversation (socket : Nat) (conversationId : Units)
  | leaveConversation (socket : Nat) (conversationId : Units)
  | sendMessage (socket : Nat) (conversationId : Units) (content : Option Units)
  | markAsRead (socket : Nat) (messageId : Units)
  | userTyping (socket : Nat) (conversationId : Units) (isTyping : Bool)
  | restrict (userId : Nat) (restriction : Option String)

/-- A request, and what the environment decides at each call. -/
structure Asked where
  request : Request
  choices : Nat → Choice

section System
variable (ids : UuidText) (users : List Nat) (isUuid : Units → Bool)

/-- What is left when a handler has come to its end, whatever it answers. -/
def World.after {α : Type} (world : World) (choices : Nat → Choice) (handler : Handler α) : World :=
  (handler.run.eval (exec ids) choices world).2

/-- An event of a socket that is connected. -/
def World.event (world : World) (socket : Nat) (choices : Nat → Choice)
    (handler : Socket → Handler Unit) : World :=
  match world.socket? socket with
  | none => world
  | some client => world.after ids choices (handler client)

/-- The route that starts a conversation, behind the guard. -/
def World.start (world : World) (caller : Nat) (body : CreateConversationInput)
    (choices : Nat → Choice) : World :=
  match (RestrictionGuard.canActivate "POST" caller).run.eval (exec ids) choices world with
  | (.error _, guarded) => guarded
  | (.ok _, guarded) => { guarded with
    conversations := ((MessagesController.createConversation isUuid body (ids.print caller)).run.eval
      (Messages.exec ids users) (fun n => (choices (n + 1)).now) guarded.conversations).2 }

/-- Verification failed: the socket is disconnected. -/
def World.connect (world : World) (socket : Nat) (subject : Option Nat) : World :=
  match subject with
  | none => { world with sockets := world.sockets.filter fun client => client.id ≠ socket }
  | some userId => { world with
    sockets := ⟨socket, some userId, []⟩ :: world.sockets.filter fun client => client.id ≠ socket }

def step (world : World) (asked : Asked) : World :=
  match asked.request with
  | .createConversation caller body => world.start ids users isUuid caller body asked.choices
  | .postMessage caller conversationId body => world.after ids asked.choices
    (MessagesController.sendMessage ids isUuid caller conversationId body)
  | .patchRead caller messageId => world.after ids asked.choices
    (MessagesController.markAsRead ids isUuid caller messageId)
  | .patchAllRead caller conversationId => world.after ids asked.choices
    (MessagesController.markAllAsRead isUuid caller conversationId)
  | .connect socket subject => world.connect socket subject
  | .disconnect socket => world.connect socket none
  | .joinConversation socket conversationId => world.event ids socket asked.choices
    fun client => MessagesGateway.handleJoinConversation client conversationId
  | .leaveConversation socket conversationId => world.event ids socket asked.choices
    fun client => MessagesGateway.handleLeaveConversation client conversationId
  | .sendMessage socket conversationId content => world.event ids socket asked.choices
    fun client => MessagesGateway.handleSendMessage ids isUuid client conversationId content
  | .markAsRead socket messageId => world.event ids socket asked.choices
    fun client => MessagesGateway.handleMarkAsRead ids isUuid client messageId
  | .userTyping socket conversationId isTyping => world.event ids socket asked.choices
    fun client => MessagesGateway.handleUserTyping client conversationId isTyping
  | .restrict userId restriction =>
    { world with restrictions := Function.update world.restrictions userId restriction }

/-- The account whose socket it is. -/
def World.subject? (world : World) (socket : Nat) : Option Nat :=
  (world.socket? socket).bind Socket.userId

section Going
variable (world : World) (caller : Nat)

/-- The account participates in the conversation that the text names. -/
def World.Speaks (conversationId : Units) : Prop :=
  ∃ conversation ∈ world.conversation? ids conversationId,
    Participates conversation.participants caller

instance (conversationId : Units) : Decidable (world.Speaks ids caller conversationId) :=
  inferInstanceAs (Decidable (∃ conversation ∈ world.conversation? ids conversationId, _))

/-- The text names a message to the account. -/
def World.Hears (messageId : Units) : Prop :=
  ∃ message ∈ world.message? ids messageId, message.senderId ≠ caller ∧
    world.Speaks ids caller (ids.print message.conversationId)

instance (messageId : Units) : Decidable (world.Hears ids caller messageId) :=
  inferInstanceAs (Decidable (∃ message ∈ world.message? ids messageId, _))

end Going

/-- What is asked over a socket would have passed the checks of the other transport, as far as the
service goes on with it; and where the guard of that transport cannot read the restriction, there
is none. -/
def Asked.Sound (world : World) (asked : Asked) : Prop :=
  match asked.request with
  | .postMessage caller conversationId _ => (asked.choices 0).fault ≠ none →
    world.Speaks ids caller conversationId → ¬ Barred (world.restrictions caller)
  | .patchRead caller messageId => (asked.choices 0).fault ≠ none →
    world.Hears ids caller messageId → ¬ Barred (world.restrictions caller)
  | .sendMessage socket conversationId content => ∀ caller ∈ world.subject? socket,
    world.Speaks ids caller conversationId →
      (∀ text ∈ content, Sendable text) ∧ ¬ Barred (world.restrictions caller)
  | .markAsRead socket messageId => ∀ caller ∈ world.subject? socket,
    world.Hears ids caller messageId → ¬ Barred (world.restrictions caller)
  | .userTyping socket conversationId _ => ∀ caller ∈ world.subject? socket,
    ∀ conversation ∈ world.conversation? ids conversationId,
      Participates conversation.participants caller ∧ ¬ Barred (world.restrictions caller)
  | _ => True

instance (world : World) : (asked : Asked) → Decidable (asked.Sound ids world)
  | ⟨.postMessage _ _ _, _⟩ | ⟨.patchRead _ _, _⟩ => inferInstanceAs (Decidable (_ → _ → _))
  | ⟨.sendMessage _ _ _, _⟩ => inferInstanceAs (Decidable (∀ caller ∈ _, _ → _))
  | ⟨.markAsRead _ _, _⟩ => inferInstanceAs (Decidable (∀ caller ∈ _, _ → _))
  | ⟨.userTyping _ _ _, _⟩ => inferInstanceAs (Decidable (∀ caller ∈ _, ∀ conversation ∈ _, _))
  | ⟨.createConversation _ _, _⟩ | ⟨.patchAllRead _ _, _⟩ | ⟨.connect _ _, _⟩ | ⟨.disconnect _, _⟩
  | ⟨.joinConversation _ _, _⟩ | ⟨.leaveConversation _ _, _⟩ | ⟨.restrict _ _, _⟩ => .isTrue trivial

end System

section Worlds
variable {ids : UuidText} {world : World}

theorem conversation?_touch (id : Nat) (now : Int) (text : Units) :
    ((world.touch id now).conversation? ids text).map Conversation.participants =
      (world.conversation? ids text).map Conversation.participants := by
  have kept : ∀ k, ((world.touch id now).conversations.toTable.find? k).map
      Conversation.participants =
        (world.conversations.toTable.find? k).map Conversation.participants := by
    intro k
    rw [World.touch]
    cases modified : world.conversations.modify? id (fun conversation =>
        { conversation with lastMessageAt := some now }) fun _ => rfl with
    | none => rfl
    | some after =>
      simp only [Option.getD_some, Indexed.toTable_of_modify? modified, Table.find?_modify]
      split
      · rw [Option.map_map]
        rfl
      · rfl
  simp only [World.conversation?, Option.map_bind]
  congr 1
  funext k
  exact kept k

/-- The row of a new message is found under its id. -/
theorem find?_insertMessage (conversationId senderId : Nat) (content : Units) (now : Int) :
    (world.insertMessage conversationId senderId content now).messages.find? world.messages.next =
      some (World.newMessage conversationId senderId content now world.messages.next) :=
  (Table.find?_insert _ _ (fun _ => rfl) _).trans (if_pos rfl)

/-- A conversation is found under its printed id. -/
theorem conversation?_print (id : Nat) :
    world.conversation? ids (ids.print id) = world.conversations.toTable.find? id := by
  rw [World.conversation?, ids.parse_print, Option.bind_some]

theorem World.Proper.insert (proper : world.Proper) {content : Units} (sendable : Sendable content)
    (conversationId senderId : Nat) (now : Int) :
    (world.insertMessage conversationId senderId content now).Proper := by
  refine ⟨fun message member => ?_, proper.rightful⟩
  rcases List.mem_append.mp member with old | new
  · exact proper.sendable message old
  · rw [List.mem_singleton.mp new]
    exact sendable

theorem World.Proper.read (proper : world.Proper) (id : Nat) (now : Int) :
    (world.readMessage id now).Proper := by
  refine ⟨fun message member => ?_, proper.rightful⟩
  obtain ⟨old, before, rfl⟩ := List.mem_map.mp member
  split <;> exact proper.sendable old before

theorem World.Proper.readAll (proper : world.Proper) (conversationId userId : Nat) (now : Int) :
    (world.readMessages conversationId userId now).Proper := by
  refine ⟨fun message member => ?_, proper.rightful⟩
  obtain ⟨old, before, rfl⟩ := List.mem_map.mp member
  split <;> exact proper.sendable old before

/-- A delivery by an account that is not barred, to a room of its own conversations if of any. -/
theorem World.Proper.broadcast (proper : world.Proper) {room : Units} {event : RoomEvent}
    (own : ∀ participants ∈ (world.conversation? ids room).map Conversation.participants,
      Participates participants event.causer ∧ ¬ Barred (world.restrictions event.causer))
    (except : Option Nat) : (world.broadcast ids room event except).Proper := by
  refine ⟨proper.sendable, fun delivery member => ?_⟩
  rcases List.mem_append.mp member with old | new
  · exact proper.rightful delivery old
  · rw [List.mem_singleton.mp new]
    exact own

end Worlds

section Calls
variable {ids : UuidText} {isUuid : Units → Bool} {world : World} {caller : Nat}

/-- Every execution, whatever throws. -/
def anyhow (ids : UuidText) : Program.OpSpec Op Op.Result World :=
  Program.execSpec (exec ids) fun _ => True

theorem anyhow_monotone : (anyhow ids).Monotone := Program.execSpec_monotone _ _

/-- A call that throws writes nothing; otherwise it answers as it does. -/
theorem wpE_step {β : Type} {op : Op} {next : op.Answer → Handler β}
    {Q : Except Thrown β → World → Prop} (throws : ∀ thrown, Q (.error thrown) world)
    (goes : ∀ now, match performOp ids now world op with
      | (.ok answer, after) => wpE (anyhow ids) (next answer) Q after
      | (.error thrown, after) => Q (.error thrown) after) :
    wpE (anyhow ids) (call op >>= next) Q world := by
  simp only [call, Effects.perform, wpE_bind, wpE_mk_call, Program.wp_done]
  intro choice _
  cases faulty : choice.fault with
  | some thrown =>
    simp only [exec, faulty]
    exact throws thrown
  | none =>
    have now := goes choice.now
    simp only [exec, faulty]
    generalize performOp ids choice.now world op = performed at now ⊢
    rcases performed with ⟨_ | _, after⟩ <;> exact now

theorem wpE_last {op : Op} {Q : Except Thrown op.Answer → World → Prop}
    (throws : ∀ thrown, Q (.error thrown) world)
    (goes : ∀ now, Q (performOp ids now world op).1 (performOp ids now world op).2) :
    wpE (anyhow ids) (call op) Q world := by
  simp only [call, Effects.perform, wpE_mk_call, Program.wp_done]
  intro choice _
  cases faulty : choice.fault with
  | some thrown =>
    simp only [exec, faulty]
    exact throws thrown
  | none =>
    simp only [exec, faulty]
    exact goes choice.now

/-- The world stays proper, whatever is answered. -/
def Keeps {α : Type} (_ : Except Thrown α) (after : World) : Prop := after.Proper

/-- The handler delivers the message to the room of its conversation. -/
theorem emit_keeps (proper : world.Proper) {announcement : Announcement}
    (handled : wpE (anyhow ids) (announcement.handler ids) Keeps world) :
    wpE (anyhow ids) (EventValidatorService.emit ids isUuid announcement) Keeps world := by
  rw [EventValidatorService.emit, wpE_ite]
  split
  · rw [wpE_tryCatch]
    refine wpE_mono anyhow_monotone (fun r after kept => ?_) handled
    cases r <;> exact kept
  · exact wpE_last (fun _ => proper) fun _ => proper

/-- What an account announces of a message in one of its conversations is delivered rightfully. -/
theorem deliver_keeps (proper : world.Proper) {text : Units} {event : Message → RoomEvent}
    (own : ∀ message ∈ world.message? ids text,
      ∀ participants ∈ (world.conversation? ids (ids.print message.conversationId)).map
        Conversation.participants,
        Participates participants (event message).causer ∧
          ¬ Barred (world.restrictions (event message).causer)) :
    wpE (anyhow ids) (do
      match ← call (.findMessage text) with
      | none => return ()
      | some message => call (.broadcast (ids.print message.conversationId) (event message) none))
      Keeps world := by
  refine wpE_step (fun _ => proper) fun now => ?_
  simp only [performOp, byId]
  cases read : ids.parse text with
  | none => exact proper
  | some id =>
    simp only
    cases found : world.messages.find? id with
    | none => exact proper
    | some message =>
      have named : world.message? ids text = some message := by
        rw [World.message?, read, Option.bind_some, found]
      exact wpE_last (fun _ => proper) fun now => proper.broadcast (own message named) none

/-- A conversation of the account's own is found, or the handler ends. -/
theorem own_keeps {β : Type} (proper : world.Proper) {conversationId : Units}
    {next : Conversation → Handler β}
    (goes : ∀ id conversation, ids.parse conversationId = some id →
      world.conversations.toTable.find? id = some conversation →
      Participates conversation.participants caller →
      wpE (anyhow ids) (next conversation) Keeps world) :
    wpE (anyhow ids) (ownConversation conversationId caller >>= next) Keeps world := by
  rw [ownConversation, wpE_bind]
  refine wpE_step (fun _ => proper) fun now => ?_
  simp only [performOp, byId]
  cases read : ids.parse conversationId with
  | none => exact proper
  | some id =>
    simp only
    cases found : world.conversations.toTable.find? id with
    | none => exact proper
    | some conversation =>
      simp only [wpE_ite]
      split
      · rename_i own
        exact goes id conversation read found own
      · exact proper

theorem speaks_of_find {conversationId : Units} {id : Nat} {conversation : Conversation}
    (read : ids.parse conversationId = some id)
    (found : world.conversations.toTable.find? id = some conversation)
    (own : Participates conversation.participants caller) :
    world.Speaks ids caller conversationId := by
  refine ⟨conversation, ?_, own⟩
  rw [World.conversation?, read, Option.bind_some]
  exact found

/-- A message that its sender's transport lets pass. -/
theorem sendMessage_keeps (proper : world.Proper) {conversationId : Units}
    {content : Option Units} (sound : world.Speaks ids caller conversationId →
      (∀ text ∈ content, Sendable text) ∧ ¬ Barred (world.restrictions caller)) :
    wpE (anyhow ids) (MessagesService.sendMessage ids isUuid conversationId caller content) Keeps
      world := by
  refine own_keeps proper fun id conversation read found own => ?_
  obtain ⟨sendable, free⟩ := sound (speaks_of_find read found own)
  refine wpE_step (fun _ => proper) fun now => ?_
  simp only [performOp, byId, read]
  cases content with
  | none => exact proper
  | some text =>
    have written := proper.insert (sendable text rfl) id caller now
    refine wpE_step (fun _ => written) fun later => ?_
    simp only [performOp, byId, read]
    have touched : ((world.insertMessage id caller text now).touch id later).Proper :=
      ⟨written.sendable, written.rightful⟩
    rw [wpE_bind]
    refine wpE_mono anyhow_monotone (fun r after kept => by cases r <;> exact kept)
      (emit_keeps touched ?_)
    refine deliver_keeps touched fun message named participants known => ?_
    rw [World.message?, ids.parse_print, Option.bind_some] at named
    obtain rfl := Option.some.inj ((find?_insertMessage id caller text now).symm.trans named)
    rw [conversation?_touch, conversation?_print] at known
    obtain ⟨same, found', rfl⟩ := Option.map_eq_some_iff.mp known
    obtain rfl := Option.some.inj (found.symm.trans found')
    exact ⟨own, free⟩

/-- A receipt for a message that the account may hear of. -/
theorem markAsRead_keeps (proper : world.Proper) {messageId : Units}
    (sound : world.Hears ids caller messageId → ¬ Barred (world.restrictions caller)) :
    wpE (anyhow ids) (MessagesService.markAsRead ids isUuid messageId caller) Keeps world := by
  refine wpE_step (fun _ => proper) fun now => ?_
  simp only [performOp, byId]
  cases read : ids.parse messageId with
  | none => exact proper
  | some id =>
    simp only
    cases found : world.messages.find? id with
    | none => exact proper
    | some message =>
      simp only [wpE_ite]
      split
      · exact proper
      · rename_i other
        refine wpE_step (fun _ => proper) fun _ => ?_
        simp only [performOp, byId, ids.parse_print]
        cases about : world.conversations.toTable.find? message.conversationId with
        | none => exact proper
        | some conversation =>
          simp only [wpE_ite]
          split
          · rename_i own
            have hears : world.Hears ids caller messageId := by
              refine ⟨message, ?_, other,
                speaks_of_find (ids.parse_print _) about own⟩
              rw [World.message?, read, Option.bind_some]
              exact found
            have free := sound hears
            refine wpE_step (fun _ => proper) fun later => ?_
            simp only [performOp, byId, read]
            have marked := proper.read id later
            cases updated : (world.readMessage id later).messages.find? id with
            | none => exact marked
            | some row =>
              rw [wpE_bind]
              refine wpE_mono anyhow_monotone (fun r after kept => by cases r <;> exact kept)
                (emit_keeps marked ?_)
              refine deliver_keeps marked fun again named participants known => ?_
              have same : again = { message with isRead := true, readAt := some later } := by
                rw [World.message?, read, Option.bind_some] at named
                rw [World.readMessage, Table.find?_modify_self, found] at named
                exact (Option.some.inj named).symm
              subst same
              rw [conversation?_print] at known
              obtain ⟨row, about', rfl⟩ := Option.map_eq_some_iff.mp known
              obtain rfl := Option.some.inj (about.symm.trans about')
              exact ⟨own, free⟩
          · exact proper

theorem markAllAsRead_keeps (proper : world.Proper) {conversationId : Units} :
    wpE (anyhow ids) (MessagesService.markAllAsRead conversationId caller) Keeps world := by
  refine own_keeps proper fun id conversation read _ _ => ?_
  refine wpE_last (fun _ => proper) fun now => ?_
  simp only [performOp, byId, read]
  exact proper.readAll id caller now

theorem getMessages_keeps (proper : world.Proper) {conversationId : Units} {page limit : Nat} :
    wpE (anyhow ids) (MessagesService.getMessages conversationId caller page limit) Keeps world := by
  refine own_keeps proper fun id conversation read _ _ => ?_
  refine wpE_last (fun _ => proper) fun now => ?_
  simp only [performOp, byId, read]
  exact proper

end Calls

section Guarding
variable {ids : UuidText} {world : World} {caller : Nat} {method : String} {choices : Nat → Choice}

variable (ids world caller choices) in
/-- The guard writes nothing, and lets a request pass that could have changed something only where
it could not read the restriction or found none. -/
theorem canActivate_passed (changing : method ∉ SAFE_METHODS) :
    (((RestrictionGuard.canActivate method caller).run.eval (exec ids) choices world).1 = .ok () →
      (choices 0).fault = none → ¬ Barred (world.restrictions caller)) ∧
    ((RestrictionGuard.canActivate method caller).run.eval (exec ids) choices world).2 = world := by
  have along : wpE (Program.along (exec ids) choices) (RestrictionGuard.canActivate method caller)
      (fun r x => (r = .ok () → (choices 0).fault = none → ¬ Barred (world.restrictions caller)) ∧
        x.1 = world) (world, 0) := by
    simp only [RestrictionGuard.canActivate, call, Effects.perform, wpE_bind, wpE_tryCatch,
      wpE_mk_call, Program.wp_done, Program.along]
    cases faulty : (choices 0).fault with
    | some thrown =>
      simp only [exec, faulty]
      exact ⟨nofun, rfl⟩
    | none =>
      simp only [exec, faulty, performOp]
      cases held : world.restrictions caller with
      | none => exact ⟨fun _ _ ⟨_, found, _⟩ => (nomatch found), rfl⟩
      | some type =>
        simp only [wpE_ite, wpE_throw]
        split
        · exact ⟨nofun, trivial⟩
        · rename_i free
          split
          · exact ⟨nofun, trivial⟩
          · rename_i heard
            refine ⟨fun _ _ => ?_, rfl⟩
            rintro ⟨_, named, blocked | denied⟩
            · exact free (Option.some.inj named ▸ blocked)
            · exact heard ⟨Option.some.inj named ▸ denied, changing⟩
  obtain ⟨_, passed, kept⟩ := Program.eval_of_along along
  simp only [Nat.zero_add] at passed kept
  exact ⟨passed, kept⟩

/-- What the service does behind the guard. -/
theorem guarded_keeps {α : Type} {service : Handler α} (proper : world.Proper)
    (changing : method ∉ SAFE_METHODS)
    (goes : ((choices 0).fault = none → ¬ Barred (world.restrictions caller)) →
      wpE (anyhow ids) service Keeps world) :
    (world.after ids choices (RestrictionGuard.canActivate method caller >>= fun _ =>
      service)).Proper := by
  obtain ⟨passed, kept⟩ := canActivate_passed ids world caller choices changing
  change (((RestrictionGuard.canActivate method caller).run >>=
    ExceptT.bindCont fun _ => service).eval (exec ids) choices world).2.Proper
  rw [Program.eval_bind, kept]
  cases result : ((RestrictionGuard.canActivate method caller).run.eval (exec ids) choices world).1 with
  | error _ => exact proper
  | ok _ => exact Program.eval_of_wp (goes (passed result)) fun _ => trivial

theorem parse_keeps {α : Type} {isUuid : Units → Bool} {text : Units} {service : Handler α}
    (proper : world.Proper) (goes : wpE (anyhow ids) service Keeps world) :
    wpE (anyhow ids) (ParseUUIDPipe isUuid text >>= fun _ => service) Keeps world := by
  rw [ParseUUIDPipe, wpE_bind, wpE_ite]
  split
  · exact goes
  · exact proper

end Guarding

section Runs
variable {ids : UuidText} {users : List Nat} {isUuid : Units → Bool} {world : World}

/-- Starting a conversation touches no message and no room. -/
theorem start_proper (proper : world.Proper) (caller : Nat) (body : CreateConversationInput)
    (choices : Nat → Choice) : (world.start ids users isUuid caller body choices).Proper := by
  have changing : "POST" ∉ SAFE_METHODS := by decide
  have kept := (canActivate_passed ids world caller choices changing).2
  rw [World.start]
  split <;> rename_i guarded evaluated <;> rw [evaluated] at kept <;> obtain rfl := kept
  · exact proper
  · exact ⟨proper.sendable, proper.rightful⟩

/-- A handler goes on for the account of its socket, or ends. -/
theorem authorized_keeps {β : Type} (proper : world.Proper) {client : Socket}
    {next : Nat → Handler β}
    (goes : ∀ caller ∈ client.userId, wpE (anyhow ids) (next caller) Keeps world) :
    wpE (anyhow ids) (MessagesGateway.authorized client >>= next) Keeps world := by
  rw [MessagesGateway.authorized, wpE_bind]
  cases subject : client.userId with
  | none => exact proper
  | some caller => exact goes caller subject

theorem event_proper (proper : world.Proper) {socket : Nat} {choices : Nat → Choice}
    {handler : Socket → Handler Unit}
    (goes : ∀ client, (∀ caller ∈ client.userId, caller ∈ world.subject? socket) →
      wpE (anyhow ids) (handler client) Keeps world) :
    (world.event ids socket choices handler).Proper := by
  rw [World.event]
  cases connected : world.socket? socket with
  | none => exact proper
  | some client =>
    have kept : wpE (anyhow ids) (handler client) Keeps world := goes client fun caller subject => by
      rw [World.subject?, connected]
      exact subject
    exact Program.eval_of_wp kept fun _ => trivial

/-- What is asked soundly keeps the world proper, over whichever transport it came. -/
theorem step_proper (proper : world.Proper) {asked : Asked} (sound : asked.Sound ids world) :
    (step ids users isUuid world asked).Proper := by
  obtain ⟨request, choices⟩ := asked
  cases request with
  | createConversation caller body => exact start_proper proper caller body choices
  | postMessage caller conversationId body =>
    refine guarded_keeps proper (by decide) fun passed => parse_keeps proper ?_
    refine wpE_liftM_bind _ ?_ fun content parsed => ?_
    · exact fun _ _ => proper
    refine sendMessage_keeps proper fun speaks => ⟨fun text given => ?_, ?_⟩
    · obtain rfl := Option.some.inj given
      exact ⟨body, parsed⟩
    · by_cases faulty : (choices 0).fault = none
      · exact passed faulty
      · exact sound faulty speaks
  | patchRead caller messageId =>
    refine guarded_keeps proper (by decide) fun passed => parse_keeps proper ?_
    refine markAsRead_keeps proper fun hears => ?_
    by_cases faulty : (choices 0).fault = none
    · exact passed faulty
    · exact sound faulty hears
  | patchAllRead caller conversationId =>
    exact guarded_keeps proper (by decide) fun _ => parse_keeps proper (markAllAsRead_keeps proper)
  | connect socket subject =>
    cases subject <;> exact ⟨proper.sendable, proper.rightful⟩
  | disconnect socket => exact ⟨proper.sendable, proper.rightful⟩
  | joinConversation socket conversationId =>
    refine event_proper proper fun client _ => authorized_keeps proper fun caller _ => ?_
    rw [wpE_bind, wpE_tryCatch]
    refine wpE_mono anyhow_monotone (fun r after kept => ?_)
      (getMessages_keeps proper)
    cases r with
    | error _ => exact kept
    | ok _ => exact wpE_last (fun _ => kept) fun _ => ⟨kept.sendable, kept.rightful⟩
  | leaveConversation socket conversationId =>
    refine event_proper proper fun client _ => authorized_keeps proper fun caller _ => ?_
    exact wpE_last (fun _ => proper) fun _ => ⟨proper.sendable, proper.rightful⟩
  | sendMessage socket conversationId content =>
    refine event_proper proper fun client own => authorized_keeps proper fun caller subject => ?_
    rw [wpE_bind]
    refine wpE_mono anyhow_monotone (fun r after kept => by cases r <;> exact kept)
      (sendMessage_keeps proper (sound caller (own caller subject)))
  | markAsRead socket messageId =>
    refine event_proper proper fun client own => authorized_keeps proper fun caller subject => ?_
    rw [wpE_bind]
    refine wpE_mono anyhow_monotone (fun r after kept => by cases r <;> exact kept)
      (markAsRead_keeps proper (sound caller (own caller subject)))
  | userTyping socket conversationId isTyping =>
    refine event_proper proper fun client own => authorized_keeps proper fun caller subject => ?_
    refine wpE_last (fun _ => proper) fun _ => proper.broadcast (fun participants known => ?_) _
    obtain ⟨conversation, found, rfl⟩ := Option.map_eq_some_iff.mp known
    exact sound caller (own caller subject) conversation found
  | restrict userId restriction => exact ⟨proper.sendable, proper.rightful⟩

/-- Messages keep to the schema and rooms to their participants, as long as what comes over the
sockets would have passed the checks of the other transport. -/
theorem transports_proper (ids : UuidText) (users : List Nat) (isUuid : Units → Bool)
    {start : World} (proper : start.Proper) {asked : List Asked}
    (sound : Trace.Meets (step ids users isUuid) (fun world asked => asked.Sound ids world) start
      asked) :
    (Trace.run (step ids users isUuid) start asked).Proper := by
  have preserves : ∀ world asked, World.Proper world → asked.Sound ids world →
      (step ids users isUuid world asked).Proper := fun _ _ proper sound =>
    step_proper proper sound
  exact Trace.run_invariant preserves proper sound

end Runs

section Palace

def JESTER : Nat := 12

def World.empty : World := ⟨Indexed.empty, Table.empty, fun _ => none, [], []⟩

/-- No call fails. -/
def quietly (requests : List Request) : List Asked :=
  requests.map fun request => ⟨request, fun _ => .quiet⟩

/-- The sultan starts a conversation with his vizier, and both join its room. -/
def audience : List Request :=
  [.createConversation SULTAN { recipientId := some (printed VIZIER) }, .connect 0 (some SULTAN),
    .connect 1 (some VIZIER), .joinConversation 0 (printed 0), .joinConversation 1 (printed 0)]

def palace (requests : List Request) : World :=
  Trace.run (step .hexadecimal [SULTAN, VIZIER] isUuidText) .empty (quietly requests)

/-- A message over each transport, and its receipt. -/
theorem transports_proper_audience :
    let requests := audience ++ [.sendMessage 0 (printed 0) (some (units "Hear me.")),
      .postMessage VIZIER (printed 0) (.text (units " I hear. ")), .markAsRead 1 (printed 0)]
    (palace requests).Proper ∧ (palace requests).delivered.length = 3 := by
  have sound : Trace.Meets (step .hexadecimal [SULTAN, VIZIER] isUuidText)
      (fun world asked => asked.Sound .hexadecimal world) .empty
      (quietly (audience ++ [.sendMessage 0 (printed 0) (some (units "Hear me.")),
        .postMessage VIZIER (printed 0) (.text (units " I hear. ")),
        .markAsRead 1 (printed 0)])) := by decide
  have proper : World.empty.Proper := ⟨List.forall_mem_nil _, List.forall_mem_nil _⟩
  exact ⟨transports_proper .hexadecimal [SULTAN, VIZIER] isUuidText proper sound,
    by decide⟩

/-- Over a socket nothing may be said, a muted account is heard, and anyone types in any room. -/
theorem sockets_improper :
    ¬ (palace (audience ++ [.sendMessage 0 (printed 0) (some [])])).Proper ∧
    ¬ (palace (audience ++ [.restrict SULTAN (some "mute"),
      .sendMessage 0 (printed 0) (some (units "Hear me."))])).Proper ∧
    ¬ (palace (audience ++ [.connect 2 (some JESTER), .userTyping 2 (printed 0) true])).Proper := by
  decide

end Palace
end Messages.Rooms
