import Hakawi.Common.ValkeyCalls
import Hakawi.Events.Schemas

/-!
# Dead letters

An event whose payload its schema does not accept is parked as JSON for seven days. A replay
reads it, validates it again, delivers it and deletes it, each a step of its own.
-/

namespace Events
open Common Effects

structure Event where
  name : String
  payload : Value

inductive Call where
  /-- `new Date()` -/
  | now
  | createId
  | valkey (command : Command String)
  /-- `EventEmitter2.emit` -/
  | deliver (event : Event)

def Call.Result : Call → Type
  | .now => Int
  | .createId => String
  | .valkey command => Except Failure command.Answer
  | .deliver _ => Unit

abbrev Method (α : Type) : Type := Fallible Call Call.Result Failure α

structure World where
  /-- In milliseconds. -/
  clock : Int
  store : Valkey String
  /-- What the handlers have been given, in order. -/
  delivered : List Event

structure Choice where
  /-- Milliseconds since the last call. -/
  elapsed : Nat := 0
  outcome : Outcome := .performed
  id : String := ""
  deriving DecidableEq

def World.exec (choice : Choice) (world : World) (call : Call) : call.Result × World :=
  let time : Int := world.clock + choice.elapsed
  match call with
  | .now => (time, { world with clock := time })
  | .createId => (choice.id, { world with clock := time })
  | .valkey command =>
    let (answer, store) := ValkeyWorld.exec ⟨choice.elapsed, choice.outcome⟩
      ⟨world.clock, world.store⟩ (.valkey command)
    (answer, { world with clock := time, store := store.store })
  | .deliver event => ((), { world with clock := time, delivered := world.delivered ++ [event] })

def now : Method Int := ExceptT.mk (.call .now fun time => .done (.ok time))

def createId : Method String := ExceptT.mk (.call .createId fun id => .done (.ok id))

def valkey (command : Command String) : Method command.Answer :=
  ExceptT.mk (.call (.valkey command) .done)

def deliver (event : Event) : Method Unit :=
  ExceptT.mk (.call (.deliver event) fun _ => .done (.ok ()))

structure DLQEvent where
  id : String
  eventName : String
  payload : Value
  error : String
  timestamp : Option Int
  retryCount : Rat

def DLQ_PREFIX : String := "dlq:"
def DLQ_INDEX_KEY : String := "dlq:index"
def DLQ_TTL_SECONDS : Int := 7 * 24 * 60 * 60

def dlqKey (id : String) : String := DLQ_PREFIX ++ id

namespace DLQEvent
variable (texts : Texts)

def toValue (event : DLQEvent) : Value :=
  .obj [("eventName", .str event.eventName), ("payload", event.payload),
    ("error", .str event.error), ("timestamp", .date event.timestamp),
    ("retryCount", .num event.retryCount), ("id", .str event.id)]

/-- `JSON.stringify(event)` -/
def stringify (event : DLQEvent) : Text :=
  .json ((event.toValue.toJson texts.toISOString).getD .null)

/-- `JSON.parse(text) as DLQEvent`, the timestamp made a date again. Only `add` and `retry` write
what is read here; a text of any other form counts as one that is not read. -/
def parse (text : Text) : Option DLQEvent := do
  let .obj fields ← text.parseJson | none
  let .str id ← fields.lookup "id" | none
  let .str eventName ← fields.lookup "eventName" | none
  let .str error ← fields.lookup "error" | none
  let .num retryCount ← fields.lookup "retryCount" | none
  let timestamp ← fields.lookup "timestamp"
  return { id, eventName, error, retryCount
           payload := (fields.lookup "payload").elim .undefined Value.ofJson
           timestamp := newDate texts (Value.ofJson timestamp) }

end DLQEvent

def notReadable : Failure := .error "Unexpected token in JSON"

/-- What counts as a value: an empty text does not. -/
def truthy (value : Option Text) : Option Text := value.filter fun
  | .other text => text ≠ ""
  | _ => true

namespace DLQService
variable (texts : Texts)

def add (eventName : String) (payload : Value) (error : String) (timestamp : Int) :
    Method String := do
  let id ← createId
  let event : DLQEvent := { id, eventName, payload, error, timestamp, retryCount := 0 }
  valkey (.set (dlqKey id) (event.stringify texts) (some DLQ_TTL_SECONDS))
  valkey (.sadd DLQ_INDEX_KEY id)
  return id

def get (id : String) : Method (Option DLQEvent) := do
  match truthy (← valkey (.get (dlqKey id))) with
  | none => return none
  | some text =>
    match DLQEvent.parse texts text with
    | none => throw notReadable
    | some event => return some event

/-- Reads as `get` does. -/
def retry (id : String) : Method Unit := do
  match ← get texts id with
  | none => return ()
  | some event =>
    let event := { event with retryCount := event.retryCount + 1 }
    valkey (.set (dlqKey id) (event.stringify texts) (some DLQ_TTL_SECONDS))
    valkey (.sadd DLQ_INDEX_KEY id)

def delete (id : String) : Method Unit := do
  valkey (.del (dlqKey id))
  valkey (.srem DLQ_INDEX_KEY id)

end DLQService

structure Replayed where
  replayed : Bool
  reason : String
  deriving DecidableEq

namespace EventValidatorService
variable (texts : Texts)

def emit (eventName : String) (payload : Value) : Method Unit := do
  match validateEvent texts eventName payload with
  | .ok _ => deliver ⟨eventName, payload⟩
  | .error errorMessage =>
    let timestamp ← now
    let _ ← DLQService.add texts eventName payload errorMessage timestamp

def replayDeadLettered (eventId : String) : Method Replayed := do
  match ← DLQService.get texts eventId with
  | none => return ⟨false, "not-found"⟩
  | some parked =>
    match validateEvent texts parked.eventName parked.payload with
    | .error reason =>
      DLQService.retry texts eventId
      return ⟨false, reason⟩
    | .ok _ =>
      deliver ⟨parked.eventName, parked.payload⟩
      DLQService.delete eventId
      return ⟨true, "delivered"⟩

end EventValidatorService

section Letters
variable (texts : Texts)

/-- What is to be delivered. -/
def DLQEvent.event (event : DLQEvent) : Event := ⟨event.eventName, event.payload⟩

/-- What a replay reads and delivers. -/
def DLQEvent.letter (event : DLQEvent) : Event :=
  ⟨event.eventName, event.payload.throughJson texts.toISOString⟩

theorem throughJson_throughJson (payload : Value) (toISOString : Int → String) :
    (payload.throughJson toISOString).throughJson toISOString = payload.throughJson toISOString := by
  rw [Value.throughJson_eq_self_iff, Value.throughJson]
  cases payload.toJson toISOString with
  | none => exact Or.inr rfl
  | some json => exact Or.inl (Value.isPlain_ofJson json)

/-- What was written is read back, the payload through JSON. -/
theorem DLQEvent.parse_stringify (event : DLQEvent) : ∃ parsed,
    DLQEvent.parse texts (event.stringify texts) = some parsed ∧
      parsed.event = event.letter texts ∧ parsed.letter texts = event.letter texts := by
  have written : ∃ timestamp, DLQEvent.parse texts (event.stringify texts) =
      some { event with
        payload := event.payload.throughJson texts.toISOString
        timestamp := timestamp } := by
    obtain ⟨id, eventName, payload, error, timestamp, retryCount⟩ := event
    cases hpayload : payload.toJson texts.toISOString <;> cases timestamp <;>
      simp [DLQEvent.parse, stringify, toValue, Value.toJson, Value.fieldsToJson,
        Text.parseJson, hpayload, List.lookup_cons, Value.throughJson]
  obtain ⟨timestamp, written⟩ := written
  refine ⟨_, written, rfl, ?_⟩
  simp only [letter, throughJson_throughJson]

end Letters
end Events
