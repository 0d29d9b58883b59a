import Hakawi.Common.Valkey
import Hakawi.Effects.Trace
import Hakawi.Moderation.Reports

/-!
# Moderation actions and account restrictions

An action on a report is recorded for good; a ban or a mute is also written down
as a restriction of the account with the time it ends. What is enforced is neither
of these rows but one key of the cache, which the handler of the announcement sets
with the restriction's own time to live. Whoever asks for a ban asks that key.
-/

namespace Moderation.Restrictions

open Common Store Effects

inductive Action where
  | warn
  | mute
  | ban
  | contentRemoval
  | noAction
  deriving DecidableEq

inductive RestrictionType where
  | ban
  | mute
  | warning
  deriving DecidableEq

def RestrictionType.text : RestrictionType → String
  | ban => "ban"
  | mute => "mute"
  | warning => "warning"

/-- Two of the actions restrict an account. -/
def RESTRICTION_TYPE_BY_ACTION : Action → Option RestrictionType
  | .ban => some .ban
  | .mute => some .mute
  | _ => none

def restrictionTypeForAction (action : Action) : RestrictionType :=
  (RESTRICTION_TYPE_BY_ACTION action).getD .warning

def BAN_TTL_SECONDS : Int := 24 * 60 * 60

def OTHER_RESTRICTION_TTL_SECONDS : Int := 30 * 24 * 60 * 60

def defaultTtlSeconds : Action → Int
  | .ban => BAN_TTL_SECONDS
  | _ => OTHER_RESTRICTION_TTL_SECONDS

def restrictionTtlSeconds (action : Action) (durationMinutes : Option Int) : Int :=
  match durationMinutes with
  | some minutes => if 0 < minutes then minutes * 60 else defaultTtlSeconds action
  | none => defaultTtlSeconds action

theorem restrictionTtlSeconds_pos (action : Action) (durationMinutes : Option Int) :
    0 < restrictionTtlSeconds action durationMinutes := by
  have default : 0 < defaultTtlSeconds action := by cases action <;> decide
  cases durationMinutes with
  | none => exact default
  | some minutes =>
    simp only [restrictionTtlSeconds]
    split
    · omega
    · exact default

/-- A parsed body: a duration, where there is one, is positive. -/
structure ModerationActionDto where
  action : Action
  reason : String
  durationMinutes : Option { minutes : Int // 0 < minutes }
  targetUserId : Option String
  deriving DecidableEq

def ModerationActionDto.minutes (input : ModerationActionDto) : Option Int :=
  input.durationMinutes.map Subtype.val

structure ModerationAction where
  id : Nat
  reportId : Nat
  adminId : String
  targetUserId : Option String
  action : Action
  reason : String
  durationMinutes : Option Int
  deriving DecidableEq

structure UserRestriction where
  userId : String
  type : RestrictionType
  reason : String
  expiresAt : Int
  createdBy : String
  deriving DecidableEq

inductive Event where
  | actionTaken (actionId reportId : Nat) (adminId targetUserId : String) (action : Action)
      (reason : String) (durationMinutes : Option Int)
  | contentRemoved (reportId : Nat) (targetType : TargetType) (targetId adminId reason : String)
  deriving DecidableEq

structure World where
  clock : Int
  users : List String
  reports : Reports
  actions : Table ModerationAction ModerationAction.id
  restrictions : List UserRestriction
  /-- announced, not yet handled -/
  pending : List Event
  cache : Valkey String

inductive Call where
  | now
  | findReport (id : Nat)
  | insertModerationAction (reportId : Nat) (adminId : String) (input : ModerationActionDto)
  | insertUserRestriction (row : UserRestriction)
  | emit (event : Event)
  | valkey (command : Command String)

abbrev Call.Answer : Call → Type
  | .now => Int
  | .findReport _ => Option Report
  | .insertModerationAction _ _ _ => Except Failure ModerationAction
  | .insertUserRestriction _ | .emit _ => Unit
  | .valkey command => Except Failure command.Answer

def newAction (reportId : Nat) (adminId : String) (input : ModerationActionDto) (id : Nat) :
    ModerationAction :=
  { id, reportId, adminId, targetUserId := input.targetUserId, action := input.action
    reason := input.reason, durationMinutes := input.minutes }

@[simp] theorem newAction_id (reportId : Nat) (adminId : String) (input : ModerationActionDto)
    (id : Nat) : (newAction reportId adminId input id).id = id := rfl

/-- The largest `integer` of the database. -/
def INTEGER_MAX : Int := 2147483647

/-- What the columns of the row refuse. -/
def checkAction (world : World) (adminId : String) (input : ModerationActionDto) :
    Except Failure Unit :=
  if input.minutes.any fun minutes => INTEGER_MAX < minutes then
    .error (.error "value is out of range for type integer")
  else if adminId ∉ world.users then
    .error (.error ("insert or update on table \"moderation_actions\" violates foreign key " ++
      "constraint \"moderation_actions_admin_id_fkey\""))
  else if ¬ input.targetUserId.all (· ∈ world.users) then
    .error (.error ("insert or update on table \"moderation_actions\" violates foreign key " ++
      "constraint \"moderation_actions_target_user_id_fkey\""))
  else .ok ()

def World.perform (world : World) : (call : Call) → call.Answer × World
  | .now => (world.clock, world)
  | .findReport id => (world.reports.find? id, world)
  | .insertModerationAction reportId adminId input =>
    match checkAction world adminId input with
    | .error e => (.error e, world)
    | .ok _ => (.ok (newAction reportId adminId input world.actions.next), { world with
        actions := world.actions.insert (newAction reportId adminId input)
          (newAction_id reportId adminId input) })
  | .insertUserRestriction row => ((), { world with restrictions := world.restrictions ++ [row] })
  | .emit event => ((), { world with pending := world.pending ++ [event] })
  | .valkey command =>
    let performed := world.cache.exec world.clock command
    (performed.1, { world with cache := performed.2 })

/-- Some time passes before the call. -/
def exec (elapsed : Nat) (world : World) (call : Call) : call.Answer × World :=
  World.perform { world with clock := world.clock + elapsed } call

abbrev Handler (α : Type) : Type := Fallible Call Call.Answer Failure α

@[simp] def call (op : Call) : Handler op.Answer :=
  ExceptT.mk (.call op fun answer => .done (.ok answer))

def orNotFound (found : Option Report) : Except Failure Report :=
  match found with
  | some report => .ok report
  | none => .error (.notFound "Report not found")

def restrictsTheAccount (action : Action) : Bool := action = .ban ∨ action = .mute

namespace ModerationService

/-- A restriction is written down for an account, when the action is one or has a duration. -/
def restrict (adminId : String) (input : ModerationActionDto) : Handler Unit :=
  match input.targetUserId with
  | some userId =>
    if input.minutes.isSome ∨ restrictsTheAccount input.action then do
      let ttlSeconds := restrictionTtlSeconds input.action input.minutes
      let now ← call .now
      call (.insertUserRestriction
        { userId, type := restrictionTypeForAction input.action, reason := input.reason
          expiresAt := now + ttlSeconds * 1000, createdBy := adminId })
    else return
  | none => return

def CONTENT_BEARING_TARGET_TYPES : List TargetType := [.story, .comment]

def requestContentRemoval (report : Report) (adminId reason : String) (action : Action) :
    Handler Unit :=
  if action = .contentRemoval ∧ report.targetType ∈ CONTENT_BEARING_TARGET_TYPES then
    call (.emit (.contentRemoved report.id report.targetType report.targetId adminId reason))
  else return

def takeAction (reportId : Nat) (adminId : String) (input : ModerationActionDto) :
    Handler ModerationAction := do
  let report ← orNotFound (← call (.findReport reportId))
  let action ← (← call (.insertModerationAction reportId adminId input)
    : Except Failure ModerationAction)
  restrict adminId input
  call (.emit (.actionTaken action.id reportId adminId (input.targetUserId.getD "") input.action
    input.reason input.minutes))
  requestContentRemoval report adminId input.reason input.action
  return action

end ModerationService

def restrictionCacheKey (userId : String) : String := s!"restriction:{userId}"

/-- The handler of an announced action; the details it keeps beside the key are read by nobody. -/
def handleModerationActionTaken (targetUserId : String) (action : Action)
    (durationMinutes : Option Int) : Handler Unit :=
  match RESTRICTION_TYPE_BY_ACTION action with
  | none => return
  | some storedType => do
    let ttlSeconds := restrictionTtlSeconds action durationMinutes
    (← call (.valkey (.set (restrictionCacheKey targetUserId) (.other storedType.text)
      (some ttlSeconds))) : Except Failure Unit)

def Event.handler : Event → Handler Unit
  | .actionTaken _ _ _ targetUserId action _ durationMinutes =>
    handleModerationActionTaken targetUserId action durationMinutes
  | .contentRemoved _ _ _ _ _ => return

namespace AccountRestrictionService

def readCurrentRestriction (userId : String) : Handler (Option Text) := do
  (← call (.valkey (.get (restrictionCacheKey userId))) : Except Failure (Option Text))

/-- `=== 'ban'` -/
def isBan : Option Text → Bool
  | some (.other text) => text = RestrictionType.ban.text
  | _ => false

/-- When the store does not answer, nobody is banned. -/
def hasActiveBan (userId : String) : Handler Bool :=
  tryCatch (do return isBan (← readCurrentRestriction userId)) fun _ => pure false

end AccountRestrictionService

/-- One call of `takeAction`, with the time before each statement, of its own and of its
handlers. -/
structure Operation where
  reportId : Nat
  adminId : String
  input : ModerationActionDto
  delays : Nat → Nat
  handlerDelay : Nat

namespace World

def take (world : World) (op : Operation) : World :=
  ((ModerationService.takeAction op.reportId op.adminId op.input).run.eval exec op.delays world).2

def handle (delay : Nat) (world : World) (event : Event) : World :=
  (event.handler.run.eval exec (fun _ => delay) world).2

/-- The action is taken, and the handlers of what it announced run to their end. -/
def step (world : World) (op : Operation) : World :=
  let taken := world.take op
  taken.pending.foldl (handle op.handlerDelay) { taken with pending := [] }

/-- What `hasActiveBan` answers at a time. -/
def asked (world : World) (userId : String) (time : Int) : Except Failure Bool :=
  ((AccountRestrictionService.hasActiveBan userId).run.eval exec (fun _ => 0)
    { world with clock := time }).1

end World
end Moderation.Restrictions
