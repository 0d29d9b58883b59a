import Hakawi.Common.ValkeyCalls
import Hakawi.Store.Indexed

/-!
# The badges service

A badge is a row that is made when its rule is first met. That a user has it is another row, and
the user is told once the row is there.
-/

namespace Badges
open Html Common Store Effects

inductive BadgeTriggerEvent where
  | winnerSelected
  | contestCompleted
  | storyPublished
  | userFollowed
  | moderationActionTaken
  deriving DecidableEq

inductive BadgeComparator where
  | gte
  | gt
  | eq
  deriving DecidableEq

inductive BadgeMetric where
  | contestWins
  | publishedStories
  | followerCount
  | moderationActions
  | storyViews
  | storyReactions
  deriving DecidableEq

structure BadgeRule where
  badgeKey : String
  name : String
  description : String
  icon : String
  trigger : BadgeTriggerEvent
  metric : BadgeMetric
  comparator : BadgeComparator
  threshold : Nat
  deriving DecidableEq

def BADGE_RULES : List BadgeRule := [
  ⟨"contest-champion", "Contest Champion", "Won a writing contest", "trophy",
    .winnerSelected, .contestWins, .gte, 1⟩,
  ⟨"contest-legend", "Contest Legend", "Won three writing contests", "crown",
    .winnerSelected, .contestWins, .gte, 3⟩,
  ⟨"first-publication", "First Publication", "Published a first story", "feather",
    .storyPublished, .publishedStories, .gte, 1⟩,
  ⟨"prolific-author", "Prolific Author", "Published five stories", "books",
    .storyPublished, .publishedStories, .gte, 5⟩,
  ⟨"rising-author", "Rising Author", "Gained ten followers", "users",
    .userFollowed, .followerCount, .gte, 10⟩,
  ⟨"community-pillar", "Community Pillar", "Gained one hundred followers", "star",
    .userFollowed, .followerCount, .gte, 100⟩,
  ⟨"guardian", "Guardian", "Took a first moderation action", "shield",
    .moderationActionTaken, .moderationActions, .gte, 1⟩,
  ⟨"steward", "Steward", "Took ten moderation actions", "shield-check",
    .moderationActionTaken, .moderationActions, .gte, 10⟩]

def meetsThreshold (value : Nat) (rule : BadgeRule) : Bool :=
  match rule.comparator with
  | .gte => value ≥ rule.threshold
  | .gt => value > rule.threshold
  | .eq => value = rule.threshold

def rulesForTrigger (trigger : BadgeTriggerEvent) : List BadgeRule :=
  BADGE_RULES.filter (·.trigger = trigger)

structure NewBadge where
  name : String
  description : Option String
  icon : Option String
  criteria : Option String
  deriving DecidableEq

structure Badge extends NewBadge where
  id : Nat
  createdAt : Int
  deriving DecidableEq

structure UserBadge where
  id : Nat
  userId : String
  badgeId : Nat
  awardedAt : Int
  deriving DecidableEq

/-- `user_badges_unique_idx` -/
def UserBadge.pair (award : UserBadge) : String × Nat := (award.userId, award.badgeId)

structure AwardedBadge where
  id : Nat
  badgeId : Nat
  badgeKey : String
  name : String
  description : Option String
  icon : Option String
  awardedAt : Int
  deriving DecidableEq

/-- The name stands for the key, too. -/
def mapAwarded (row : UserBadge) (badge : Badge) : AwardedBadge where
  id := row.id
  badgeId := row.badgeId
  badgeKey := badge.name
  name := badge.name
  description := badge.description
  icon := badge.icon
  awardedAt := row.awardedAt

structure Notification where
  userId : String
  type : String
  title : String
  message : String
  data : String
  deriving DecidableEq

inductive Call where
  /-- The count of a metric. -/
  | measure (userId : String) (metric : BadgeMetric)
  | findBadge (name : String)
  | insertBadge (data : NewBadge)
  /-- The id of the award. -/
  | findAward (userId : String) (badgeId : Nat)
  | insertAward (userId : String) (badgeId : Nat)
  /-- An award of a user and the badge of this name. -/
  | findUserBadge (userId name : String)
  /-- `NotificationsService.create` -/
  | notify (notification : Notification)

namespace Call

abbrev Value : Call → Type
  | measure _ _ => Nat
  | findBadge _ => Option Badge
  | insertBadge _ => Badge
  | findAward _ _ => Option Nat
  | insertAward _ _ => UserBadge
  | findUserBadge _ _ => Option (UserBadge × Badge)
  | notify _ => Unit

abbrev Answer (call : Call) : Type := Except Exception call.Value

end Call

structure World where
  clock : Int
  /-- The ids of the users. -/
  users : List String
  badges : Table Badge Badge.id
  userBadges : Indexed UserBadge UserBadge.id UserBadge.pair
  notifications : List Notification

/-- What the environment decides at a call. -/
structure Choice where
  elapsed : Nat := 1
  outcome : Outcome := .performed
  count : Nat := 0
  /-- Which of the rows that match comes first. -/
  pick : Nat := 0

namespace World

def later (world : World) (elapsed : Nat) : World := { world with clock := world.clock + elapsed }

def insertBadge (world : World) (data : NewBadge) : World :=
  { world with
    badges := world.badges.insert (fun id => { data with id, createdAt := world.clock })
      fun _ => rfl }

/-- The user and the badge must be there, and the pair must not. -/
def insertAward (world : World) (userId : String) (badgeId : Nat) :
    Except DatabaseError (UserBadge × World) :=
  let row := fun id : Nat => (⟨id, userId, badgeId, world.clock⟩ : UserBadge)
  match world.userBadges.insert? row fun _ => rfl with
  | none => .error (.uniqueViolation "user_badges_unique_idx")
  | some userBadges =>
    if userId ∈ world.users ∧ (world.badges.find? badgeId).isSome then
      .ok (row world.userBadges.next, { world with userBadges })
    else .error (.failed (some "23503"))

/-- `user_badges` joined with `badges`. -/
def joined (world : World) (userId name : String) : List (UserBadge × Badge) :=
  world.userBadges.rows.flatMap fun award =>
    (world.badges.rows.filter fun badge =>
      badge.id = award.badgeId ∧ award.userId = userId ∧ badge.name = name).map (award, ·)

def perform (choice : Choice) (world : World) : (call : Call) → call.Answer × World
  | .measure _ _ => (.ok choice.count, world)
  | .findBadge name =>
    (.ok (limitOne (world.badges.rows.filter (·.name = name)) choice.pick), world)
  | .insertBadge data =>
    (.ok { data with id := world.badges.next, createdAt := world.clock }, world.insertBadge data)
  | .findAward userId badgeId =>
    (.ok ((world.userBadges.findBy? (userId, badgeId)).map (·.id)), world)
  | .insertAward userId badgeId =>
    match world.insertAward userId badgeId with
    | .error e => (.error (.drizzle e), world)
    | .ok (row, after) => (.ok row, after)
  | .findUserBadge userId name => (.ok (limitOne (world.joined userId name) choice.pick), world)
  | .notify notification =>
    (.ok (), { world with notifications := world.notifications ++ [notification] })

end World

def connectionFailed : Exception := .drizzle (.failed none)

/-- Some time passes before the call, and a call that fails may have been performed. -/
def exec (choice : Choice) (world : World) (call : Call) : call.Answer × World :=
  let world := world.later choice.elapsed
  match choice.outcome with
  | .refused => (.error connectionFailed, world)
  | .lost => (.error connectionFailed, (world.perform choice call).2)
  | .performed => world.perform choice call

abbrev Method (α : Type) : Type := Fallible Call Call.Answer Exception α

def call (op : Call) : Method op.Value := ExceptT.mk (.call op .done)

def BADGE_NOTIFICATION_TYPE : String := "badge.awarded"

namespace BadgesService

def badgeNotFound : Exception := .notFound (units "Badge not found")

def findByUserAndKey (userId badgeKey : String) : Method AwardedBadge := do
  match BADGE_RULES.find? (·.badgeKey = badgeKey) with
  | none => throw badgeNotFound
  | some catalog =>
    match ← call (.findUserBadge userId catalog.name) with
    | none => throw badgeNotFound
    | some row => return mapAwarded row.1 row.2

def resolveBadge (badgeKey name description icon : String) : Method Badge := do
  match ← call (.findBadge name) with
  | some existing => return existing
  | none => call (.insertBadge
      { name, description := some description, icon := some icon, criteria := some badgeKey })

/-- Who loses the race has the badge already. -/
def insertAward (userId : String) (badge : Badge) : Method (Option UserBadge) :=
  tryCatch (some <$> call (.insertAward userId badge.id)) fun error =>
    if error.isUniqueViolation then return none else throw error

/-- What a user is told of an award. -/
def announcement (userId badgeKey name description : String) : Notification where
  userId := userId
  type := BADGE_NOTIFICATION_TYPE
  title := s!"Badge earned: {name}"
  message := description
  data := "\x7b\"badgeKey\":\"" ++ badgeKey ++ "\"\x7d"

/-- A failure is swallowed. -/
def announceAward (wired : Bool) (userId badgeKey name description : String) : Method Unit :=
  if wired = false then return ()
  else
    tryCatch (call (.notify (announcement userId badgeKey name description))) fun _ => return ()

variable (wired : Bool)

/-- The award of a badge that is there. -/
def awardBadge (userId badgeKey name description : String) (badge : Badge) :
    Method (Option AwardedBadge) := do
  match ← call (.findAward userId badge.id) with
  | some _ => return none
  | none =>
    match ← insertAward userId badge with
    | none => return none
    | some inserted => do
      announceAward wired userId badgeKey name description
      return some (mapAwarded inserted badge)

def award (userId badgeKey name description icon : String) : Method (Option AwardedBadge) := do
  let badge ← resolveBadge badgeKey name description icon
  awardBadge wired userId badgeKey name description badge

def evaluateRule (userId : String) (awarded : List AwardedBadge) (rule : BadgeRule) :
    Method (List AwardedBadge) := do
  let value ← call (.measure userId rule.metric)
  if meetsThreshold value rule = false then return awarded
  else
    match ← award wired userId rule.badgeKey rule.name rule.description rule.icon with
    | some result => return awarded ++ [result]
    | none => return awarded

def evaluateForUser (userId : String) (trigger : BadgeTriggerEvent) :
    Method (List AwardedBadge) :=
  (rulesForTrigger trigger).foldlM (evaluateRule wired userId) []

def awardManual (userId badgeKey : String) : Method AwardedBadge := do
  match BADGE_RULES.find? (·.badgeKey = badgeKey) with
  | none => throw badgeNotFound
  | some rule =>
    match ← award wired userId rule.badgeKey rule.name rule.description rule.icon with
    | some awarded => return awarded
    | none => findByUserAndKey userId rule.badgeKey

end BadgesService
end Badges
