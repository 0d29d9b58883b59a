import Hakawi.Effects.Serial

/-!
# The preferences of a reader

An update names some of the preferences. The service reads the whole row, or the defaults where
there is none, and writes the whole row back. The read may be answered by a replica.
-/

namespace Notifications
open Effects

structure Preferences where
  emailEnabled : Bool := true
  pushEnabled : Bool := true
  storyReactions : Bool := true
  comments : Bool := true
  follows : Bool := true
  mentions : Bool := true
  messages : Bool := true
  system : Bool := true
  deriving DecidableEq

structure NotificationPreferencesDto where
  emailEnabled : Option Bool := none
  pushEnabled : Option Bool := none
  storyReactions : Option Bool := none
  comments : Option Bool := none
  follows : Option Bool := none
  mentions : Option Bool := none
  messages : Option Bool := none
  system : Option Bool := none
  deriving DecidableEq

/-- The columns of the row that an update may name. -/
inductive Field where
  | emailEnabled
  | pushEnabled
  | storyReactions
  | comments
  | follows
  | mentions
  | messages
  | system
  deriving DecidableEq

def Preferences.get (preferences : Preferences) : Field → Bool
  | .emailEnabled => preferences.emailEnabled
  | .pushEnabled => preferences.pushEnabled
  | .storyReactions => preferences.storyReactions
  | .comments => preferences.comments
  | .follows => preferences.follows
  | .mentions => preferences.mentions
  | .messages => preferences.messages
  | .system => preferences.system

namespace NotificationPreferencesDto

def get (dto : NotificationPreferencesDto) : Field → Option Bool
  | .emailEnabled => dto.emailEnabled
  | .pushEnabled => dto.pushEnabled
  | .storyReactions => dto.storyReactions
  | .comments => dto.comments
  | .follows => dto.follows
  | .mentions => dto.mentions
  | .messages => dto.messages
  | .system => dto.system

/-- What is not named stays as it is. -/
def apply (dto : NotificationPreferencesDto) (existing : Preferences) : Preferences where
  emailEnabled := dto.emailEnabled.getD existing.emailEnabled
  pushEnabled := dto.pushEnabled.getD existing.pushEnabled
  storyReactions := dto.storyReactions.getD existing.storyReactions
  comments := dto.comments.getD existing.comments
  follows := dto.follows.getD existing.follows
  mentions := dto.mentions.getD existing.mentions
  messages := dto.messages.getD existing.messages
  system := dto.system.getD existing.system

theorem get_apply (dto : NotificationPreferencesDto) (existing : Preferences) (field : Field) :
    (dto.apply existing).get field = (dto.get field).getD (existing.get field) := by
  cases field <;> rfl

end NotificationPreferencesDto

inductive Call where
  | findPreferences (userId : String)
  | upsertPreferences (userId : String) (data : Preferences)

abbrev Call.Answer : Call → Type
  | .findPreferences _ | .upsertPreferences _ _ => Preferences

/-- What the environment decides at a call. -/
structure Choice where
  /-- The row that a replica has, where one answers the read. -/
  replica : Option (Option Preferences) := none

structure World where
  /-- The rows of `notification_preferences`, of which a user has at most one. -/
  rows : String → Option Preferences

/-- What a reader without a row prefers. -/
def World.preferences (world : World) (userId : String) : Preferences :=
  (world.rows userId).getD {}

def exec (choice : Choice) (world : World) : (call : Call) → call.Answer × World
  | .findPreferences userId => ((choice.replica.getD (world.rows userId)).getD {}, world)
  | .upsertPreferences userId data =>
    (data, ⟨fun user => if user = userId then some data else world.rows user⟩)

abbrev Method (α : Type) : Type := Program Call Call.Answer α

def call (op : Call) : Method op.Answer := .call op .done

def updatePreferences (userId : String) (dto : NotificationPreferencesDto) :
    Method Preferences := do
  let existing ← call (.findPreferences userId)
  call (.upsertPreferences userId (dto.apply existing))

section Updates
variable (userId : String)

/-- The updates of one reader, each a call of its own. -/
def pool (world : World) (dtos : List NotificationPreferencesDto) :
    Pool World Call Call.Answer Preferences :=
  ⟨world, dtos.map (updatePreferences userId)⟩

abbrev Progress : Type := Stage NotificationPreferencesDto Preferences

/-- The read comes first, and then the write of what the update makes of it. -/
def updating : Protocol Call Call.Answer Progress where
  allowed
    | .waiting _, op => op = .findPreferences userId
    | .holding dto seen, op => op = .upsertPreferences userId (dto.apply seen)
    | .written _, _ => False
  next
    | .waiting dto, .findPreferences _, seen => .holding dto seen
    | stage, _, _ => .written stage.update

/-- A write finds the preferences that its own read has found. -/
def Current (_ : Choice) (world : World) : Progress → Call → Prop
  | .holding _ seen, _ => world.preferences userId = seen
  | _, _ => True

instance (choice : Choice) (world : World) (stage : Progress) (op : Call) :
    Decidable (Current userId choice world stage op) :=
  match stage with
  | .holding _ _ => inferInstanceAs (Decidable (_ = _))
  | .waiting _ | .written _ => inferInstanceAs (Decidable True)

/-- No write of another update comes between a read and its write, and no replica is behind. -/
def Undisturbed (world : World) (dtos : List NotificationPreferencesDto)
    (schedule : List (Nat × Choice)) : Prop :=
  Pool.Meets exec (updating userId) (Current userId) schedule (dtos.map .waiting)
    (pool userId world dtos)

/-- The preferences are what the updates come to, one after the other in some order. -/
def Serialized (first last : Preferences) (dtos : List NotificationPreferencesDto) : Prop :=
  ∃ order : List NotificationPreferencesDto, order.Perm dtos ∧
    last = Stage.applied NotificationPreferencesDto.apply order first

instance (world : World) (dtos : List NotificationPreferencesDto)
    (schedule : List (Nat × Choice)) : Decidable (Undisturbed userId world dtos schedule) :=
  inferInstanceAs (Decidable (Pool.Meets ..))

variable {userId}

theorem updatePreferences_reaches (dto : NotificationPreferencesDto) :
    (updating userId).Reaches (fun _ stage => ∃ dto, stage = .written dto) (.waiting dto)
      (updatePreferences userId dto) :=
  ⟨rfl, fun _ => ⟨rfl, fun _ => ⟨dto, rfl⟩⟩⟩

theorem preserves_serial (first : Preferences) (dtos : List NotificationPreferencesDto) :
    Pool.Preserves exec (updating userId) (Current userId) fun world memory =>
      Stage.Serial NotificationPreferencesDto.apply (World.preferences · userId) first world
        memory ∧ memory.map Stage.update = dtos := by
  rintro choice world memory i stage op remembers ⟨serial, updates⟩ allowed current
  cases stage with
  | waiting dto =>
    obtain rfl : op = .findPreferences userId := allowed
    refine ⟨serial.read remembers rfl, ?_⟩
    rw [← updates]
    exact Stage.update_set remembers rfl
  | holding dto seen =>
    obtain rfl : op = .upsertPreferences userId (dto.apply seen) := allowed
    obtain rfl : world.preferences userId = seen := current
    refine ⟨serial.write remembers ?_, ?_⟩
    · simp [exec, World.preferences, Stage.update]
    · rw [← updates]
      exact Stage.update_set remembers rfl
  | written dto => exact allowed.elim

/-- The last update that names a preference decides it. -/
theorem get_applied (order : List NotificationPreferencesDto) (first : Preferences)
    (field : Field) :
    (Stage.applied NotificationPreferencesDto.apply order first).get field =
      (order.filterMap (·.get field)).getLast?.getD (first.get field) := by
  induction order generalizing first with
  | nil => rfl
  | cons dto rest ih =>
    have step := ih (dto.apply first)
    rw [Stage.applied, List.foldl_cons, ← Stage.applied, step, dto.get_apply]
    cases named : dto.get field with
    | none =>
      have others : (dto :: rest).filterMap (·.get field) = rest.filterMap (·.get field) :=
        List.filterMap_cons_none named
      rw [others, Option.getD_none]
    | some value =>
      have whole : (dto :: rest).filterMap (·.get field) =
          value :: rest.filterMap (·.get field) := List.filterMap_cons_some named
      rw [whole, List.getLast?_cons, Option.getD_some, Option.getD_some]

/-- A preference that one update names has its value in the end. -/
theorem Serialized.named {first last : Preferences} {dtos : List NotificationPreferencesDto}
    (serialized : Serialized first last dtos) (field : Field) {value : Bool}
    (one : dtos.filterMap (·.get field) = [value]) : last.get field = value := by
  obtain ⟨order, perm, rfl⟩ := serialized
  have same := perm.filterMap (·.get field)
  rw [one, List.perm_singleton] at same
  rw [get_applied, same]
  rfl

end Updates

/-- When no write is disturbed, the updates come to what they do one after the other. -/
theorem preferences_serialized (userId : String) (world : World)
    (dtos : List NotificationPreferencesDto) (schedule : List (Nat × Choice))
    (undisturbed : Undisturbed userId world dtos schedule)
    (finished : ((pool userId world dtos).run exec schedule).Finished) :
    Serialized (world.preferences userId)
        (((pool userId world dtos).run exec schedule).state.preferences userId) dtos ∧
      ∀ field value, dtos.filterMap (·.get field) = [value] →
        (((pool userId world dtos).run exec schedule).state.preferences userId).get field =
          value := by
  have reaches : List.Forall₂ ((updating userId).Reaches fun _ stage => ∃ dto, stage = .written dto)
      (dtos.map .waiting) (dtos.map (updatePreferences userId)) :=
    List.forall₂_map_left_iff.mpr (List.forall₂_map_right_iff.mpr
      (List.forall₂_same.mpr fun dto _ => updatePreferences_reaches dto))
  have follow : Pool.Follow (updating userId) (dtos.map .waiting) (pool userId world dtos) :=
    reaches.imp fun _ _ reached => reached.follows
  have untouched : (dtos.map Stage.waiting).filterMap
      (@Stage.landed NotificationPreferencesDto Preferences) = [] := by
    simp [List.filterMap_map, Function.comp_def, Stage.landed]
  have start : Stage.Serial NotificationPreferencesDto.apply (World.preferences · userId)
      (world.preferences userId) world (dtos.map .waiting) := ⟨[], by rw [untouched], rfl⟩
  have names : (dtos.map Stage.waiting).map (@Stage.update _ Preferences) = dtos := by
    simp [Function.comp_def, Stage.update]
  have ends := (Pool.run_invariant (preserves_serial _ dtos) ⟨start, names⟩ follow
    undisturbed).1
  have all := Pool.post_of_finished (Pool.run_reaches reaches schedule) finished
  obtain ⟨⟨order, perm, same⟩, updates⟩ := ends
  rw [Stage.landed_of_written all, updates] at perm
  have serialized : Serialized (world.preferences userId)
      (((pool userId world dtos).run exec schedule).state.preferences userId) dtos :=
    ⟨order, perm, same⟩
  exact ⟨serialized, fun field _ => serialized.named field⟩

/-- A reader who has set nothing yet. -/
def World.empty : World := ⟨fun _ => none⟩

/-- One update turns off the comments, the other the follows. -/
def twoUpdates : List NotificationPreferencesDto :=
  [{ comments := some false }, { follows := some false }]

def turns (threads : List Nat) : List (Nat × Choice) := threads.map (·, {})

theorem two_updates_in_turn : Serialized {} (((pool "reader" World.empty twoUpdates).run exec
    (turns [0, 0, 1, 1])).state.preferences "reader") twoUpdates :=
  (preferences_serialized "reader" World.empty twoUpdates (turns [0, 0, 1, 1])
    (by decide) (by decide)).1

/-- Both read before either writes, and the comments are on again. -/
theorem two_updates_at_once : ((pool "reader" World.empty twoUpdates).run exec
      (turns [0, 1, 0, 1])).Finished ∧
    ¬ Serialized {} (((pool "reader" World.empty twoUpdates).run exec
      (turns [0, 1, 0, 1])).state.preferences "reader") twoUpdates := by
  refine ⟨by decide, fun serialized => ?_⟩
  have off := serialized.named .comments rfl
  revert off
  decide

end Notifications
