import Hakawi.Auth.Service
import Hakawi.Events.Schemas

/-!
# Assignments of admin roles

The calls of the roles service: the clock, the users service, the repository of the assignments
and the announcements. A user has at most one role, in a column of the users. The column for its
expiry was added to the database only, so no statement of the service writes it.
-/

namespace Admin
open Html Common Store Effects
open Auth (User)
open Auth.UsersService (ClientUser toClientUser)

inductive AdminRole where
  | superAdmin
  | contentModerator
  | financialOfficer
  | verificationOfficer
  deriving DecidableEq

def AdminRole.value : AdminRole → String
  | superAdmin => "super_admin"
  | contentModerator => "content_moderator"
  | financialOfficer => "financial_officer"
  | verificationOfficer => "verification_officer"

/-- A date that is not invalid. -/
abbrev Date : Type := { time : Int // time.natAbs ≤ Events.MAX_TIME }

structure NewAdminRoleAssignment where
  userId : String
  adminRole : AdminRole
  assignedBy : String
  reason : String
  environment : String
  expiresAt : Date
  deriving DecidableEq

structure AdminRoleAssignment where
  id : Nat
  userId : String
  adminRole : AdminRole
  assignedBy : String
  reason : Option String
  assignedAt : Int
  revokedAt : Option Int
  revokedBy : Option String
  revokeReason : Option String
  environment : String
  expiresAt : Option Int
  deriving DecidableEq

namespace AdminRoleAssignment

/-- Neither the user, the role nor the expiry of an assignment is ever changed. -/
def revoke (assignment : AdminRoleAssignment) (revokedAt : Int) (revokedBy revokeReason : String) :
    AdminRoleAssignment :=
  { assignment with
    revokedAt := some revokedAt, revokedBy := some revokedBy, revokeReason := some revokeReason }

/-- An unrevoked assignment of a role to a user. -/
def Grants (assignment : AdminRoleAssignment) (userId : String) (adminRole : AdminRole) : Prop :=
  assignment.userId = userId ∧ assignment.adminRole = adminRole ∧ assignment.revokedAt = none

instance (assignment : AdminRoleAssignment) (userId : String) (adminRole : AdminRole) :
    Decidable (assignment.Grants userId adminRole) := inferInstanceAs (Decidable (_ ∧ _ ∧ _))

/-- `expires_at IS NOT NULL AND expires_at <= now()` -/
def Expired (assignment : AdminRoleAssignment) (now : Int) : Prop :=
  ∃ time ∈ assignment.expiresAt, time ≤ now

instance (assignment : AdminRoleAssignment) (now : Int) : Decidable (assignment.Expired now) :=
  decidable_of_iff (assignment.expiresAt.any (· ≤ now) = true)
    (by simp [Expired, Option.any_eq_true])

end AdminRoleAssignment

/-- What the server makes of texts as ids. -/
structure Uuids where
  /-- How it prints the id that it reads in a text. -/
  read : String → Option String
  read_read : ∀ text id, read text = some id → read id = some id
  read_system : read "system" = none

inductive Event where
  | assigned (userId : String) (adminRole : AdminRole) (assignedBy reason : String)
      (expiresAt : Date)
  | revoked (userId : String) (adminRole : AdminRole) (revokedBy reason : String)
  | breakGlass (userId : String) (adminRole : AdminRole) (invokedBy reason : String)
      (expiresAt : Date) (durationMinutes : Int)
  deriving DecidableEq

inductive Call where
  /-- `new Date()` -/
  | now
  /-- `UsersService.findById` -/
  | findUser (id : String)
  /-- `UsersService.update` -/
  | updateUser (id : String) (adminRole : Option AdminRole) (adminRoleExpiresAt : Option Int)
  | create (data : NewAdminRoleAssignment)
  | findActiveByUserAndRole (userId : String) (adminRole : AdminRole)
  /-- The first page of those that are not revoked. -/
  | findAll (userId : String) (adminRole : Option AdminRole) (limit : Nat)
  | revoke (id : Nat) (revokedBy revokeReason : String)
  | countByRole
  | findExpired
  | emit (event : Event)

namespace Call

abbrev Value : Call → Type
  | now => Int
  | findUser _ => Option ClientUser
  | updateUser _ _ _ => Option ClientUser
  | create _ => AdminRoleAssignment
  | findActiveByUserAndRole _ _ => Option AdminRoleAssignment
  | findAll _ _ _ | findExpired => List AdminRoleAssignment
  | revoke _ _ _ => Option AdminRoleAssignment
  | countByRole => AdminRole → Nat
  | emit _ => Unit

abbrev Answer (call : Call) : Type := Except Exception call.Value

def mayFail : Call → Bool
  | now => false
  | _ => true

end Call

structure World where
  /-- In milliseconds. -/
  clock : Int
  users : List User
  /-- The column `admin_role_expires_at`, under the ids of the users. -/
  adminRoleExpiresAt : String → Option Int
  assignments : Table AdminRoleAssignment AdminRoleAssignment.id
  events : List Event

/-- What the environment decides at a call. -/
structure Choice where
  /-- Milliseconds since the last call. -/
  elapsed : Nat := 0
  outcome : Outcome := .performed
  /-- The order in which rows are visited. -/
  rank : Nat → Nat := id
  /-- A copy of the user in the cache. -/
  cached : Option ClientUser := none

namespace World

def findUser (world : World) (id : String) : Option User := world.users.find? (·.id = id)

def modifyUser (world : World) (id : String) (f : User → User) : World :=
  { world with users := world.users.map fun user => if user.id = id then f user else user }

/-- The unrevoked assignments of a user. -/
def active (world : World) (userId : String) : List AdminRoleAssignment :=
  world.assignments.rows.filter fun a => a.userId = userId ∧ a.revokedAt = none

def countByRole (world : World) (adminRole : AdminRole) : Nat :=
  world.assignments.rows.countP fun a => a.adminRole = adminRole ∧ a.revokedAt = none

/-- In the order in which rows are visited. -/
def visited (rank : Nat → Nat) (rows : List AdminRoleAssignment) : List AdminRoleAssignment :=
  rows.insertionSort fun a b => rank a.id ≤ rank b.id

/-- `ORDER BY assigned_at DESC`; `rank` is the order that it leaves open. -/
def newestFirst (rank : Nat → Nat) (rows : List AdminRoleAssignment) : List AdminRoleAssignment :=
  rows.insertionSort fun a b =>
    b.assignedAt < a.assignedAt ∨ b.assignedAt = a.assignedAt ∧ rank a.id ≤ rank b.id

/-- The row that an insert writes. -/
def row (now : Int) (userId assignedBy : String) (data : NewAdminRoleAssignment) (id : Nat) :
    AdminRoleAssignment :=
  { id, userId, adminRole := data.adminRole, assignedBy, reason := some data.reason
    assignedAt := now, revokedAt := none, revokedBy := none, revokeReason := none
    environment := data.environment, expiresAt := some data.expiresAt }

def insert (world : World) (userId assignedBy : String) (data : NewAdminRoleAssignment) : World :=
  { world with
    assignments := world.assignments.insert (row world.clock userId assignedBy data) fun _ => rfl }

def revoke (world : World) (id : Nat) (revokedBy revokeReason : String) : World :=
  { world with
    assignments := world.assignments.modify id
      (·.revoke world.clock revokedBy revokeReason) fun _ => rfl }

section Perform
variable (uuids : Uuids)

/-- The id that a statement names. -/
def read (text : String) : Except Exception String :=
  match uuids.read text with
  | none => .error (.drizzle .invalidText)
  | some id => .ok id

/-- The two users that an insert names. -/
def references (world : World) (data : NewAdminRoleAssignment) :
    Except Exception (String × String) := do
  let userId ← read uuids data.userId
  let assignedBy ← read uuids data.assignedBy
  if 20 < data.environment.length then throw (.drizzle (.failed (some "22001")))
  else if (world.findUser userId).isNone ∨ (world.findUser assignedBy).isNone then
    throw (.drizzle (.failed (some "23503")))
  else return (userId, assignedBy)

/-- The user is read from the cache when there is a copy. A statement that is rejected changes
nothing. -/
def perform (choice : Choice) (world : World) : (call : Call) → call.Answer × World
  | .now => (.ok world.clock, world)
  | .findUser id =>
    (match choice.cached with
      | some copy => .ok (some copy)
      | none => (read uuids id).map fun id =>
          ((world.findUser id).filter (·.deletedAt.isNone)).map toClientUser, world)
  | .updateUser id adminRole _ =>
    match read uuids id with
    | .error e => (.error e, world)
    | .ok id =>
      let after := world.modifyUser id fun user =>
        { user with adminRole := adminRole.map AdminRole.value }
      (.ok ((after.findUser id).map toClientUser), after)
  | .create data =>
    match world.references uuids data with
    | .error e => (.error e, world)
    | .ok (userId, assignedBy) => (.ok (row world.clock userId assignedBy data
        world.assignments.next), world.insert userId assignedBy data)
  | .findActiveByUserAndRole userId adminRole =>
    ((read uuids userId).map fun userId => (visited choice.rank
      (world.assignments.rows.filter fun a => a.Grants userId adminRole)).head?, world)
  | .findAll userId adminRole limit =>
    ((read uuids userId).map fun userId => (newestFirst choice.rank ((world.active userId).filter
      fun a => adminRole.all (a.adminRole = ·))).take limit, world)
  | .revoke id revokedBy revokeReason =>
    match read uuids revokedBy with
    | .error e => (.error e, world)
    | .ok revokedBy =>
      if (world.findUser revokedBy).isNone ∧ (world.assignments.find? id).isSome then
        (.error (.drizzle (.failed (some "23503"))), world)
      else
        let after := world.revoke id revokedBy revokeReason
        (.ok (after.assignments.find? id), after)
  | .countByRole => (.ok world.countByRole, world)
  | .findExpired => (.ok (visited choice.rank (world.assignments.rows.filter fun a =>
      a.revokedAt = none ∧ a.Expired world.clock)), world)
  | .emit event => (.ok (), { world with events := world.events ++ [event] })

end Perform
end World

def queryFailed : Exception := .driver (.failed none)

/-- Some time passes before the call, and a call that fails may have been performed. -/
def exec (uuids : Uuids) (choice : Choice) (world : World) (call : Call) :
    call.Answer × World :=
  let world := { world with clock := world.clock + choice.elapsed }
  match call.mayFail, choice.outcome with
  | true, .refused => (.error queryFailed, world)
  | true, .lost => (.error queryFailed, (world.perform uuids choice call).2)
  | _, _ => world.perform uuids choice call

/-- The world when some time has passed. -/
def World.later (world : World) (elapsed : Nat) : World :=
  { world with clock := world.clock + elapsed }

/-- A call does nothing but let the time pass, or it is carried out. -/
theorem exec_state (uuids : Uuids) (choice : Choice) (world : World) (call : Call) :
    (exec uuids choice world call).2 = world.later choice.elapsed ∨
      (exec uuids choice world call).2 =
        ((world.later choice.elapsed).perform uuids choice call).2 := by
  rw [exec]
  split
  · exact Or.inl rfl
  · exact Or.inr rfl
  · exact Or.inr rfl

/-- A call that answers has been carried out. -/
theorem exec_answers {uuids : Uuids} {choice : Choice} {world : World} {call : Call}
    {value : call.Value} (answered : (exec uuids choice world call).1 = .ok value) :
    exec uuids choice world call = (world.later choice.elapsed).perform uuids choice call := by
  rw [exec] at answered ⊢
  split at answered
  · cases answered
  · cases answered
  · rfl

abbrev Method (α : Type) : Type := Fallible Call Call.Answer Exception α

def call (op : Call) : Method op.Value := ExceptT.mk (.call op .done)

end Admin
