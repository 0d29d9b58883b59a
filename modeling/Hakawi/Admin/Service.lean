import Hakawi.Admin.Repository

/-!
# The roles service

A role is assigned or taken for a short while by breaking the glass; either way an assignment is
inserted and the role written to the user. Revoking an assignment writes the role of another one
that is not revoked, or none.
-/

namespace Admin
open Html Common Effects
open Auth (User)
open Auth.UsersService (ClientUser)

/-- Who has an account of the administrators. -/
def ACCOUNT_TYPE_ADMIN : String := "admin"

def DEFAULT_EXPIRY_DAYS : Int := 365

def MAX_EXPIRY_DAYS : Int := 365

def DAY : Int := 24 * 60 * 60 * 1000

def MAX_SUPER_ADMINS : Nat := 5

/-- What the DTO accepts. -/
structure AssignAdminRoleInput where
  userId : String
  adminRole : AdminRole
  reason : String
  expiresAt : Option String := none
  environment : Option String := none
  deriving DecidableEq

structure RevokeAdminRoleInput where
  userId : String
  adminRole : AdminRole
  revokeReason : String
  deriving DecidableEq

structure BreakGlassInput where
  adminRole : AdminRole
  reason : String
  durationMinutes : Int := 15
  deriving DecidableEq

structure BreakGlassResponse where
  success : Bool
  adminRole : AdminRole
  expiresAt : Date
  message : String
  deriving DecidableEq

/-- The configuration, and `new Date(text)`. -/
structure Settings where
  /-- `app.environment` -/
  environment : Option String
  parseDate : String → Option Int

def alreadyActive (adminRole : AdminRole) : Exception :=
  .conflict (units s!"User already has active {adminRole.value} role")

def userNotFound : Exception := .notFound (units "User not found")

/-- An invalid date is not written. -/
def validDate (time : Int) : Except Exception Date :=
  if valid : time.natAbs ≤ Events.MAX_TIME then .ok ⟨time, valid⟩ else .error queryFailed

namespace UsersService

def findById (id : String) : Method ClientUser := do
  match ← call (.findUser id) with
  | none => throw userNotFound
  | some user => return user

/-- A row that was not found is `undefined`. -/
def update (id : String) (adminRole : Option AdminRole) (adminRoleExpiresAt : Option Int) :
    Method Unit := do
  match ← call (.updateUser id adminRole adminRoleExpiresAt) with
  | none => throw .typeError
  | some _ => return ()

end UsersService

namespace AdminRolesService
variable (settings : Settings)

def environment : String := settings.environment.getD "production"

/-- The role is not one the user has, nor one that enough others have. -/
def assertAssignable (userId : String) (adminRole : AdminRole) : Method Unit := do
  match ← call (.findActiveByUserAndRole userId adminRole) with
  | some _ => throw (alreadyActive adminRole)
  | none =>
    if adminRole = .superAdmin then
      let count ← call .countByRole
      if MAX_SUPER_ADMINS ≤ count .superAdmin then
        throw (.badRequest (units "Maximum number of super admins (5) reached"))
      else return ()
    else return ()

/-- When an assignment expires: as the input says, or in a year. -/
def finalExpiresAt (expiresAt : Option String) : Method Date := do
  match expiresAt.map settings.parseDate with
  | none => validDate ((← call .now) + DEFAULT_EXPIRY_DAYS * DAY)
  | some none => throw (.badRequest (units "expiresAt must be a valid future date"))
  | some (some time) =>
    if time ≤ (← call .now) then
      throw (.badRequest (units "expiresAt must be a valid future date"))
    else if MAX_EXPIRY_DAYS * DAY < time - (← call .now) then
      throw (.badRequest (units s!"expiresAt cannot exceed {MAX_EXPIRY_DAYS} days from now"))
    else validDate time

def assignRole (assignedById : String) (input : AssignAdminRoleInput) :
    Method AdminRoleAssignment := do
  let targetUser ← UsersService.findById input.userId
  if targetUser.accountType ≠ ACCOUNT_TYPE_ADMIN then
    throw (.badRequest
      (units "Target user must have account type \"admin\" to receive admin role"))
  else
    assertAssignable input.userId input.adminRole
    let expiresAt ← finalExpiresAt settings input.expiresAt
    let assignment ← call (.create
      { userId := input.userId, adminRole := input.adminRole, assignedBy := assignedById
        reason := input.reason, environment := input.environment.getD (environment settings)
        expiresAt })
    UsersService.update input.userId input.adminRole (some expiresAt)
    call (.emit (.assigned input.userId input.adminRole assignedById input.reason expiresAt))
    return assignment

/-- The roles that are not revoked, expired or not. -/
def getUserActiveRoles (userId : String) : Method (List AdminRole) := do
  return (← call (.findAll userId none 100)).map AdminRoleAssignment.adminRole

def getRoleExpiry (userId : String) (adminRole : AdminRole) : Method (Option Int) := do
  match ← call (.findAll userId (some adminRole) 1) with
  | [] => return none
  | assignment :: _ =>
    return if assignment.revokedAt = none then assignment.expiresAt else none

/-- The newest role that is left, and its expiry. -/
def remainingRole (userId : String) : Method (Option AdminRole × Option Int) := do
  match ← getUserActiveRoles userId with
  | [] => return (none, none)
  | newAdminRole :: _ => return (some newAdminRole, ← getRoleExpiry userId newAdminRole)

def revokeRole (revokedById : String) (input : RevokeAdminRoleInput) :
    Method AdminRoleAssignment := do
  match ← call (.findActiveByUserAndRole input.userId input.adminRole) with
  | none => throw (.notFound (units "Active admin role assignment not found"))
  | some activeAssignment =>
    match ← call (.revoke activeAssignment.id revokedById input.revokeReason) with
    | none => throw (.notFound (units "Failed to revoke admin role"))
    | some revoked => do
      let (newAdminRole, expiresAt) ← remainingRole input.userId
      UsersService.update input.userId newAdminRole expiresAt
      call (.emit (.revoked input.userId input.adminRole revokedById input.revokeReason))
      let _ ← UsersService.findById input.userId
      return revoked

/-- One after the other, on behalf of nobody. -/
def revokeExpired : List AdminRoleAssignment → Method Nat
  | [] => return 0
  | assignment :: rest => do
    let _ ← revokeRole "system"
      { userId := assignment.userId, adminRole := assignment.adminRole
        revokeReason := "Role expired automatically" }
    return (← revokeExpired rest) + 1

def expireRoles : Method Nat := do
  revokeExpired (← call .findExpired)

/-- The scheduled run: a failure is logged. -/
def handleExpiredRoles : Method Unit :=
  tryCatch (do let _ ← expireRoles) fun _ => return ()

def breakGlass (userId : String) (dto : BreakGlassInput) : Method BreakGlassResponse := do
  let user ← UsersService.findById userId
  if user.accountType ≠ ACCOUNT_TYPE_ADMIN then
    throw (.badRequest (units "User must have account type \"admin\" to use break-glass"))
  else if user.adminRole = some AdminRole.superAdmin.value then
    throw (.badRequest (units "Super admins do not need break-glass access"))
  else
    match ← call (.findActiveByUserAndRole userId dto.adminRole) with
    | some _ => throw (alreadyActive dto.adminRole)
    | none =>
      if dto.durationMinutes < 1 ∨ 240 < dto.durationMinutes then
        throw (.badRequest (units "durationMinutes must be between 1 and 240"))
      else
        let now ← call .now
        let expiresAt ← validDate (now + dto.durationMinutes * 60 * 1000)
        let _ ← call (.create
          { userId, adminRole := dto.adminRole, assignedBy := userId
            reason := "BREAK-GLASS: " ++ dto.reason, environment := environment settings
            expiresAt })
        UsersService.update userId dto.adminRole (some expiresAt)
        call (.emit (.breakGlass userId dto.adminRole userId dto.reason expiresAt
          dto.durationMinutes))
        return { success := true, adminRole := dto.adminRole, expiresAt
                 message := s!"Break-glass access granted for {dto.durationMinutes} minutes. " ++
                  "This action has been logged and will auto-expire." }

end AdminRolesService

/-- What is asked of the service. -/
inductive Operation where
  | assignRole (assignedById : String) (input : AssignAdminRoleInput)
  | breakGlass (userId : String) (dto : BreakGlassInput)
  | revokeRole (revokedById : String) (input : RevokeAdminRoleInput)
  | expireRoles
  /-- `expireRoles` as it is scheduled. -/
  | handleExpiredRoles
  deriving DecidableEq

def Operation.run (settings : Settings) : Operation → Method Unit
  | assignRole assignedById input => do
    let _ ← AdminRolesService.assignRole settings assignedById input
  | breakGlass userId dto => do let _ ← AdminRolesService.breakGlass settings userId dto
  | revokeRole revokedById input => do let _ ← AdminRolesService.revokeRole revokedById input
  | expireRoles => do let _ ← AdminRolesService.expireRoles
  | handleExpiredRoles => AdminRolesService.handleExpiredRoles

section Examples

/-- The texts as they are. -/
def Uuids.plain : Uuids where
  read text := if text = "system" then none else some text
  read_read text id same := by
    split at same
    · cases same
    · rename_i other
      cases same
      rw [if_neg other]
  read_system := rfl

def Settings.plain : Settings := ⟨none, fun _ => none⟩

def adminId (n : Nat) : String := s!"00000000-0000-4000-8000-00000000000{n}"

def admin (n : Nat) : User where
  id := adminId n
  email := s!"admin{n}@hakawi"
  name := s!"Admin {n}"
  username := s!"admin{n}"
  accountType := "admin"
  adminRole := none
  passwordHash := some "secret"
  passwordResetToken := none
  accessBlocked := false
  emailVerified := true
  deletedAt := none

/-- Admins without roles. -/
def World.admins (number : Nat) : World :=
  ⟨0, (List.range number).map admin, fun _ => none, .empty, []⟩

/-- The first admin gives another one a role. -/
def Operation.assigns (n : Nat) (adminRole : AdminRole) : Operation :=
  .assignRole (adminId 0) { userId := adminId n, adminRole, reason := "Moderation" }

end Examples
end Admin
