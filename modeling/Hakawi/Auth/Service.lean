import Hakawi.Auth.Tokens
import Hakawi.Common.ValkeyCalls
import Hakawi.Moderation.Restrictions

/-!
# Sessions

The methods that open, renew and end a session, and those that revoke every
session of an account. They call the clock, the store, the repository of the
users and a few services whose answers the environment decides: the lockout, the
captcha, whatever is random, and the numbers that make an account eligible.
-/

namespace Auth

open Common Effects
open Moderation.Restrictions (restrictionCacheKey)
open Moderation.Restrictions.AccountRestrictionService (isBan)

structure User where
  id : String
  email : String
  name : String
  username : String
  accountType : String
  adminRole : Option String
  passwordHash : Option String
  passwordResetToken : Option String
  /-- Set by hand in the database only. -/
  accessBlocked : Bool
  emailVerified : Bool
  deletedAt : Option Int
  deriving DecidableEq

/-- A column that is not given keeps its value. -/
structure UpdateUserInput where
  passwordHash : Option String := none
  passwordResetToken : Option (Option String) := none
  accountType : Option String := none

def User.update (user : User) (data : UpdateUserInput) : User :=
  { user with
    passwordHash := data.passwordHash <|> user.passwordHash
    passwordResetToken := data.passwordResetToken.getD user.passwordResetToken
    accountType := data.accountType.getD user.accountType }

structure LockoutStatus where
  isLocked : Bool
  failedAttempts : Nat
  lockoutExpiresAt : Option Int
  deriving DecidableEq

/-- What is counted before an upgrade. -/
inductive Count where
  | publishedStories
  | storyViews
  | storyReactions
  | followers
  deriving DecidableEq

inductive Event where
  | passwordResetRequested (userId email : String)
  | passwordResetCompleted (userId : String)
  | userUpgraded (userId oldType newType : String)
  deriving DecidableEq

inductive Call where
  | now
  | randomUUID
  | hash (password : String)
  | encrypt (text : String)
  | valkey (command : Command String)
  | findById (id : String)
  | findByEmail (email : String)
  | update (id : String) (data : UpdateUserInput)
  | checkStatus (userId : Option String) (clientIp : String)
  | recordFailedAttempt (userId : Option String) (clientIp : String)
  | clearOnSuccess (userId clientIp : String)
  | verifyCaptcha (token : Option String) (clientIp : String)
  | count (what : Count) (userId : String)
  | emit (event : Event)

namespace Call

abbrev Value : Call → Type
  | now => Int
  | randomUUID | hash _ | encrypt _ => String
  | valkey command => command.Answer
  | findById _ | findByEmail _ => Option User
  | checkStatus _ _ => LockoutStatus
  | verifyCaptcha _ _ => Bool
  | count _ _ => Nat
  | update _ _ | recordFailedAttempt _ _ | clearOnSuccess _ _ | emit _ => Unit

abbrev Answer (call : Call) : Type := Except Failure call.Value

def mayFail : Call → Bool
  | now | randomUUID | hash _ | encrypt _ => false
  | _ => true

end Call

structure World where
  /-- In milliseconds. -/
  clock : Int
  store : Valkey String
  users : List User
  events : List Event

/-- What the environment decides at a call. -/
structure Choice where
  /-- Milliseconds since the last call. -/
  elapsed : Nat := 1
  outcome : Outcome := .performed
  /-- An identifier, a salted hash or an encrypted text. -/
  random : String := ""
  lockout : LockoutStatus := ⟨false, 0, none⟩
  captcha : Bool := true
  count : Nat := 0
  deriving DecidableEq

namespace World

def findById (world : World) (id : String) : Option User := world.users.find? (·.id = id)

def perform (choice : Choice) (world : World) : (call : Call) → call.Answer × World
  | .now => (.ok world.clock, world)
  | .randomUUID | .hash _ | .encrypt _ => (.ok choice.random, world)
  | .valkey command =>
    ((world.store.exec world.clock command).1,
      { world with store := (world.store.exec world.clock command).2 })
  | .findById id => (.ok (world.findById id), world)
  | .findByEmail email => (.ok (world.users.find? (·.email = email)), world)
  | .update id data => (.ok (), { world with
      users := world.users.map fun user => if user.id = id then user.update data else user })
  | .checkStatus _ _ => (.ok choice.lockout, world)
  | .recordFailedAttempt _ _ | .clearOnSuccess _ _ => (.ok (), world)
  | .verifyCaptcha _ _ => (.ok choice.captcha, world)
  | .count _ _ => (.ok choice.count, world)
  | .emit event => (.ok (), { world with events := world.events ++ [event] })

end World

/-- Some time passes before the call, and a call that may fail may have been performed. -/
def exec (choice : Choice) (world : World) (call : Call) : call.Answer × World :=
  let world := { world with clock := world.clock + choice.elapsed }
  match call.mayFail, choice.outcome with
  | true, .refused => (.error disconnected, world)
  | true, .lost => (.error disconnected, (world.perform choice call).2)
  | _, _ => world.perform choice call

abbrev Method (α : Type) : Type := Fallible Call Call.Answer AuthError α

def call (op : Call) : Method op.Value :=
  ExceptT.mk (.call op fun answer => .done (answer.mapError .failure))

section JwtHelper
variable (d : Deployment)

/-- The times of a token that is signed now. -/
def timed (expiresIn : String) (claims : Claims) : Method Claims := do
  let now ← call .now
  match expiresAt d expiresIn (now / 1000) with
  | none => throw (.failure (.error ("\"expiresIn\" should be a number of seconds or string " ++
      "representing a timespan eg: \"1d\", \"20h\", 60")))
  | some exp => return { claims with iat := now / 1000, exp }

def generateAccessToken (payload : Claims) : Method String := do
  return d.signAccess (← timed d d.expiry payload)

def generateRefreshToken (payload : Claims) : Method String := do
  return d.signRefresh (← timed d d.refreshExpiry { payload with type := some "refresh" })

def assertUsableToken (token : String) : Method String :=
  if trim token = "" then throw (.unauthorized "Invalid refresh") else return token

/-- The clock of the verifier has full seconds. -/
def verifyRefreshToken (token : String) : Method Claims := do
  let token ← assertUsableToken token
  let now ← call .now
  match d.decodeRefresh token with
  | none => throw (.failure (.error "invalid signature"))
  | some claims =>
    if claims.exp ≤ now / 1000 then throw (.failure (.error "jwt expired")) else return claims

end JwtHelper

/-- `=== 'ban'`, and nobody is banned when the store does not answer. -/
def hasActiveBan (userId : String) : Method Bool :=
  tryCatch (do
    let restriction ← call (.valkey (.get (restrictionCacheKey userId)))
    return isBan restriction) fun _ => pure false

structure Tokens where
  accessToken : String
  refreshToken : String
  deriving DecidableEq

structure AuthResponseDto where
  id : String
  email : String
  name : String
  username : String
  accountType : String
  tokens : Tokens
  deriving DecidableEq

structure LoginDto where
  email : String
  password : String
  captchaToken : Option String

namespace AuthService
variable (d : Deployment)

/-- Present means has content. -/
def readPresentedRefreshToken (candidate : Option String) : Option String :=
  (candidate.map trim).filter (· ≠ "")

def revokeRefreshToken (refreshToken : String) : Method Unit :=
  call (.valkey (.set (tokenKey d refreshToken) (.other "revoked")
    (some (refreshBlacklistTtlSeconds d))))

def generateTokens (user : User) : Method Tokens := do
  let payload : Claims :=
    { sub := user.id, email := user.email, accountType := user.accountType
      adminRole := user.adminRole, type := none, iat := 0, exp := 0 }
  let accessToken ← generateAccessToken d payload
  let refreshToken ← generateRefreshToken d payload
  return { accessToken, refreshToken }

def response (user : User) (tokens : Tokens) : AuthResponseDto :=
  { id := user.id, email := user.email, name := user.name, username := user.username
    accountType := user.accountType, tokens }

def lockoutRemainingMinutes (lockoutExpiresAt : Option Int) : Method Int :=
  match lockoutExpiresAt with
  | none => return 0
  | some time => do
    let now ← call .now
    return (time - now + 59999) / 60000

def shouldRequireCaptcha (failedAttempts : Nat) : Bool := d.captchaEnabled && 3 ≤ failedAttempts

/-- A captcha is asked for after some failed attempts. -/
def passCaptcha (attempts : Nat) (captchaToken : Option String) (clientIp : String) :
    Method Unit := do
  if shouldRequireCaptcha d attempts then
    let success : Bool ← call (.verifyCaptcha captchaToken clientIp)
    if success then return
    else throw (.captchaRequired "CAPTCHA verification required" "CAPTCHA_REQUIRED"
      d.captchaProvider d.captchaSiteKey)
  else return

/-- The account that is found, with a hash that is not empty. -/
def credentials (found : Option User) : Option (User × String) :=
  found.bind fun user => (user.passwordHash.filter (· ≠ "")).map (user, ·)

def login (dto : LoginDto) (clientIp : String) : Method AuthResponseDto := do
  let lockoutStatus ← call (.checkStatus none clientIp)
  if lockoutStatus.isLocked then
    let minutes ← lockoutRemainingMinutes lockoutStatus.lockoutExpiresAt
    throw (.unauthorized s!"Too many failed attempts. Please try again after {minutes} minutes.")
  else
    match credentials (← call (.findByEmail dto.email)) with
    | none => do
      call (.recordFailedAttempt none clientIp)
      throw (.unauthorized "Invalid email or password")
    | some (user, passwordHash) => do
      let userLockoutStatus ← call (.checkStatus (some user.id) clientIp)
      if userLockoutStatus.isLocked then
        let minutes ← lockoutRemainingMinutes userLockoutStatus.lockoutExpiresAt
        throw (.unauthorized ("Account temporarily locked due to too many failed attempts. " ++
          s!"Please try again after {minutes} minutes."))
      else
        passCaptcha d (max lockoutStatus.failedAttempts userLockoutStatus.failedAttempts)
          dto.captchaToken clientIp
        if d.compare dto.password passwordHash = false then
          call (.recordFailedAttempt (some user.id) clientIp)
          throw (.unauthorized "Invalid email or password")
        else if user.accessBlocked then throw (.unauthorized "Account has been disabled")
        else if ← hasActiveBan user.id then throw (.unauthorized "Account has been banned")
        else
          call (.clearOnSuccess user.id clientIp)
          return response user (← generateTokens d user)

/-- Whatever the verifier throws is one refusal. -/
def verifyPresented (presentedToken : String) : Method Claims :=
  tryCatch (verifyRefreshToken d presentedToken) fun _ =>
    throw (.unauthorized "Invalid refresh token")

/-- The token is burned before the replacement is minted. -/
def rotate (presentedToken : String) (user : User) : Method AuthResponseDto := do
  revokeRefreshToken d presentedToken
  return response user (← generateTokens d user)

def refreshTokens (candidate : Option String) : Method AuthResponseDto :=
  match readPresentedRefreshToken candidate with
  | none => throw (.unauthorized "Refresh token is required")
  | some presentedToken => do
    let payload ← verifyPresented d presentedToken
    let reused : Bool ← call (.valkey (.exists' (tokenKey d presentedToken)))
    if reused then throw (.unauthorized "Refresh token has been revoked") else
    let revoked : Bool ← call (.valkey (.exists' (userKey payload.sub)))
    if revoked then throw (.unauthorized "Session has been revoked. Please log in again.") else
    match ← call (.findById payload.sub) with
    | none => throw (.unauthorized "Invalid refresh token")
    | some user =>
      if user.accessBlocked then do
        revokeRefreshToken d presentedToken
        throw (.unauthorized "Account has been disabled")
      else if ← hasActiveBan user.id then
        revokeRefreshToken d presentedToken
        throw (.unauthorized "Account has been banned")
      else rotate d presentedToken user

def logout (candidate : Option String) : Method String :=
  match readPresentedRefreshToken candidate with
  | none => return "Logged out, but no session token was presented to revoke"
  | some presentedToken => do
    let payload ← verifyPresented d presentedToken
    if payload.type ≠ some "refresh" then throw (.unauthorized "Invalid refresh token")
    else
      revokeRefreshToken d presentedToken
      return "Logged out successfully"

def forgotPassword (email : String) : Method Unit := do
  match ← call (.findByEmail email) with
  | none => return
  | some user => do
    let resetToken ← call .randomUUID
    let encryptedToken ← call (.encrypt resetToken)
    call (.update user.id { passwordResetToken := some (some encryptedToken) })
    call (.valkey (.set (resetKey resetToken) (.other user.id) (some 3600)))
    call (.emit (.passwordResetRequested user.id user.email))

/-- The account under the key of a reset; nothing else is ever stored there. -/
def storedUserId : Option Text → Option String
  | some (.other userId) => some userId
  | _ => none

def invalidResetToken : AuthError := .badRequest "Invalid or expired reset token"

/-- The secret of the account decrypts to the token. -/
def matchesToken (user : User) (token : String) : Bool :=
  match user.passwordResetToken.filter (· ≠ "") with
  | none => false
  | some encrypted => d.decrypt encrypted = some token

def resetPassword (token newPassword : String) : Method Unit := do
  match (storedUserId (← call (.valkey (.get (resetKey token))))).filter (· ≠ "") with
  | none => throw invalidResetToken
  | some userId =>
    match ← call (.findById userId) with
    | none => throw invalidResetToken
    | some user =>
      if matchesToken d user token then do
        let passwordHash ← call (.hash newPassword)
        call (.update userId
          { passwordHash := some passwordHash, passwordResetToken := some none })
        call (.valkey (.del (resetKey token)))
        call (.valkey (.set (userKey userId) (.other "revoked")
          (some (refreshBlacklistTtlSeconds d))))
        call (.emit (.passwordResetCompleted userId))
      else throw invalidResetToken

end AuthService

namespace UsersService
variable (d : Deployment)

def RISING_STAR : String := "rising_star"

def PROFESSIONAL : String := "professional"

def ACCOUNT_TYPES : List String := ["reader", RISING_STAR, PROFESSIONAL, "publisher", "admin"]

/-- Lower case is only looked at where it is ASCII. -/
def normalizeAccountType (value : String) : String :=
  let candidate := String.ofList ((trim value).toList.map Char.toLower)
  if candidate = "author" then RISING_STAR
  else if candidate ∈ ACCOUNT_TYPES then candidate
  else "reader"

structure ClientUser where
  id : String
  email : String
  username : String
  name : String
  accountType : String
  adminRole : Option String
  accessBlocked : Bool
  deletedAt : Option Int
  emailVerified : Bool
  deriving DecidableEq

def toClientUser (user : User) : ClientUser :=
  { id := user.id, email := user.email, username := user.username, name := user.name
    accountType := normalizeAccountType user.accountType, adminRole := user.adminRole
    accessBlocked := user.accessBlocked, deletedAt := user.deletedAt
    emailVerified := user.emailVerified }

/-- What an account is short of. -/
def shortfalls (user : User) (publishedStories storyViews storyReactions followers : Nat) :
    List String :=
  (if user.emailVerified then [] else ["Email must be verified"]) ++
  (if publishedStories < 5 then
    [s!"At least 5 published stories required (current: {publishedStories})"] else []) ++
  (if storyViews < 1000 then
    [s!"At least 1,000 story views required (current: {storyViews})"] else []) ++
  (if storyReactions < 100 then
    [s!"At least 100 story reactions required (current: {storyReactions})"] else []) ++
  (if followers < 50 then [s!"At least 50 followers required (current: {followers})"] else [])

/-- The reasons why an account is not eligible. -/
def checkProfessionalEligibility (id : String) : Method (List String) := do
  match ← call (.findById id) with
  | none => return ["User not found"]
  | some user => do
    let publishedStories ← call (.count .publishedStories id)
    let storyViews ← call (.count .storyViews id)
    let storyReactions ← call (.count .storyReactions id)
    let followers ← call (.count .followers id)
    return shortfalls user publishedStories storyViews storyReactions followers

def passEligibility (id target : String) : Method Unit := do
  if target = PROFESSIONAL then
    let reasons ← checkProfessionalEligibility id
    if reasons = [] then return
    else throw (.badRequest
      ("Not eligible for professional upgrade: " ++ ", ".intercalate reasons))
  else return

def revokeRefreshTokens (userId : String) : Method Unit :=
  let ttlMs := (parseDurationToMs d.refreshExpiry).getD 604800000
  let ttlSeconds := (ttlMs + 999) / 1000
  call (.valkey (.set (userKey userId) (.other "revoked") (some ttlSeconds)))

def upgradeAccount (id target : String) (approvedByAdmin : Bool) : Method ClientUser := do
  match (← call (.findById id)).filter (·.deletedAt.isNone) with
  | none => throw (.notFound "User not found")
  | some user =>
    if user.accountType = target then return toClientUser user
    else if ¬ user.emailVerified then
      throw (.badRequest "Email must be verified before upgrading")
    else if target ≠ RISING_STAR ∧ target ≠ PROFESSIONAL then
      throw (.badRequest "Invalid upgrade target")
    else if target = PROFESSIONAL ∧ approvedByAdmin = false then
      throw (.badRequest "Professional upgrade requires verification officer approval")
    else do
      passEligibility id target
      call (.update id { accountType := some target })
      revokeRefreshTokens d id
      call (.emit (.userUpgraded id user.accountType target))
      match ← call (.findById id) with
      | none => throw (.notFound "User not found")
      | some updated => return toClientUser updated

end UsersService

/-- What is asked of the two services. -/
inductive Operation where
  | login (dto : LoginDto) (clientIp : String)
  | refreshTokens (candidate : Option String)
  | logout (candidate : Option String)
  | forgotPassword (email : String)
  | resetPassword (token newPassword : String)
  | upgradeAccount (id target : String) (approvedByAdmin : Bool)

inductive Reply where
  | session (response : AuthResponseDto)
  | message (text : String)
  | client (user : UsersService.ClientUser)
  | done
  deriving DecidableEq

def Operation.program (d : Deployment) : Operation → Method Reply
  | login dto clientIp => return .session (← AuthService.login d dto clientIp)
  | refreshTokens candidate => return .session (← AuthService.refreshTokens d candidate)
  | logout candidate => return .message (← AuthService.logout d candidate)
  | forgotPassword email => do
    AuthService.forgotPassword email
    return .done
  | resetPassword token newPassword => do
    AuthService.resetPassword d token newPassword
    return .done
  | upgradeAccount id target approvedByAdmin =>
    return .client (← UsersService.upgradeAccount d id target approvedByAdmin)

/-- A reader, and a refresh token of theirs that is good for ten seconds. -/
def reader : User where
  id := "reader"
  email := "reader@hakawi"
  name := "Reader"
  username := "reader"
  accountType := "reader"
  adminRole := none
  passwordHash := some "secret"
  passwordResetToken := none
  accessBlocked := false
  emailVerified := true
  deletedAt := none

def signedIn : World := ⟨0, .empty, [reader], []⟩

def readersToken : String :=
  spell ⟨"reader", "reader@hakawi", "reader", none, some "refresh", 0, 10⟩

end Auth
