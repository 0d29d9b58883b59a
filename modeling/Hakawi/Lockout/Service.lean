import Hakawi.Auth.Service
import Hakawi.Effects.Composition

/-!
# The lockout of accounts

A counter and a lock for each account, and for each address. A login looks at the locks before it
compares passwords, and counts a failed attempt after it. The counts of the account and of the
address are taken at once. Beside the store stands which passwords were compared, and whether the
account was locked when they were.
-/

namespace Lockout
open Common Effects
open Auth (LoginDto AuthResponseDto AuthError Deployment LockoutStatus)

structure LockoutConfig where
  maxFailedAttempts : Nat := 5
  lockoutDurationMinutes : Nat := 15
  resetWindowMinutes : Nat := 60
  /-- A counter lives for some time. -/
  window : 0 < resetWindowMinutes := by decide

inductive Key where
  | userAttempts (userId : String)
  | userLock (userId : String)
  | ipAttempts (ip : String)
  | ipLock (ip : String)
  deriving DecidableEq

def USER_ATTEMPTS_PREFIX : String := "auth:lockout:user:"
def IP_ATTEMPTS_PREFIX : String := "auth:lockout:ip:"
def USER_LOCK_PREFIX : String := "auth:lockout:user:lock:"
def IP_LOCK_PREFIX : String := "auth:lockout:ip:lock:"

namespace Key

def text : Key → String
  | userAttempts userId => USER_ATTEMPTS_PREFIX ++ userId
  | userLock userId => USER_LOCK_PREFIX ++ userId
  | ipAttempts ip => IP_ATTEMPTS_PREFIX ++ ip
  | ipLock ip => IP_LOCK_PREFIX ++ ip

end Key

/-- Which method a command is sent for. -/
inductive Purpose where
  | check
  | record
  | clear
  deriving DecidableEq

inductive Call where
  | auth (call : Auth.Call)
  | lockouts (purpose : Purpose) (command : Command Key)
  /-- The password of an account is compared, and whether it is the right one. -/
  | compare (userId : String) (valid : Bool)
  /-- Which of two programs that run at once goes on. -/
  | turn

namespace Call

abbrev Value : Call → Type
  | auth call => call.Value
  | lockouts _ command => command.Answer
  | compare _ _ | turn => Bool

abbrev Answer (call : Call) : Type := Except Failure call.Value

end Call

structure Comparison where
  userId : String
  valid : Bool
  /-- The account was locked. -/
  locked : Bool
  deriving DecidableEq

structure World where
  auth : Auth.World
  lockouts : Valkey Key
  compared : List Comparison

/-- What the environment decides at a call. -/
structure Choice extends Auth.Choice where
  left : Bool := true
  deriving DecidableEq

namespace World

def clock (world : World) : Int := world.auth.clock

def later (world : World) (elapsed : Nat) : World :=
  { world with auth := { world.auth with clock := world.auth.clock + elapsed } }

def isLocked (world : World) (userId : String) : Bool :=
  world.lockouts.exists' world.clock (.userLock userId)

end World

/-- Some time passes before the call, and a command that fails may have been performed. -/
def exec (choice : Choice) (world : World) : (call : Call) → call.Answer × World
  | .auth call =>
    ((Auth.exec choice.toChoice world.auth call).1,
      { world with auth := (Auth.exec choice.toChoice world.auth call).2 })
  | .lockouts _ command =>
    let world := world.later choice.elapsed
    let performed := world.lockouts.exec world.clock command
    match choice.outcome with
    | .performed => (performed.1, { world with lockouts := performed.2 })
    | .refused => (.error disconnected, world)
    | .lost => (.error disconnected, { world with lockouts := performed.2 })
  | .compare userId valid =>
    let world := world.later choice.elapsed
    (.ok valid, { world with
      compared := world.compared ++ [⟨userId, valid, world.isLocked userId⟩] })
  | .turn => (.ok choice.left, world.later choice.elapsed)

/-- A method of the lockout service. -/
abbrev Service (α : Type) : Type := Fallible Call Call.Answer Failure α

def ask (purpose : Purpose) (command : Command Key) : Service command.Answer :=
  ExceptT.mk (.call (.lockouts purpose command) .done)

def dateNow : Service Int := ExceptT.mk (.call (.auth .now) .done)

def goesLeft : Call.Answer .turn → Bool
  | .ok left => left
  | .error _ => true

/-- `Promise.all` of two. -/
def all {α β : Type} (p : Service α) (q : Service β) : Service (α × β) :=
  both Call.turn goesLeft p q

namespace AccountLockoutService
variable (config : LockoutConfig)

def lockedStatus (purpose : Purpose) (lockKey : Key) : Service LockoutStatus := do
  let ttl : Int ← ask purpose (.ttl lockKey)
  let now ← dateNow
  return {
    isLocked := true
    failedAttempts := config.maxFailedAttempts
    lockoutExpiresAt := some (now + if 0 < ttl then ttl * 1000 else 0) }

def recordAttempt (attemptsKey lockKey : Key) : Service LockoutStatus := do
  let isLocked ← ask .record (.exists' lockKey)
  match isLocked with
  | true => lockedStatus config .record lockKey
  | false => do
    let attempts : Int ← ask .record
      (.incrWithTtl attemptsKey (config.resetWindowMinutes * 60))
    if config.maxFailedAttempts ≤ attempts then do
      ask .record (.set lockKey (.other "locked") (some (config.lockoutDurationMinutes * 60)))
      ask .record (.del attemptsKey)
      let now ← dateNow
      return {
        isLocked := true
        failedAttempts := attempts.toNat
        lockoutExpiresAt := some (now + config.lockoutDurationMinutes * 60 * 1000) }
    else return ⟨false, attempts.toNat, none⟩

def recordUserFailedAttempt (userId : String) : Service LockoutStatus :=
  recordAttempt config (.userAttempts userId) (.userLock userId)

def recordIpFailedAttempt (ip : String) : Service LockoutStatus :=
  recordAttempt config (.ipAttempts ip) (.ipLock ip)

/-- The first that is locked, else the first of those with the most attempts. -/
def mergeStatus : List LockoutStatus → LockoutStatus
  | [] => ⟨false, 0, none⟩
  | status :: rest => ((status :: rest).find? (·.isLocked)).getD
      (rest.foldl (fun max current =>
        if max.failedAttempts < current.failedAttempts then current else max) status)

/-- An id is not empty. -/
def recordFailedAttempt : Option String → String → Service LockoutStatus
  | none, ip => do
    let status ← recordIpFailedAttempt config ip
    return mergeStatus [status, status]
  | some userId, ip => do
    let statuses ← all (recordUserFailedAttempt config userId) (recordIpFailedAttempt config ip)
    return mergeStatus [statuses.1, statuses.2]

/-- A counter holds what was counted there. -/
def attemptsOf (attempts : Option Text) : Nat := ((attempts.bind Text.parseInt).getD 0).toNat

def checkKeys (attemptsKey lockKey : Key) : Service LockoutStatus := do
  let isLocked ← ask .check (.exists' lockKey)
  match isLocked with
  | true => lockedStatus config .check lockKey
  | false => do
    let attempts ← ask .check (.get attemptsKey)
    return ⟨false, attemptsOf attempts, none⟩

def checkUserStatus (userId : String) : Service LockoutStatus :=
  checkKeys config (.userAttempts userId) (.userLock userId)

def checkIpStatus (ip : String) : Service LockoutStatus :=
  checkKeys config (.ipAttempts ip) (.ipLock ip)

def checkStatus : Option String → String → Service LockoutStatus
  | none, ip => do
    let status ← checkIpStatus config ip
    return mergeStatus [status]
  | some userId, ip => do
    let statuses ← all (checkUserStatus config userId) (checkIpStatus config ip)
    return mergeStatus [statuses.1, statuses.2]

def clearKeys (attemptsKey lockKey : Key) : Service Unit := do
  let _ ← all (ask .clear (.del attemptsKey)) (ask .clear (.del lockKey))
  return

def clearUserLockout (userId : String) : Service Unit :=
  clearKeys (.userAttempts userId) (.userLock userId)

def clearIpLockout (ip : String) : Service Unit := clearKeys (.ipAttempts ip) (.ipLock ip)

def clearOnSuccess (userId ip : String) : Service Unit := do
  let _ ← all (clearUserLockout userId) (clearIpLockout ip)
  return

end AccountLockoutService

abbrev Method (α : Type) : Type := Fallible Call Call.Answer AuthError α

def call (op : Call) : Method op.Value :=
  ExceptT.mk (.call op fun answer => .done (answer.mapError .failure))

/-- What the lockout service throws goes through. -/
def served {α : Type} (p : Service α) : Method α :=
  ExceptT.mk (p.run >>= fun result => .done (result.mapError .failure))

/-- What does not concern the lockout is done as it is. -/
def asIs {α : Type} (p : Auth.Method α) : Method α :=
  interpretE (fun op => .call (.auth op) .done) p

namespace AuthService
open Auth.AuthService
variable (d : Deployment) (config : LockoutConfig)

/-- The right password. -/
def enter (user : Auth.User) (clientIp : String) : Method AuthResponseDto := do
  if user.accessBlocked then throw (.unauthorized "Account has been disabled")
  else if ← asIs (Auth.hasActiveBan user.id) then
    throw (.unauthorized "Account has been banned")
  else
    served (AccountLockoutService.clearOnSuccess user.id clientIp)
    return response user (← asIs (generateTokens d user))

def login (dto : LoginDto) (clientIp : String) : Method AuthResponseDto := do
  let lockoutStatus ← served (AccountLockoutService.checkStatus config none clientIp)
  if lockoutStatus.isLocked then
    let minutes ← asIs (lockoutRemainingMinutes lockoutStatus.lockoutExpiresAt)
    throw (.unauthorized s!"Too many failed attempts. Please try again after {minutes} minutes.")
  else
    let found : Option Auth.User ← call (.auth (.findByEmail dto.email))
    match credentials found with
    | none => do
      let _ ← served (AccountLockoutService.recordFailedAttempt config none clientIp)
      throw (.unauthorized "Invalid email or password")
    | some (user, passwordHash) => do
      let userLockoutStatus ←
        served (AccountLockoutService.checkStatus config (some user.id) clientIp)
      if userLockoutStatus.isLocked then
        let minutes ← asIs (lockoutRemainingMinutes userLockoutStatus.lockoutExpiresAt)
        throw (.unauthorized ("Account temporarily locked due to too many failed attempts. " ++
          s!"Please try again after {minutes} minutes."))
      else
        asIs (passCaptcha d
          (max lockoutStatus.failedAttempts userLockoutStatus.failedAttempts)
          dto.captchaToken clientIp)
        let isPasswordValid : Bool ←
          call (.compare user.id (d.compare dto.password passwordHash))
        match isPasswordValid with
        | false => do
          let _ ← served
            (AccountLockoutService.recordFailedAttempt config (some user.id) clientIp)
          throw (.unauthorized "Invalid email or password")
        | true => enter d user clientIp

end AuthService

theorem unlocked_of_merge {first second : LockoutStatus}
    (unlocked : (AccountLockoutService.mergeStatus [first, second]).isLocked = false) :
    first.isLocked = false ∧ second.isLocked = false := by
  rw [AccountLockoutService.mergeStatus] at unlocked
  cases locked : first.isLocked with
  | true =>
    rw [List.find?_cons_of_pos locked] at unlocked
    exact absurd (locked.symm.trans unlocked) (by decide)
  | false =>
    refine ⟨rfl, ?_⟩
    cases locked' : second.isLocked with
    | false => rfl
    | true =>
      rw [List.find?_cons_of_neg (by rw [locked]; decide), List.find?_cons_of_pos locked']
        at unlocked
      exact absurd (locked'.symm.trans unlocked) (by decide)

theorem mergeStatus_singleton (status : LockoutStatus) :
    AccountLockoutService.mergeStatus [status] = status := by
  rw [AccountLockoutService.mergeStatus]
  cases locked : status.isLocked with
  | true => rw [List.find?_cons_of_pos locked]; rfl
  | false => rw [List.find?_cons_of_neg (by rw [locked]; decide)]; rfl

section Footprint
variable (config : LockoutConfig)

def Key.IsLock : Key → Prop
  | .userLock _ | .ipLock _ => True
  | _ => False

/-- A lock is set, a counter is counted up, and everything else reads or removes. -/
def Sends : Command Key → Prop
  | .get _ | .exists' _ | .ttl _ | .del _ => True
  | .set key value _ => key.IsLock ∧ value = .other "locked"
  | .incrWithTtl key _ => ¬ key.IsLock
  | _ => False

namespace Call

/-- What the lockout service calls. -/
def Serves : Call → Prop
  | lockouts _ command => Sends command
  | turn | auth .now => True
  | _ => False

/-- What a login calls. -/
def Tries : Call → Prop
  | lockouts _ command => Sends command
  | _ => True

theorem Serves.tries {op : Call} (serves : op.Serves) : op.Tries := by
  cases op with
  | lockouts _ _ => exact serves
  | _ => trivial

end Call

variable {config} {A : Call → Prop} {α β : Type}

theorem onlyE_ask {purpose : Purpose} {command : Command Key}
    (may : A (.lockouts purpose command)) : OnlyE A (ask purpose command) :=
  ⟨may, fun _ => trivial⟩

theorem onlyE_dateNow (may : A (.auth .now)) : OnlyE A dateNow := ⟨may, fun _ => trivial⟩

theorem onlyE_call {op : Call} (may : A op) : OnlyE A (call op) := ⟨may, fun _ => trivial⟩

theorem onlyE_served {p : Service α} (only : OnlyE A p) : OnlyE A (served p) :=
  ⟨only.only.bind fun _ => trivial⟩

theorem wpE_served {X : Type} {spec : Program.OpSpec Call Call.Answer X} (p : Service α)
    (Q : Except AuthError α → X → Prop) (x : X) :
    wpE spec (served p) Q x = wpE spec p (fun r y => Q (r.mapError .failure) y) x := by
  change (p.run >>= _).wp _ _ _ = _
  rw [Program.wp_bind]
  rfl

theorem onlyE_asIs (p : Auth.Method α) (may : ∀ op, A (.auth op)) : OnlyE A (asIs p) :=
  OnlyE.interpretE ⟨Program.only_any p.run⟩ fun op _ => ⟨may op, fun _ => trivial⟩

namespace AccountLockoutService

/-- A command on a counter or its lock. -/
def On (attemptsKey lockKey : Key) (command : Command Key) : Prop :=
  command.key = attemptsKey ∨ command.key = lockKey

variable {attemptsKey lockKey : Key}

theorem onlyE_lockedStatus {purpose : Purpose} (now : A (.auth .now))
    (may : ∀ command, Sends command → On attemptsKey lockKey command →
      A (.lockouts purpose command)) : OnlyE A (lockedStatus config purpose lockKey) := by
  refine OnlyE.bind (onlyE_ask (may _ trivial (Or.inr rfl))) fun ttl => ?_
  exact OnlyE.bind (onlyE_dateNow now) fun now => onlyE_pure _

theorem onlyE_recordAttempt (counter : ¬ attemptsKey.IsLock) (lock : lockKey.IsLock)
    (now : A (.auth .now)) (may : ∀ command, Sends command → On attemptsKey lockKey command →
      A (.lockouts .record command)) : OnlyE A (recordAttempt config attemptsKey lockKey) := by
  refine OnlyE.bind (onlyE_ask (may _ trivial (Or.inr rfl))) fun isLocked => ?_
  cases isLocked with
  | true => exact onlyE_lockedStatus now may
  | false =>
    refine OnlyE.bind (onlyE_ask (may _ counter (Or.inl rfl))) fun attempts => ?_
    split
    · refine OnlyE.bind (onlyE_ask (may _ ⟨lock, rfl⟩ (Or.inr rfl))) fun _ => ?_
      refine OnlyE.bind (onlyE_ask (may _ trivial (Or.inl rfl))) fun _ => ?_
      exact OnlyE.bind (onlyE_dateNow now) fun now => onlyE_pure _
    · exact onlyE_pure _

theorem onlyE_recordFailedAttempt (userId : Option String) (ip : String) :
    OnlyE Call.Serves (recordFailedAttempt config userId ip) := by
  have address : OnlyE Call.Serves (recordIpFailedAttempt config ip) :=
    onlyE_recordAttempt not_false trivial trivial fun _ sends _ => sends
  cases userId with
  | none => exact OnlyE.bind address fun status => onlyE_pure _
  | some userId =>
    have account : OnlyE Call.Serves (recordUserFailedAttempt config userId) :=
      onlyE_recordAttempt not_false trivial trivial fun _ sends _ => sends
    exact OnlyE.bind (account.both address trivial) fun statuses => onlyE_pure _

theorem onlyE_checkKeys (now : A (.auth .now)) (may : ∀ command, Sends command →
      On attemptsKey lockKey command → A (.lockouts .check command)) :
    OnlyE A (checkKeys config attemptsKey lockKey) := by
  refine OnlyE.bind (onlyE_ask (may _ trivial (Or.inr rfl))) fun isLocked => ?_
  cases isLocked with
  | true => exact onlyE_lockedStatus now may
  | false =>
    exact OnlyE.bind (onlyE_ask (may _ trivial (Or.inl rfl))) fun attempts => onlyE_pure _

theorem onlyE_checkStatus (userId : Option String) (ip : String) :
    OnlyE Call.Serves (checkStatus config userId ip) := by
  have checks (attemptsKey lockKey : Key) :
      OnlyE Call.Serves (checkKeys config attemptsKey lockKey) :=
    onlyE_checkKeys trivial fun _ sends _ => sends
  cases userId with
  | none => exact OnlyE.bind (checks _ _) fun status => onlyE_pure _
  | some userId =>
    exact OnlyE.bind ((checks _ _).both (checks _ _) trivial) fun statuses => onlyE_pure _

theorem onlyE_clearKeys (turns : A .turn) (may : ∀ command, Sends command →
      On attemptsKey lockKey command → A (.lockouts .clear command)) :
    OnlyE A (clearKeys attemptsKey lockKey) := by
  have counter : OnlyE A (ask .clear (.del attemptsKey)) :=
    onlyE_ask (may _ trivial (Or.inl rfl))
  have lock : OnlyE A (ask .clear (.del lockKey)) := onlyE_ask (may _ trivial (Or.inr rfl))
  exact OnlyE.bind (counter.both lock turns) fun _ => onlyE_pure _

theorem onlyE_clearOnSuccess {userId ip : String} (turns : A .turn)
    (may : ∀ command, Sends command →
      On (.userAttempts userId) (.userLock userId) command ∨
        On (.ipAttempts ip) (.ipLock ip) command → A (.lockouts .clear command)) :
    OnlyE A (clearOnSuccess userId ip) := by
  have account : OnlyE A (clearUserLockout userId) :=
    onlyE_clearKeys turns fun _ sends on => may _ sends (Or.inl on)
  have address : OnlyE A (clearIpLockout ip) :=
    onlyE_clearKeys turns fun _ sends on => may _ sends (Or.inr on)
  exact OnlyE.bind (account.both address turns) fun _ => onlyE_pure _

end AccountLockoutService

open AccountLockoutService in
theorem onlyE_login (d : Deployment) (dto : LoginDto) (clientIp : String) :
    OnlyE Call.Tries (AuthService.login d config dto clientIp) := by
  have serves {γ : Type} {p : Service γ} (only : OnlyE Call.Serves p) :
      OnlyE Call.Tries (served p) :=
    onlyE_served (only.mono fun _ => Call.Serves.tries)
  have plain {γ : Type} (p : Auth.Method γ) : OnlyE Call.Tries (asIs p) :=
    onlyE_asIs p fun _ => trivial
  refine OnlyE.bind (serves (onlyE_checkStatus none clientIp)) fun lockoutStatus => ?_
  split
  · exact OnlyE.bind (plain _) fun minutes => onlyE_throw _
  · refine OnlyE.bind (onlyE_call trivial) fun found => ?_
    split
    · exact OnlyE.bind (serves (onlyE_recordFailedAttempt none clientIp)) fun _ => onlyE_throw _
    · rename_i user passwordHash _
      refine OnlyE.bind (serves (onlyE_checkStatus (some user.id) clientIp)) fun status => ?_
      split
      · exact OnlyE.bind (plain _) fun minutes => onlyE_throw _
      · refine OnlyE.bind (plain _) fun _ => ?_
        refine OnlyE.bind (onlyE_call trivial) fun valid => ?_
        split
        · exact OnlyE.bind (serves (onlyE_recordFailedAttempt (some user.id) clientIp))
            fun _ => onlyE_throw _
        · unfold AuthService.enter
          split
          · exact onlyE_throw _
          · refine OnlyE.bind (plain _) fun banned => ?_
            split
            · exact onlyE_throw _
            · refine OnlyE.bind (serves (onlyE_clearOnSuccess trivial fun _ sends _ => sends))
                fun _ => ?_
              exact OnlyE.bind (plain _) fun tokens => onlyE_pure _

end Footprint

section Methods
open Auth.AuthService

/-- Only the clock and the store of the sessions are read. -/
def Plain : Auth.Call → Prop
  | .now | .valkey (.get _) => True
  | _ => False

theorem plain_now : OnlyE Plain (Auth.call .now) := ⟨trivial, fun _ => trivial⟩

theorem plain_lockoutRemainingMinutes (time : Option Int) :
    OnlyE Plain (lockoutRemainingMinutes time) := by
  cases time with
  | none => exact onlyE_pure _
  | some time => exact plain_now.bind fun now => onlyE_pure _

theorem plain_hasActiveBan (userId : String) : OnlyE Plain (Auth.hasActiveBan userId) := by
  refine OnlyE.tryCatch ?_ fun _ => onlyE_pure _
  exact OnlyE.bind ⟨trivial, fun _ => trivial⟩ fun _ => onlyE_pure _

theorem plain_timed (d : Deployment) (expiresIn : String) (claims : Auth.Claims) :
    OnlyE Plain (Auth.timed d expiresIn claims) := by
  refine plain_now.bind fun now => ?_
  split
  · exact onlyE_throw _
  · exact onlyE_pure _

theorem plain_generateTokens (d : Deployment) (user : Auth.User) :
    OnlyE Plain (generateTokens d user) := by
  refine OnlyE.bind (OnlyE.bind (plain_timed _ _ _) fun _ => onlyE_pure _) fun _ => ?_
  exact OnlyE.bind (OnlyE.bind (plain_timed _ _ _) fun _ => onlyE_pure _) fun _ => onlyE_pure _

end Methods

/-- Logins that are under way at once, none of them begun. -/
def pool (d : Deployment) (config : LockoutConfig) (world : World)
    (logins : List (LoginDto × String)) :
    Pool World Call Call.Answer (Except AuthError AuthResponseDto) :=
  ⟨world, logins.map fun login => (AuthService.login d config login.1 login.2).run⟩

end Lockout
