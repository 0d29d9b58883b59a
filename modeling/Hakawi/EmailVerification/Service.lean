import Hakawi.Common.ValkeyCalls
import Hakawi.Effects.Pool

/-!
# Verification of emails

A code of six digits is minted for the user with an email and sent to him. The store keeps under
the code whom it is for, and under the email which code was minted last, which nobody reads. Beside
the store stands for whom each code was stored since it was last removed.
-/

namespace EmailVerification
open Common Effects

def VERIFICATION_TOKEN_LENGTH : Nat := 6
def VERIFICATION_TOKEN_MIN : Nat := 10 ^ (VERIFICATION_TOKEN_LENGTH - 1)
def VERIFICATION_TOKEN_MAX : Nat := 10 ^ VERIFICATION_TOKEN_LENGTH
def VERIFICATION_TOKEN_TTL : Int := 24 * 60 * 60
def RESEND_COOLDOWN_TTL : Int := 60

def MESSAGE_SENT : String := "Verification email sent"

def MESSAGE_NOT_SENT : String :=
  "Verification email could not be sent. Please try again later or contact support."

/-- What the DTO of a verification accepts. -/
abbrev Token : Type := { text : String // text.length = VERIFICATION_TOKEN_LENGTH }

/-- What the DTOs accept as an email is not empty. -/
abbrev Email : Type := { text : String // text ≠ "" }

/-- What `crypto.randomInt` draws. -/
abbrev Draw : Type := { n : Nat // VERIFICATION_TOKEN_MIN ≤ n ∧ n < VERIFICATION_TOKEN_MAX }

theorem length_repr_draw (n : Draw) : n.val.repr.length = VERIFICATION_TOKEN_LENGTH := by
  obtain ⟨n, large, small⟩ := n
  have upper : n.repr.length ≤ 6 := (Nat.length_repr_le_iff (by decide)).mpr small
  have lower : ¬ n.repr.length ≤ 5 := fun short =>
    absurd ((Nat.length_repr_le_iff (by decide)).mp short) (Nat.not_lt.mpr large)
  change n.repr.length = 6
  omega

/-- `toString()` -/
def Draw.token (n : Draw) : Token := ⟨n.val.repr, length_repr_draw n⟩

inductive Key where
  | code (token : Token)
  | email (email : Email)
  | cooldown (email : Email)
  deriving DecidableEq

def VERIFICATION_TOKEN_PREFIX : String := "email:verify:"
def RESEND_COOLDOWN_PREFIX : String := "email:resend:cooldown:"

def Key.text : Key → String
  | code token => VERIFICATION_TOKEN_PREFIX ++ token.val
  | email address => VERIFICATION_TOKEN_PREFIX ++ ("email:" ++ address.val)
  | cooldown address => RESEND_COOLDOWN_PREFIX ++ address.val

structure User where
  id : String
  email : Email
  emailVerified : Bool
  deriving DecidableEq

inductive Event where
  | verified (userId : String) (email : Email)
  | requested (userId : String) (email : Email)
  deriving DecidableEq

inductive Call where
  | findByEmail (email : Email)
  | findById (id : String)
  /-- `update(id, { emailVerified: true, … })` -/
  | markVerified (id : String)
  | randomInt
  | get (key : Key)
  /-- Whom a code is for, for the time to live of a token. -/
  | setCode (token : Token) (userId : String)
  /-- The code that was minted last, for the same time. -/
  | setEmail (email : Email) (draw : Draw)
  | armCooldown (email : Email)
  | del (key : Key)
  | send (email : Email) (token : Token)
  | emit (event : Event)

namespace Call

abbrev Value : Call → Type
  | findByEmail _ | findById _ => Option User
  | randomInt => Draw
  | get _ => Option Text
  | armCooldown _ | send _ _ => Bool
  | markVerified _ | setCode _ _ | setEmail _ _ | del _ | emit _ => Unit

abbrev Answer (call : Call) : Type := Except Failure call.Value

/-- Sending reports a failure, it does not throw. -/
def mayFail : Call → Bool
  | randomInt | send _ _ => false
  | _ => true

end Call

/-- That a code was stored for a user. -/
structure Minted where
  userId : String
  mintedAt : Int
  deriving DecidableEq

def Minted.expiresAt (minted : Minted) : Int := minted.mintedAt + VERIFICATION_TOKEN_TTL * 1000

/-- What the store keeps under the code. -/
def Minted.entry (minted : Minted) : Entry Key :=
  ⟨.text (.other minted.userId), some minted.expiresAt⟩

structure World where
  /-- In milliseconds. -/
  clock : Int
  store : Valkey Key
  /-- For whom a code was stored since it was last removed. -/
  minted : Token → List Minted
  users : List User
  mails : List (Email × Token)
  events : List Event

/-- What the environment decides at a call. -/
structure Choice where
  /-- Milliseconds since the last call. -/
  elapsed : Nat := 0
  outcome : Outcome := .performed
  drawn : Draw := ⟨100000, by decide⟩
  delivered : Bool := true

namespace World

def findById (world : World) (id : String) : Option User := world.users.find? (·.id = id)

def Verified (world : World) (id : String) : Prop :=
  ∃ user ∈ world.users, user.id = id ∧ user.emailVerified = true

instance (world : World) (id : String) : Decidable (world.Verified id) :=
  inferInstanceAs (Decidable (∃ _ ∈ _, _))

def perform (choice : Choice) (world : World) : (call : Call) → call.Answer × World
  | .findByEmail email => (.ok (world.users.find? (·.email = email)), world)
  | .findById id => (.ok (world.findById id), world)
  | .markVerified id => (.ok (), { world with users := world.users.map fun user =>
      if user.id = id then { user with emailVerified := true } else user })
  | .randomInt => (.ok choice.drawn, world)
  | .get key => (world.store.get world.clock key, world)
  | .setCode token userId => (.ok (), { world with
      store := world.store.put (.code token) (some (Minted.entry ⟨userId, world.clock⟩))
      minted := Function.update world.minted token
        (world.minted token ++ [⟨userId, world.clock⟩]) })
  | .setEmail email draw => (.ok (), { world with
      store := world.store.put (.email email) (some ⟨.text (.integer draw.val),
        some (world.clock + VERIFICATION_TOKEN_TTL * 1000)⟩) })
  | .armCooldown email =>
    if world.store.exists' world.clock (.cooldown email) then (.ok false, world)
    else (.ok true, { world with
      store := world.store.put (.cooldown email) (some ⟨.text (.integer 1),
        some (world.clock + RESEND_COOLDOWN_TTL * 1000)⟩) })
  | .del key => (.ok (), { world with
      store := world.store.del key
      minted := match key with
        | .code token => Function.update world.minted token []
        | _ => world.minted })
  | .send email token => (.ok choice.delivered, { world with
      mails := if choice.delivered then world.mails ++ [(email, token)] else world.mails })
  | .emit event => (.ok (), { world with events := world.events ++ [event] })

end World

/-- Some time passes before the call, and a call that fails may have been performed. -/
def exec (choice : Choice) (world : World) (call : Call) : call.Answer × World :=
  let world := { world with clock := world.clock + choice.elapsed }
  match call.mayFail, choice.outcome with
  | true, .refused => (.error disconnected, world)
  | true, .lost => (.error disconnected, (world.perform choice call).2)
  | _, _ => world.perform choice call

abbrev Method (α : Type) : Type := Fallible Call Call.Answer Failure α

def call (op : Call) : Method op.Value := ExceptT.mk (.call op .done)

namespace EmailVerificationService

def mintToken (email : Email) : Method (Token × Bool) := do
  match ← call (.findByEmail email) with
  | none => throw (.notFound "User not found")
  | some user => do
    let draw ← call .randomInt
    let token := Draw.token draw
    call (.setCode token user.id)
    call (.setEmail email draw)
    let delivered ← call (.send user.email token)
    return (token, delivered)

def generateToken (email : Email) : Method Token := do
  let minted ← mintToken email
  return minted.1

/-- The user a code is for. -/
def userIdOf : Option Text → Option String
  | some (.other userId) => if userId = "" then none else some userId
  | _ => none

def verifyToken (token : Token) : Method String := do
  match userIdOf (← call (.get (.code token))) with
  | none => throw (.badRequest "Invalid or expired verification token")
  | some userId => do
    match ← call (.findById userId) with
    | none => throw (.notFound "User not found")
    | some user => do
      call (.markVerified userId)
      call (.del (.code token))
      call (.del (.email user.email))
      call (.emit (.verified userId user.email))
      return userId

/-- A mail that did not go out does not lock the caller out. -/
def releaseCooldown (email : Email) (delivered : Bool) : Method Unit :=
  if delivered then pure () else call (.del (.cooldown email))

def resend (email : Email) : Method String := do
  match ← call (.findByEmail email) with
  | none => throw (.notFound "User not found")
  | some user =>
    if user.emailVerified then throw (.badRequest "Email is already verified")
    else do
      match ← call (.armCooldown email) with
      | false => throw (.badRequest "Please wait before requesting another verification email")
      | true => do
        let minted ← mintToken email
        releaseCooldown email minted.2
        call (.emit (.requested user.id user.email))
        return if minted.2 then MESSAGE_SENT else MESSAGE_NOT_SENT

end EmailVerificationService

/-- What is asked of the service. -/
inductive Operation where
  | generateToken (email : Email)
  | resend (email : Email)
  | verifyToken (token : Token)
  deriving DecidableEq

def Operation.run : Operation → Method Unit
  | generateToken email => do let _ ← EmailVerificationService.generateToken email
  | resend email => do let _ ← EmailVerificationService.resend email
  | verifyToken token => do let _ ← EmailVerificationService.verifyToken token

/-- The calls at hand, none of them begun. -/
def pool (world : World) (operations : List Operation) :
    Pool World Call Call.Answer (Except Failure Unit) :=
  ⟨world, operations.map fun operation => operation.run.run⟩

end EmailVerification
