import Hakawi.Common.ValkeyCalls
import Hakawi.Effects.Pool
import Mathlib.Data.List.Nodup

/-!
# The second factor

The calls of the service for one user: his row, and the two keys of the store that hold the codes
of a setup that is not completed and the backup codes. Both are kept encrypted and read by nobody
else, so the model keeps what they decrypt to. A list of codes is read and written as a whole.
-/

namespace Mfa
open Common Effects

def TOTP_SECRET_TTL : Int := 10 * 60
def BACKUP_CODES_TTL : Int := 365 * 24 * 60 * 60
def BACKUP_CODES_COUNT : Nat := 8

/-- A code that was generated; two with the same text are told apart by their serials. -/
structure BackupCode where
  text : String
  serial : Nat
  deriving DecidableEq

abbrev serials (codes : List BackupCode) : List Nat := codes.map BackupCode.serial

structure BackupCodes where
  codes : List BackupCode
  distinct : (serials codes).Nodup

namespace BackupCodes

def empty : BackupCodes := ⟨[], List.nodup_nil⟩

/-- Codes with the serials from a number on. -/
def numbered (first : Nat) (texts : List String) : BackupCodes where
  codes := texts.zipIdx.map fun entry => ⟨entry.1, first + entry.2⟩
  distinct := by
    have indices : texts.zipIdx.map Prod.snd = List.range' 0 texts.length := by simp
    have numbers : serials (texts.zipIdx.map fun entry => ⟨entry.1, first + entry.2⟩) =
        (List.range' 0 texts.length).map (first + ·) := by
      rw [← indices, serials, List.map_map, List.map_map]
      rfl
    rw [numbers]
    exact List.Nodup.map (fun _ _ => Nat.add_left_cancel) List.nodup_range'

/-- `splice(i, 1)` -/
def splice (list : BackupCodes) (i : Nat) : BackupCodes where
  codes := list.codes.eraseIdx i
  distinct := by
    rw [serials, ← List.eraseIdx_map]
    exact list.distinct.eraseIdx i

theorem le_serial {first : Nat} {texts : List String} {code : BackupCode}
    (member : code ∈ (numbered first texts).codes) :
    first ≤ code.serial ∧ code.serial < first + texts.length := by
  obtain ⟨⟨text, i⟩, entry, rfl⟩ := List.mem_map.mp member
  have below := List.snd_lt_of_mem_zipIdx entry
  constructor
  · exact Nat.le_add_right _ _
  · change first + i < first + texts.length
    omega

end BackupCodes

structure StoredTotpSecret where
  secret : String
  backupCodes : BackupCodes

structure User where
  mfaEnabled : Bool
  totpSecret : Option String
  deriving DecidableEq

inductive Event where
  | enabled
  | disabled
  deriving DecidableEq

inductive Call where
  | findById
  /-- `update(userId, { totpSecretEncrypted, mfaEnabled: true, … })` -/
  | enable (secret : String)
  | disable
  | generateSecret
  | generateBackupCodes
  /-- `speakeasy.totp.verify` -/
  | totpVerify (secret token : String)
  | getSetup
  | setSetup (secret : String) (texts : List String)
  | delSetup
  | getCodes
  /-- The codes of a setup are stored. -/
  | install (codes : BackupCodes)
  /-- New codes are stored. -/
  | replace (texts : List String)
  /-- The codes that were read are stored without one of them. -/
  | spend (read : BackupCodes) (i : Nat)
  | delCodes
  | emit (event : Event)

namespace Call

abbrev Value : Call → Type
  | findById => Option User
  | generateSecret => String
  | generateBackupCodes => List String
  | totpVerify _ _ => Bool
  | getSetup => Option StoredTotpSecret
  | getCodes => Option BackupCodes
  | _ => Unit

abbrev Answer (call : Call) : Type := Except Failure call.Value

def mayFail : Call → Bool
  | generateSecret | generateBackupCodes | totpVerify _ _ => false
  | _ => true

end Call

/-- The end of a code. -/
inductive Mark where
  /-- It was taken off the list by the verification that it passed. -/
  | verified (serial : Nat)
  /-- The list was replaced or discarded while it was on it. -/
  | discarded (serial : Nat)
  deriving DecidableEq

namespace Mark

def serial : Mark → Nat
  | verified serial | discarded serial => serial

def isVerified : Mark → Bool
  | verified _ => true
  | discarded _ => false

end Mark

structure World where
  /-- In milliseconds. -/
  clock : Int
  user : Option User
  setup : Option (StoredTotpSecret × Int)
  codes : Option (BackupCodes × Int)
  events : List Event
  /-- What has become of codes that were on the list. -/
  marks : List Mark
  /-- The serials of all codes that ever were on the list. -/
  issued : List Nat
  /-- No code has this serial or a greater one. -/
  next : Nat

/-- What the environment decides at a call. -/
structure Choice where
  /-- Milliseconds since the last call. -/
  elapsed : Nat := 0
  outcome : Outcome := .performed
  secret : String := ""
  random : Nat → String := fun n => toString n
  totp : Bool := false

namespace World

/-- The codes on the list, expired or not. -/
def listed (world : World) : BackupCodes := (world.codes.map Prod.fst).getD .empty

/-- What has not expired. -/
def live {α : Type} (world : World) (cell : Option (α × Int)) : Option α :=
  (cell.filter fun stored => world.clock < stored.2).map Prod.fst

def discardAll (world : World) : List Mark :=
  world.marks ++ (serials world.listed.codes).map .discarded

def bound (codes : BackupCodes) (next : Nat) : Nat :=
  (serials codes.codes).foldr (fun serial next => max (serial + 1) next) next

/-- Other codes are put on the list. -/
def install (world : World) (codes : BackupCodes) : World :=
  { world with
    codes := some (codes, world.clock + BACKUP_CODES_TTL * 1000)
    marks := world.discardAll
    issued := world.issued ++ serials codes.codes
    next := bound codes world.next }

def perform (choice : Choice) (world : World) : (call : Call) → call.Answer × World
  | .findById => (.ok world.user, world)
  | .enable secret => (.ok (), { world with user := world.user.map fun _ => ⟨true, some secret⟩ })
  | .disable => (.ok (), { world with user := world.user.map fun _ => ⟨false, none⟩ })
  | .generateSecret => (.ok choice.secret, world)
  | .generateBackupCodes => (.ok ((List.range BACKUP_CODES_COUNT).map choice.random), world)
  | .totpVerify _ _ => (.ok choice.totp, world)
  | .getSetup => (.ok (world.live world.setup), world)
  | .setSetup secret texts => (.ok (), { world with
      setup := some (⟨secret, .numbered world.next texts⟩, world.clock + TOTP_SECRET_TTL * 1000)
      next := world.next + texts.length })
  | .delSetup => (.ok (), { world with setup := none })
  | .getCodes => (.ok (world.live world.codes), world)
  | .install codes => (.ok (), world.install codes)
  | .replace texts => (.ok (), world.install (.numbered world.next texts))
  | .spend read i => (.ok (), { world with
      codes := some (read.splice i, world.clock + BACKUP_CODES_TTL * 1000)
      marks := world.marks ++ (read.codes[i]?.map fun code => .verified code.serial).toList })
  | .delCodes => (.ok (), { world with codes := none, marks := world.discardAll })
  | .emit event => (.ok (), { world with events := world.events ++ [event] })

end World

/-- Some time passes before the call, and a call that fails may have been performed. -/
def exec (choice : Choice) (world : World) (call : Call) : call.Answer × World :=
  let world := { world with clock := world.clock + choice.elapsed }
  match call.mayFail, choice.outcome with
  | true, .refused => (.error disconnected, world)
  | true, .lost => (.error disconnected, (world.perform choice call).2)
  | _, _ => world.perform choice call

abbrev Method (α : Type) : Type := Fallible Call Call.Answer Failure α

def call (op : Call) : Method op.Value := ExceptT.mk (.call op .done)

structure MfaVerificationResult where
  verified : Bool
  backupCodeUsed : Option Bool := none
  deriving DecidableEq

namespace MfaService

/-- The secret and the texts of the codes, as the user is told. -/
def initiateSetup : Method (String × List String) := do
  match ← call .findById with
  | none => throw (.notFound "User not found")
  | some user =>
    if user.mfaEnabled then throw (.badRequest "MFA is already enabled for this account")
    else do
      let secret ← call .generateSecret
      let backupCodes ← call .generateBackupCodes
      call (.setSetup secret backupCodes)
      return (secret, backupCodes)

def completeSetup (token : String) : Method BackupCodes := do
  match ← call .getSetup with
  | none => throw (.badRequest
      "MFA setup session expired or not found. Please restart setup.")
  | some ⟨secret, backupCodes⟩ => do
    match ← call (.totpVerify secret token) with
    | false => throw (.badRequest "Invalid verification code")
    | true => do
      call (.enable secret)
      call (.install backupCodes)
      call .delSetup
      call (.emit .enabled)
      return backupCodes

/-- The secret of a user with a second factor. -/
def enabledSecret (found : Option User) : Option String :=
  found.bind fun user => if user.mfaEnabled then user.totpSecret.filter (· ≠ "") else none

def verifyBackupCode (stored : Option BackupCodes) (token : String) :
    Method MfaVerificationResult := do
  match stored with
  | none => return { verified := false }
  | some storedCodes =>
    match storedCodes.codes.findIdx? fun code => code.text = token with
    | none => return { verified := false }
    | some i => do
      call (.spend storedCodes i)
      return { verified := true, backupCodeUsed := some true }

def verifyToken (token : String) : Method MfaVerificationResult := do
  match enabledSecret (← call .findById) with
  | none => return { verified := false }
  | some secret => do
    match ← call (.totpVerify secret token) with
    | true => return { verified := true, backupCodeUsed := some false }
    | false => verifyBackupCode (← call .getCodes) token

def disableMfa : Method Unit := do
  match ← call .findById with
  | none => throw (.badRequest "MFA is not enabled for this account")
  | some user =>
    if user.mfaEnabled then do
      call .disable
      call .delCodes
      call .delSetup
      call (.emit .disabled)
    else throw (.badRequest "MFA is not enabled for this account")

def regenerateBackupCodes : Method (List String) := do
  match ← call .findById with
  | none => throw (.badRequest "MFA is not enabled for this account")
  | some user =>
    if user.mfaEnabled then do
      let backupCodes ← call .generateBackupCodes
      call (.replace backupCodes)
      return backupCodes
    else throw (.badRequest "MFA is not enabled for this account")

end MfaService

/-- What is asked of the service. -/
inductive Operation where
  | initiateSetup
  | completeSetup (token : String)
  | verifyToken (token : String)
  | disableMfa
  | regenerateBackupCodes
  deriving DecidableEq

def Operation.run : Operation → Method Unit
  | initiateSetup => do let _ ← MfaService.initiateSetup
  | completeSetup token => do let _ ← MfaService.completeSetup token
  | verifyToken token => do let _ ← MfaService.verifyToken token
  | disableMfa => MfaService.disableMfa
  | regenerateBackupCodes => do let _ ← MfaService.regenerateBackupCodes

/-- The calls at hand, none of them begun. -/
def pool (world : World) (operations : List Operation) :
    Pool World Call Call.Answer (Except Failure Unit) :=
  ⟨world, operations.map fun operation => operation.run.run⟩

end Mfa
