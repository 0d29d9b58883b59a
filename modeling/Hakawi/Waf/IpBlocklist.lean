import Hakawi.Common.ValkeyCalls
import Hakawi.Waf.Rules

/-!
# The blocklist of addresses

`IpBlocklistService`. A record lies under the key of its address, and a set keeps the
addresses that have one. Every method answers a failure of the store with a value of
its own. What the service notes for its health report is not part of it.
-/

namespace Waf
open Html Common Effects

inductive BlockKind where
  | temporary
  | permanent
  deriving DecidableEq, Repr

structure BlockRecord where
  ip : Units
  kind : BlockKind
  reason : String
  ruleId : Option String
  blockedAt : Rat
  expiresAt : Option Rat
  deriving DecidableEq

structure BlockOptions where
  reason : String
  ruleId : Option String := none
  kind : BlockKind
  ttlSeconds : Option Int := none
  now : Option Int := none

def KEY_PREFIX : Units := units "waf:ip-blocked"
def INDEX_KEY : Units := KEY_PREFIX ++ units ":index"
def VIOLATION_PREFIX : Units := units "waf:ip-violations"

def blockKey (ip : Units) : Units := KEY_PREFIX ++ units ":" ++ ip

def violationKey (ip : Units) : Units := VIOLATION_PREFIX ++ units ":" ++ ip

def BlockKind.text : BlockKind → String
  | temporary => "temporary"
  | permanent => "permanent"

def BlockRecord.toJson (record : BlockRecord) : Json := .obj [
  ("ip", .str (text record.ip)),
  ("kind", .str record.kind.text),
  ("reason", .str record.reason),
  ("ruleId", record.ruleId.elim .null .str),
  ("blockedAt", .num record.blockedAt),
  ("expiresAt", record.expiresAt.elim .null .num)]

def parseBlockRecord (ip : Units) (raw : Text) : Option BlockRecord :=
  match raw.parseJson with
  | some (.obj fields) =>
    let record := Json.obj fields
    some {
      ip := ip
      kind := if record.stringField? "kind" = some "permanent" then .permanent else .temporary
      reason := (record.stringField? "reason").getD "unreadable-block-record"
      ruleId := record.stringField? "ruleId"
      blockedAt := (record.numberField? "blockedAt").getD 0
      expiresAt := record.numberField? "expiresAt" }
  | _ => none

namespace BlockOptions
variable (options : BlockOptions)

/-- `ttlSeconds` of `block` -/
def keptFor : Option Int :=
  match options.kind with
  | .permanent => none
  | .temporary => some (options.ttlSeconds.getD 3600)

def payload (ip : Units) (now : Int) : BlockRecord where
  ip := ip
  kind := options.kind
  reason := options.reason
  ruleId := options.ruleId
  blockedAt := now
  expiresAt := options.keptFor.map fun seconds => ((now + seconds * 1000 : Int) : Rat)

end BlockOptions

namespace IpBlocklist

/-- What `block` does, knowing the time. -/
def store (ip : Units) (options : BlockOptions) (now : Int) : Calls Units Bool := do
  try
    valkey (.set (blockKey ip) (.json (options.payload ip now).toJson) options.keptFor)
    valkey (.sadd INDEX_KEY ip)
    pure true
  catch _ =>
    pure false

def block (ip : Units) (options : BlockOptions) : Calls Units Bool := do
  let now : Int ← match options.now with
    | some now => pure now
    | none => now
  store ip options now

def unreadable (ip : Units) : BlockRecord where
  ip := ip
  kind := .temporary
  reason := "unreadable-block-record"
  ruleId := none
  blockedAt := 0
  expiresAt := none

/-- What `isBlocked` makes of what it finds. -/
def recordOf (ip : Units) (raw : Option Text) : Option BlockRecord :=
  raw.map fun raw => (parseBlockRecord ip raw).getD (unreadable ip)

def isBlocked (ip : Units) : Calls Units (Option BlockRecord) := do
  if ip.length = 0 then
    pure none
  else
    try
      let raw : Option Text ← valkey (.get (blockKey ip))
      pure (recordOf ip raw)
    catch _ =>
      pure none

def unblock (ip : Units) : Calls Units Bool := do
  try
    let removed : Bool ← valkey (.exists' (blockKey ip))
    valkey (.del (blockKey ip))
    valkey (.srem INDEX_KEY ip)
    valkey (.del (violationKey ip))
    pure removed
  catch _ =>
    pure false

/-- The loop of `listBlocked`. -/
def listFrom : List Units → List BlockRecord → Calls Units (List BlockRecord)
  | [], records => return records
  | ip :: rest, records => do
    match ← isBlocked ip with
    | none =>
      valkey (.srem INDEX_KEY ip)
      listFrom rest records
    | some record => listFrom rest (records ++ [record])

def listBlocked : Calls Units (List BlockRecord) := do
  try
    let ips : List Units ← valkey (.smembers INDEX_KEY)
    listFrom ips []
  catch _ =>
    pure []

def countViolations (ip : Units) : Calls Units Int := do
  try
    let raw : Option Text ← valkey (.get (violationKey ip))
    pure ((raw.bind Text.parseInt).getD 0)
  catch _ =>
    pure 0

def recordViolation (ip : Units) (windowSeconds : Int) : Calls Units Int := do
  try
    valkey (.incrWithTtl (violationKey ip) windowSeconds)
  catch _ =>
    pure 0

def clearViolations (ip : Units) : Calls Units Unit := do
  try
    valkey (.del (violationKey ip))
  catch _ =>
    pure ()

end IpBlocklist
end Waf
