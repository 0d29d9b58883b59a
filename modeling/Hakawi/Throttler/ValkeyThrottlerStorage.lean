import Hakawi.Common.ValkeyCalls
import Hakawi.Effects.Pool

/-!
# Throttler counters in Valkey

`incrementInValkey`, one store command at a time. The counter of a key and the
marker that blocks it are two Valkey keys. The availability probe and the counters
kept in memory during an outage are not part of it.
-/

namespace Throttler
open Common Effects

structure ValkeyThrottlerStorageRecord where
  totalHits : Int
  timeToExpire : Int
  isBlocked : Bool
  timeToBlockExpire : Int
  deriving DecidableEq, Repr

def hitsKey (throttlerName key : String) : String := s!"throttle:hits:{throttlerName}:{key}"

def blockKey (throttlerName key : String) : String := s!"throttle:block:{throttlerName}:{key}"

/-- `Math.max(0, Math.ceil(milliseconds / 1000))` -/
def toSeconds (milliseconds : Int) : Int := max 0 (-(-milliseconds / 1000))

def parseEpoch (raw : Option Text) (fallback : Int) : Int :=
  match raw with
  | none => fallback
  | some text => text.parseInt.getD fallback

/-- The arguments of one `increment`. -/
structure Tier where
  key : String
  /-- In milliseconds. -/
  ttl : Int
  limit : Nat
  /-- In milliseconds. -/
  blockDuration : Int
  throttlerName : String

namespace Tier
variable (tier : Tier)

def hits : String := hitsKey tier.throttlerName tier.key
def block : String := blockKey tier.throttlerName tier.key
def ttlSeconds : Int := toSeconds tier.ttl

/-- The end of `incrementInValkey`. -/
def report (now totalHits timeToExpire : Int) : Calls String ValkeyThrottlerStorageRecord :=
  if totalHits > tier.limit then do
    let timeToBlockExpire := toSeconds (max 0 tier.blockDuration)
    if tier.blockDuration > 0 then
      valkey (.set tier.block (.integer (now + tier.blockDuration)) (some timeToBlockExpire))
    else
      valkey (.del tier.hits)
    return ⟨totalHits, timeToExpire, true, timeToBlockExpire⟩
  else
    return ⟨totalHits, timeToExpire, false, 0⟩

/-- What `incrementInValkey` does once the counter has answered. -/
def withTotal (now totalHits : Int) : Calls String ValkeyThrottlerStorageRecord :=
  if totalHits > 1 then do
    let remaining : Int ← valkey (.ttl tier.hits)
    tier.report now totalHits (if remaining > 0 then remaining else tier.ttlSeconds)
  else
    tier.report now totalHits tier.ttlSeconds

/-- What `incrementInValkey` does when no block is in force. -/
def count (now : Int) : Calls String ValkeyThrottlerStorageRecord := do
  let totalHits : Int ←
    if tier.ttlSeconds > 0 then valkey (.incrWithTtl tier.hits tier.ttlSeconds)
    else valkey (.incr tier.hits)
  tier.withTotal now totalHits

/-- What `incrementInValkey` does with the marker it has read. -/
def withBlock (now : Int) (blockRaw : Option Text) : Calls String ValkeyThrottlerStorageRecord := do
  if blockRaw.isSome then
    let blockExpiresAt := parseEpoch blockRaw 0
    if blockExpiresAt > now then
      let raw : Option Text ← valkey (.get tier.hits)
      return ⟨parseEpoch raw 0, tier.ttlSeconds, true, toSeconds (blockExpiresAt - now)⟩
    else
      valkey (.del tier.block)
      tier.count now
  else
    tier.count now

def incrementInValkey : Calls String ValkeyThrottlerStorageRecord := do
  let now : Int ← now
  let blockRaw : Option Text ← valkey (.get tier.block)
  tier.withBlock now blockRaw

end Tier

/-- A call `elapsed` milliseconds after the last one; the store answers every call. -/
def exec (elapsed : Nat) (world : ValkeyWorld String) (call : Call String) :
    CallResult call × ValkeyWorld String :=
  let time : Int := world.clock + elapsed
  match call with
  | .now => (time, ⟨time, world.store⟩)
  | .valkey command => ((world.store.exec time command).1, ⟨time, (world.store.exec time command).2⟩)

abbrev Increments : Type :=
  Pool (ValkeyWorld String) (Call String) CallResult (Except Failure ValkeyThrottlerStorageRecord)

/-- Any number of increments of one key, none of which has begun. -/
def Tier.increments (tier : Tier) (world : ValkeyWorld String) (number : Nat) : Increments :=
  ⟨world, List.replicate number tier.incrementInValkey.run⟩

/-- The increment has reported blocked, or has reported not blocked. -/
def hasReported (isBlocked : Bool) :
    Program (Call String) CallResult (Except Failure ValkeyThrottlerStorageRecord) → Bool
  | .done (.ok record) => record.isBlocked == isBlocked
  | _ => false

def reported (isBlocked : Bool) (pool : Increments) : Nat :=
  pool.threads.countP (hasReported isBlocked)

theorem hitsKey_ne_blockKey (throttlerName key throttlerName' key' : String) :
    hitsKey throttlerName key ≠ blockKey throttlerName' key' := by
  change "throttle:hits:" ++ throttlerName ++ ":" ++ key ≠
    "throttle:block:" ++ throttlerName' ++ ":" ++ key'
  rw [String.append_assoc, String.append_assoc, String.append_assoc, String.append_assoc]
  exact Valkey.append_ne_append (n := 10) (by decide) (by decide) (by decide) _ _

end Throttler
