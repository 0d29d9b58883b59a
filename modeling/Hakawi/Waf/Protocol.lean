import Hakawi.Waf.Middleware
import Hakawi.Effects.Pool

/-!
# The calls of the firewall

Which commands the blocklist and the middleware send, whatever the store answers;
and that none of their methods throws.
-/

namespace Waf
open Html Common Effects

/-- The text under the key of an address, with its time to live. -/
def BlockRecord.ttl (record : BlockRecord) (seconds : Int) : Option Int :=
  match record.kind with
  | .permanent => none
  | .temporary => some seconds

inductive Sends : Call Units → Prop where
  | now : Sends .now
  | get (key : Units) : Sends (.valkey (.get key))
  | exists' (key : Units) : Sends (.valkey (.exists' key))
  | smembers (key : Units) : Sends (.valkey (.smembers key))
  | record (ip : Units) (record : BlockRecord) (seconds : Int) :
    Sends (.valkey (.set (blockKey ip) (.json record.toJson) (record.ttl seconds)))
  | list (ip : Units) : Sends (.valkey (.sadd INDEX_KEY ip))
  | unlist (ip : Units) : Sends (.valkey (.srem INDEX_KEY ip))
  | release (ip : Units) : Sends (.valkey (.del (blockKey ip)))
  | count (ip : Units) (seconds : Int) : Sends (.valkey (.incrWithTtl (violationKey ip) seconds))
  | forget (ip : Units) : Sends (.valkey (.del (violationKey ip)))

/-- Nothing has to be remembered between the calls. -/
def protocol : Protocol (Call Units) CallResult Unit := ⟨fun _ => Sends, fun _ _ _ => ()⟩

/-- The method sends only such commands, and returns. -/
def Returns {α : Type} (method : Calls Units α) : Prop :=
  ∀ u, wpE protocol.spec method (fun result _ => ∃ a, result = .ok a) u

/-- The method sends only such commands; it may throw. -/
def Stays {α : Type} (method : Calls Units α) : Prop :=
  ∀ u, wpE protocol.spec method (fun _ _ => True) u

variable {α β : Type}

theorem Returns.pure (a : α) : Returns (Pure.pure a) := fun _ => ⟨a, rfl⟩

theorem Returns.bind {method : Calls Units α} {next : α → Calls Units β} (first : Returns method)
    (rest : ∀ a, Returns (next a)) : Returns (method >>= next) := by
  intro u
  rw [wpE_bind]
  refine wpE_mono protocol.spec_monotone (fun result u returned => ?_) (first u)
  obtain ⟨a, rfl⟩ := returned
  exact rest a u

theorem Returns.stays {method : Calls Units α} (returns : Returns method) : Stays method :=
  fun u => wpE_mono protocol.spec_monotone (fun _ _ _ => trivial) (returns u)

theorem Stays.bind {method : Calls Units α} {next : α → Calls Units β} (first : Stays method)
    (rest : ∀ a, Stays (next a)) : Stays (method >>= next) := by
  intro u
  rw [wpE_bind]
  refine wpE_mono protocol.spec_monotone (fun result u _ => ?_) (first u)
  cases result with
  | error e => trivial
  | ok a => exact rest a u

theorem Stays.call {command : Command Units} (sends : Sends (.valkey command)) :
    Stays (valkey command) := fun _ => ⟨sends, fun _ => trivial⟩

/-- What may throw is caught. -/
theorem Returns.caught {method : Calls Units α} {handler : Failure → Calls Units α}
    (body : Stays method) (handled : ∀ e, Returns (handler e)) :
    Returns (tryCatch method handler) := by
  intro u
  rw [wpE_tryCatch]
  refine wpE_mono protocol.spec_monotone (fun result u _ => ?_) (body u)
  cases result with
  | error e => exact handled e u
  | ok a => exact ⟨a, rfl⟩

namespace IpBlocklist

theorem returns_now : Returns (now : Calls Units Int) := fun _ => ⟨.now, fun time => ⟨time, rfl⟩⟩

theorem returns_store (ip : Units) (options : BlockOptions) (now : Int) :
    Returns (store ip options now) := by
  refine .caught ?_ fun _ => .pure false
  refine .bind ?_ fun _ => ?_
  · have sends := Sends.record ip (options.payload ip now) (options.ttlSeconds.getD 3600)
    exact .call sends
  · exact .bind (.call (.list ip)) fun _ => (Returns.pure true).stays

theorem returns_block (ip : Units) (options : BlockOptions) : Returns (block ip options) := by
  rw [block]
  split
  · exact .bind (.pure _) fun now => returns_store ip options now
  · exact .bind returns_now fun now => returns_store ip options now

theorem returns_isBlocked (ip : Units) : Returns (isBlocked ip) := by
  rw [isBlocked]
  split
  · exact .pure none
  · refine .caught (.bind (.call (.get _)) fun raw => ?_) fun _ => .pure none
    exact (Returns.pure _).stays

theorem returns_unblock (ip : Units) : Returns (unblock ip) := by
  refine .caught ?_ fun _ => .pure false
  refine .bind (.call (.exists' _)) fun removed => ?_
  refine .bind (.call (.release ip)) fun _ => ?_
  refine .bind (.call (.unlist ip)) fun _ => ?_
  refine .bind (.call (.forget ip)) fun _ => ?_
  exact (Returns.pure _).stays

theorem returns_recordViolation (ip : Units) (windowSeconds : Int) :
    Returns (recordViolation ip windowSeconds) :=
  .caught (.call (.count ip windowSeconds)) fun _ => .pure 0

theorem returns_countViolations (ip : Units) : Returns (countViolations ip) :=
  .caught (.bind (.call (.get _)) fun _ => (Returns.pure _).stays) fun _ => .pure 0

theorem returns_clearViolations (ip : Units) : Returns (clearViolations ip) :=
  .caught (.call (.forget ip)) fun _ => .pure ()

theorem stays_listFrom (ips : List Units) (records : List BlockRecord) :
    Stays (listFrom ips records) := by
  induction ips generalizing records with
  | nil => exact (Returns.pure records).stays
  | cons ip rest ih =>
    refine .bind (returns_isBlocked ip).stays fun found => ?_
    cases found with
    | none => exact .bind (.call (.unlist ip)) fun _ => ih records
    | some record => exact ih _

theorem returns_listBlocked : Returns listBlocked :=
  .caught (.bind (.call (.smembers INDEX_KEY)) fun ips => stays_listFrom ips []) fun _ => .pure []

end IpBlocklist

namespace WafMiddleware
variable (waf : WafMiddleware)

theorem returns_escalateCount (violation : WafViolation) (ip : Units) (count : Int) :
    Returns (waf.escalateCount violation ip count) := by
  rw [escalateCount]
  split
  · exact .bind (IpBlocklist.returns_block _ _) fun _ => .pure ()
  · split
    · exact .bind (IpBlocklist.returns_block _ _) fun _ => .pure ()
    · exact .pure ()

theorem returns_escalate (violation : WafViolation) (ip : Units) :
    Returns (waf.escalate violation ip) := by
  rw [escalate]
  split
  · exact .bind (IpBlocklist.returns_block _ _) fun _ => .pure ()
  · exact .bind (IpBlocklist.returns_recordViolation _ _) fun count =>
      waf.returns_escalateCount violation ip count

theorem returns_escalateAll (ip : Units) (violations : List WafViolation) :
    Returns (waf.escalateAll ip violations) := by
  induction violations with
  | nil => exact .pure ()
  | cons violation rest ih => exact .bind (waf.returns_escalate violation ip) fun _ => ih

theorem returns_decideByRules (request : Request) : Returns (waf.decideByRules request) := by
  rw [decideByRules]
  split
  · exact .pure _
  · split
    · exact .bind (waf.returns_escalateAll _ _) fun _ => .pure _
    · exact .pure _

theorem returns_lookupBlock (request : Request) : Returns (waf.lookupBlock request) := by
  refine .caught (IpBlocklist.returns_isBlocked _).stays fun _ => ?_
  split
  · exact .pure _
  · exact .pure _

theorem returns_decide (request : Request) : Returns (waf.decide request) := by
  rw [decide]
  split
  · refine .bind (waf.returns_lookupBlock request) fun found => ?_
    cases found with
    | none => exact waf.returns_decideByRules request
    | some blockRecord => exact .pure _
  · exact .pure _

end WafMiddleware
end Waf
