import Hakawi.Waf.Evaluation
import Hakawi.Waf.IpBlocklist

/-!
# The decision on a request

`lookupBlock`, `escalate` and `decide` of the middleware. Log lines, degradation
notices and correlation ids are not part of it.
-/

namespace Waf
open Html Common Effects

structure WafDecision where
  allowed : Bool
  status : Nat
  violations : List WafViolation
  blockRecord : Option BlockRecord

def failClosedRecord (ip : Units) : BlockRecord where
  ip := ip
  kind := .temporary
  reason := "waf-fail-closed"
  ruleId := none
  blockedAt := 0
  expiresAt := none

namespace WafMiddleware
variable (waf : WafMiddleware) (request : Request)

def lookupBlock : Calls Units (Option BlockRecord) := do
  try
    IpBlocklist.isBlocked (waf.ipOf request)
  catch _ =>
    if waf.config.failMode = .closed then pure (some (failClosedRecord (waf.ipOf request)))
    else pure none

/-- What `escalate` does with the number of violations of the window. -/
def escalateCount (violation : WafViolation) (ip : Units) (count : Int) : Calls Units Unit := do
  if count ≥ waf.config.violationsBeforePermanentBlock then
    let _ ← IpBlocklist.block ip {
      kind := .permanent
      reason := "repeat-offender:" ++ violation.ruleId
      ruleId := some violation.ruleId }
  else if count ≥ waf.config.violationsBeforeTempBlock then
    let _ ← IpBlocklist.block ip {
      kind := .temporary
      ttlSeconds := some waf.config.tempBlockSeconds
      reason := "repeated-violations:" ++ violation.ruleId
      ruleId := some violation.ruleId }

def escalate (violation : WafViolation) (ip : Units) : Calls Units Unit := do
  if violation.severity = .critical then
    let _ ← IpBlocklist.block ip {
      kind := .permanent
      reason := "critical:" ++ violation.ruleId
      ruleId := some violation.ruleId }
  else
    let count ← IpBlocklist.recordViolation ip waf.config.violationWindowSeconds
    waf.escalateCount violation ip count

/-- The loop over the violations that block. -/
def escalateAll (ip : Units) : List WafViolation → Calls Units Unit
  | [] => pure ()
  | violation :: rest => do
    waf.escalate violation ip
    escalateAll ip rest

/-- `decide`, once no block was found. -/
def decideByRules : Calls Units WafDecision := do
  let violations := waf.evaluate request
  if violations.length = 0 then
    return ⟨true, 200, [], none⟩
  else if waf.config.blockOnViolation ∧ (waf.blocking request).length > 0 then
    waf.escalateAll (waf.ipOf request) (waf.blocking request)
    return ⟨false, 403, violations, none⟩
  else
    return ⟨true, 200, violations, none⟩

def decide : Calls Units WafDecision := do
  if waf.config.enabled then
    match ← waf.lookupBlock request with
    | some blockRecord => return ⟨false, 403, [], some blockRecord⟩
    | none => waf.decideByRules request
  else
    return ⟨true, 200, [], none⟩

end WafMiddleware
end Waf
