import Hakawi.Waf.Protocol

/-!
# An unreachable blocklist

`isBlocked` answers a failure of the store like the absence of a record, so the
branch of `lookupBlock` that fails closed is never taken. What refuses a request
then is only what the request itself violates.
-/

namespace Waf
open Html Common Effects

namespace WafMiddleware
variable (waf : WafMiddleware) (request : Request)

/-- The request gets itself refused. -/
def Refuses : Prop := waf.config.blockOnViolation = true ∧ waf.blocking request ≠ []

theorem reaches_decideByRules : protocol.Reaches
    (fun result _ => ∃ decision, result = .ok decision ∧
      (decision.allowed = false ↔ waf.Refuses request)) ()
    (waf.decideByRules request).run := by
  change wpE _ (waf.decideByRules request) _ ()
  rw [decideByRules]
  split
  · rename_i none
    refine ⟨_, rfl, ?_⟩
    have clean : waf.blocking request = [] := by
      rw [blocking, List.length_eq_zero_iff.mp none, List.filter_nil]
    simp [Refuses, clean]
  · split
    · rename_i refused
      rw [wpE_bind]
      refine wpE_mono protocol.spec_monotone (fun result _ returned => ?_)
        (waf.returns_escalateAll _ _ ())
      obtain ⟨u, rfl⟩ := returned
      refine ⟨_, rfl, ?_⟩
      simp only [Refuses, true_iff]
      exact ⟨refused.1, List.ne_nil_of_length_pos refused.2⟩
    · rename_i notRefused
      refine ⟨_, rfl, ?_⟩
      simp only [Refuses, Bool.true_eq_false, false_iff]
      rintro ⟨blocks, some⟩
      exact notRefused ⟨blocks, List.length_pos_iff.mpr some⟩

/-- The first call of `decide` reads the record; where it throws, the rules decide. -/
theorem decide_run (enabled : waf.config.enabled = true)
    (nonempty : (waf.ipOf request).length ≠ 0) : ∃ next,
      (waf.decide request).run = .call (.valkey (.get (blockKey (waf.ipOf request)))) next ∧
        ∀ e, next (.error e) = (waf.decideByRules request).run := by
  rw [decide, if_pos enabled, lookupBlock, IpBlocklist.isBlocked, if_neg nonempty]
  exact ⟨_, rfl, fun _ => rfl⟩

theorem eval_decide_of_unreachable {choices : Nat → Choice}
    (enabled : waf.config.enabled = true) (unreachable : (choices 0).outcome ≠ .performed)
    (world : ValkeyWorld Units) : ∃ choices' world',
      (waf.decide request).run.eval ValkeyWorld.exec choices world =
        (waf.decideByRules request).run.eval ValkeyWorld.exec choices' world' := by
  by_cases nonempty : (waf.ipOf request).length = 0
  · refine ⟨choices, world, ?_⟩
    rw [decide, if_pos enabled, lookupBlock, IpBlocklist.isBlocked, if_pos nonempty]
    rfl
  · obtain ⟨next, shape, onError⟩ := waf.decide_run request enabled nonempty
    have answer : (ValkeyWorld.exec (choices 0) world
        (.valkey (.get (blockKey (waf.ipOf request))))).1 = .error disconnected := by
      simp only [ValkeyWorld.exec]
      cases outcome : (choices 0).outcome with
      | performed => exact (unreachable outcome).elim
      | refused => rfl
      | lost => rfl
    rw [shape, Program.eval, answer, onError]
    exact ⟨_, _, rfl⟩

end WafMiddleware

/-- With the firewall on and the store failing in the lookup, whatever the fail mode, a
request is refused exactly when it violates the rules badly enough by itself. -/
theorem refused_iff_of_unreachable (waf : WafMiddleware) (request : Request)
    (world : ValkeyWorld Units) (choices : Nat → Choice) (enabled : waf.config.enabled = true)
    (unreachable : (choices 0).outcome ≠ .performed) :
    ∃ decision, ((waf.decide request).run.eval ValkeyWorld.exec choices world).1 = .ok decision ∧
      (decision.allowed = false ↔ waf.Refuses request) := by
  obtain ⟨choices', world', same⟩ :=
    waf.eval_decide_of_unreachable request enabled unreachable world
  rw [same]
  obtain ⟨u, decision, returned, refused⟩ :=
    (waf.reaches_decideByRules request).eval ValkeyWorld.exec choices' world'
  exact ⟨decision, returned, refused⟩

def closedWaf : WafMiddleware :=
  { defaultWaf with config := { DEFAULT_WAF_CONFIG with failMode := .closed } }

def emptyWorld : ValkeyWorld Units := ⟨0, Valkey.empty⟩

def disconnects : Choice := ⟨0, .refused⟩

theorem refused_iff_of_unreachable_null_byte :
    ∃ decision, ((closedWaf.decide (getRequest "203.0.113.9" "/?file=a%00" [])).run.eval
        ValkeyWorld.exec (fun _ => disconnects) emptyWorld).1 = .ok decision ∧
      (decision.allowed = false ↔
        closedWaf.Refuses (getRequest "203.0.113.9" "/?file=a%00" [])) :=
  refused_iff_of_unreachable closedWaf _ emptyWorld (fun _ => disconnects) rfl (by decide)

/-- Failing closed, the firewall lets a harmless request through while the store is down. -/
theorem allowed_while_unreachable :
    closedWaf.config.failMode = .closed ∧
    (((closedWaf.decide (getRequest "203.0.113.9" "/stories" [])).run.eval
      ValkeyWorld.exec (fun _ => disconnects) emptyWorld).1.map fun decision =>
        decision.allowed) = .ok true := by
  decide

end Waf
