import Hakawi.Common.Exceptions

/-!
# The circuit breaker

One circuit of `CircuitBreakerService` in one process. The calls of `execute`
share the record objects the process has made for the circuit; between two
awaits a call runs alone, so what one answer sets off is one function here. The
environment decides when an answer comes and what it is.
-/

namespace Resilience

open Common

inductive CircuitBreakerState where
  | CLOSED
  | OPEN
  | HALF_OPEN
  deriving DecidableEq, Repr

structure CircuitBreakerConfig where
  name : String
  failureThreshold : Int
  recoveryTimeoutMs : Int
  successThreshold : Int

structure CircuitBreakerStateRecord where
  state : CircuitBreakerState
  failures : Int
  successes : Int
  lastFailureTime : Option Int
  lastSuccessTime : Option Int
  totalCalls : Int
  totalFailures : Int
  totalSuccesses : Int
  rejectedCalls : Int
  deriving DecidableEq, Repr

def initialState : CircuitBreakerStateRecord where
  state := .CLOSED
  failures := 0
  successes := 0
  lastFailureTime := none
  lastSuccessTime := none
  totalCalls := 0
  totalFailures := 0
  totalSuccesses := 0
  rejectedCalls := 0

/-- What the store holds under the circuit's key. -/
inductive Cached where
  | absent
  | unreadable
  | record (state : CircuitBreakerStateRecord)
  deriving DecidableEq

/-- `states` maps the name to one of the record objects, named by their numbers. -/
structure Circuit where
  stored : Cached
  states : Option Nat
  records : Nat → CircuitBreakerStateRecord
  allocated : Nat

/-- A process that has not used the circuit yet. -/
def Circuit.fresh (stored : Cached) : Circuit := ⟨stored, none, fun _ => initialState, 0⟩

/-- What a call goes on with when its write is answered. -/
inductive Continuation (α : Type) where
  | enter (ref : Nat)
  | start (ref : Nat)
  | refuse
  | persist (ref : Nat) (value : α)
  | resolve (ref : Nat) (value : α)
  | persistFailure (ref : Nat) (error : Failure)
  | rethrow (error : Failure)

/-- What a call of `execute` waits for. -/
inductive Call (α : Type) where
  | loading
  | writing (payload : CircuitBreakerStateRecord) (next : Continuation α)
  | running (ref : Nat)
  | fallingBack
  | finished (result : Except Failure α)

structure Answer (α : Type) where
  now : Int
  /-- What the store throws. -/
  fault : Option Failure
  /-- Whether a write is carried out; it may be although the store throws. -/
  written : Bool
  /-- How the protected function, or the fallback, ends. -/
  result : Except Failure α

namespace Circuit
variable (circuit : Circuit)

def update (ref : Nat) (f : CircuitBreakerStateRecord → CircuitBreakerStateRecord) : Circuit :=
  { circuit with records := Function.update circuit.records ref (f (circuit.records ref)) }

/-- `this.states.set(name, record)` of a new object. -/
def adopt (record : CircuitBreakerStateRecord) : Circuit :=
  { circuit with
    states := some circuit.allocated
    records := Function.update circuit.records circuit.allocated record
    allocated := circuit.allocated + 1 }

def write (payload : CircuitBreakerStateRecord) (written : Bool) : Circuit :=
  if written then { circuit with stored := .record payload } else circuit

/-- Up to its await, with what it persists. The name is always mapped by now:
the caller has seen to it, and nothing is ever taken out of `states`. -/
def transitionTo (ref : Nat) (newState : CircuitBreakerState) :
    Circuit × CircuitBreakerStateRecord :=
  let current := circuit.states.getD ref
  let changed := circuit.update current fun state => { state with state := newState }
  (changed, changed.records current)

variable {α : Type} (config : CircuitBreakerConfig)

/-- The protected function is called. -/
def start (ref : Nat) : Circuit × Call α :=
  (circuit.update ref fun state => { state with totalCalls := state.totalCalls + 1 }, .running ref)

/-- `state.lastFailureTime && now - state.lastFailureTime >= config.recoveryTimeoutMs` -/
def recovered (state : CircuitBreakerStateRecord) (now : Int) : Bool :=
  match state.lastFailureTime with
  | some failed => failed ≠ 0 ∧ config.recoveryTimeoutMs ≤ now - failed
  | none => false

/-- From the look at the state to the first await after it. -/
def enter (ref : Nat) (now : Int) : Circuit × Call α :=
  let state := circuit.records ref
  if state.state = .OPEN then
    if recovered config state now then
      let probing := circuit.update ref fun state =>
        { state with state := .HALF_OPEN, failures := 0, successes := 0 }
      let (changed, payload) := probing.transitionTo ref .HALF_OPEN
      (changed, .writing payload (.start ref))
    else
      let rejecting := circuit.update ref fun state =>
        { state with rejectedCalls := state.rejectedCalls + 1 }
      (rejecting, .writing (rejecting.records ref) .refuse)
  else circuit.start ref

/-- The answer to the read of `loadState`. -/
def loadState (now : Int) : Circuit × Call α :=
  match circuit.stored with
  | .record parsed => (circuit.adopt parsed).enter config circuit.allocated now
  | _ => (circuit.adopt initialState, .writing initialState (.enter circuit.allocated))

/-- The `try` block from the value of the protected function on. -/
def succeeded (ref : Nat) (value : α) (now : Int) : Circuit × Call α :=
  let counted := circuit.update ref fun state =>
    { state with totalSuccesses := state.totalSuccesses + 1, lastSuccessTime := some now }
  if (counted.records ref).state = .HALF_OPEN then
    let probed := counted.update ref fun state => { state with successes := state.successes + 1 }
    if config.successThreshold ≤ (probed.records ref).successes then
      let closing := probed.update ref fun state =>
        { state with state := .CLOSED, failures := 0, successes := 0 }
      let (changed, payload) := closing.transitionTo ref .CLOSED
      (changed, .writing payload (.persist ref value))
    else (probed, .writing (probed.records ref) (.resolve ref value))
  else
    let calm := counted.update ref fun state => { state with failures := 0 }
    (calm, .writing (calm.records ref) (.resolve ref value))

/-- The `catch` block. -/
def failed (ref : Nat) (error : Failure) (now : Int) : Circuit × Call α :=
  let counted := circuit.update ref fun state =>
    { state with totalFailures := state.totalFailures + 1, lastFailureTime := some now }
  match (counted.records ref).state with
  | .HALF_OPEN =>
    let cleared := counted.update ref fun state => { state with failures := 0, successes := 0 }
    let (changed, payload) := cleared.transitionTo ref .OPEN
    (changed, .writing payload (.persistFailure ref error))
  | .CLOSED =>
    let struck := counted.update ref fun state => { state with failures := state.failures + 1 }
    if config.failureThreshold ≤ (struck.records ref).failures then
      let (changed, payload) := struck.transitionTo ref .OPEN
      (changed, .writing payload (.persistFailure ref error))
    else (struck, .writing (struck.records ref) (.rethrow error))
  | .OPEN => (counted, .writing (counted.records ref) (.rethrow error))

/-- The call hands over to the fallback, or throws. -/
def giveUp (fallback : Bool) (error : Failure) : Call α :=
  if fallback then .fallingBack else .finished (.error error)

/-- The write of a call has been answered. -/
def written (fallback : Bool) (next : Continuation α) (answer : Answer α) : Circuit × Call α :=
  match next, answer.fault with
  | .enter ref, none => circuit.enter config ref answer.now
  | .start ref, none => circuit.start ref
  | .refuse, none => (circuit, giveUp fallback (.error s!"Circuit breaker {config.name} is OPEN"))
  | .persist ref value, none => (circuit, .writing (circuit.records ref) (.resolve ref value))
  | .resolve _ value, none => (circuit, .finished (.ok value))
  | .persistFailure ref error, none => (circuit, .writing (circuit.records ref) (.rethrow error))
  | .rethrow error, none => (circuit, giveUp fallback error)
  -- Only the two writes after the protected call stand inside the `try` block.
  | .persist ref _, some error => circuit.failed config ref error answer.now
  | .resolve ref _, some error => circuit.failed config ref error answer.now
  | _, some error => (circuit, .finished (.error error))

/-- `execute`, up to its first await. -/
def execute (now : Int) : Circuit × Call α :=
  match circuit.states with
  | some ref => circuit.enter config ref now
  | none => (circuit, .loading)

/-- One answer, and everything up to the next await. -/
def resume (fallback : Bool) (call : Call α) (answer : Answer α) : Circuit × Call α :=
  match call with
  | .loading =>
    match answer.fault with
    | none => circuit.loadState config answer.now
    | some error => (circuit, .finished (.error error))
  | .writing payload next =>
    (circuit.write payload answer.written).written config fallback next answer
  | .running ref =>
    match answer.result with
    | .ok value => circuit.succeeded config ref value answer.now
    | .error error => circuit.failed config ref error answer.now
  | .fallingBack => (circuit, .finished answer.result)
  | .finished result => (circuit, .finished result)

section Api
variable (ref : Nat)

@[simp] theorem write_records (payload : CircuitBreakerStateRecord) (written : Bool) :
    (circuit.write payload written).records = circuit.records := by
  unfold write
  split <;> rfl

@[simp] theorem write_states (payload : CircuitBreakerStateRecord) (written : Bool) :
    (circuit.write payload written).states = circuit.states := by
  unfold write
  split <;> rfl

@[simp] theorem update_records_self
    (f : CircuitBreakerStateRecord → CircuitBreakerStateRecord) :
    (circuit.update ref f).records ref = f (circuit.records ref) := Function.update_self ..

@[simp] theorem update_states (f : CircuitBreakerStateRecord → CircuitBreakerStateRecord) :
    (circuit.update ref f).states = circuit.states := rfl

end Api
end Circuit
end Resilience
