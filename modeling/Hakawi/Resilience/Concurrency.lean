import Hakawi.Effects.Trace
import Hakawi.Resilience.Breaker
import Hakawi.Resilience.CircuitBreaker

/-!
# Concurrent calls on one circuit

Any number of calls of `execute` in one process, whose answers come in any order.
What they do is the history of a three-state breaker, as long as three things do
not happen: two calls load the state at the same time, a failure opens the
circuit while a call is still writing that it is half open, and a call started
earlier succeeds while the circuit is half open.
-/

namespace Resilience

open Common Effects Breaker

def CircuitBreakerConfig.limits (config : CircuitBreakerConfig) : Limits :=
  ⟨config.failureThreshold, config.recoveryTimeoutMs, config.successThreshold⟩

/-- What a record says about the breaker. -/
def CircuitBreakerStateRecord.phase (record : CircuitBreakerStateRecord) : Phase Nat :=
  match record.state with
  | .CLOSED => .closed record.failures
  | .OPEN => .opened record.lastFailureTime
  | .HALF_OPEN => .probing record.successes []

/-- What a process that has not used the circuit will find it in. -/
def Cached.phase : Cached → Phase Nat
  | .record state => state.phase
  | _ => initialState.phase

/-- The calls in the order they came, each with or without a fallback. The
breaker is the one that is shown everything the calls do. -/
structure Process (α : Type) where
  circuit : Circuit
  calls : List (Bool × Call α)
  breaker : Option (Phase Nat)

inductive Turn (α : Type) where
  | call (fallback : Bool) (now : Int)
  | answer (caller : Nat) (answer : Answer α)

namespace Call
variable {α : Type}

/-- The protected function returns. -/
def returns (call : Call α) (answer : Answer α) : Bool :=
  match call, answer.result with
  | running _, .ok _ => true
  | _, _ => false

/-- The record a failure is counted on: the protected function throws, or a write
after it does. -/
def failsOn (call : Call α) (answer : Answer α) : Option Nat :=
  match call, answer.result, answer.fault with
  | running ref, .error _, _ => some ref
  | writing _ (.persist ref _), _, some _ => some ref
  | writing _ (.resolve ref _), _, some _ => some ref
  | _, _, _ => none

/-- What becomes of the protected function of a call. -/
def ends (caller : Nat) (call : Call α) (answer : Answer α) : List (Event Nat) :=
  if call.returns answer then [.succeed caller]
  else if (call.failsOn answer).isSome then [.fail answer.now]
  else []

/-- A call starts the protected function, or makes the circuit half open. -/
def begins (caller : Nat) (now : Int) : Call α → List (Event Nat)
  | .running _ => [.start caller]
  | .writing _ (.start _) => [.probe now]
  | _ => []

def isLoading : Call α → Bool
  | loading => true
  | _ => false

/-- It has made the circuit half open and not yet called the protected function. -/
def isProbing : Call α → Bool
  | writing _ (.start _) => true
  | _ => false

end Call

namespace Process
variable {α : Type} (config : CircuitBreakerConfig)

def fresh (stored : Cached) : Process α := ⟨.fresh stored, [], some stored.phase⟩

/-- What the breaker makes of some events. -/
def told (process : Process α) (events : List (Event Nat)) : Option (Phase Nat) :=
  process.breaker.bind (Phase.run config.limits · events)

def step (process : Process α) : Turn α → Process α
  | .call fallback now =>
    let (circuit, call) := process.circuit.execute config now
    { circuit := circuit
      calls := process.calls ++ [(fallback, call)]
      breaker := process.told config (call.begins process.calls.length now) }
  | .answer caller answer =>
    match process.calls[caller]? with
    | some (fallback, call) =>
      let (circuit, next) := process.circuit.resume config fallback call answer
      { circuit := circuit
        calls := process.calls.set caller (fallback, next)
        breaker :=
          process.told config (call.ends caller answer ++ next.begins caller answer.now) }
    | none => process

def run (stored : Cached) (turns : List (Turn α)) : Process α :=
  Trace.run (step config) (fresh stored) turns

/-- A failure would open the circuit. -/
def opens (record : CircuitBreakerStateRecord) : Bool :=
  match record.state with
  | .CLOSED => config.failureThreshold ≤ record.failures + 1
  | .OPEN => false
  | .HALF_OPEN => true

/-- A call that fails does not open the circuit while another one is about to
probe it. -/
def FailsAlone (process : Process α) (ref : Nat) : Prop :=
  opens config (process.circuit.records ref) = true → ∀ call ∈ process.calls, ¬ call.2.isProbing

/-- The call was started since the breaker last began to probe, if it is probing. -/
def SucceedsInTime (process : Process α) (caller : Nat) : Prop :=
  match process.breaker with
  | some (.probing _ callers) => caller ∈ callers
  | _ => True

/-- What may not happen, as a condition on the state before a turn. -/
def Orderly (process : Process α) : Turn α → Prop
  | .call _ _ => process.circuit.states = none → ∀ call ∈ process.calls, ¬ call.2.isLoading
  | .answer caller answer => ∀ call ∈ process.calls[caller]?,
    (call.2.returns answer → process.SucceedsInTime caller) ∧
      ∀ ref ∈ call.2.failsOn answer, process.FailsAlone config ref

instance (process : Process α) (ref : Nat) : Decidable (process.FailsAlone config ref) :=
  inferInstanceAs (Decidable (_ → _))

instance (process : Process α) (caller : Nat) : Decidable (process.SucceedsInTime caller) := by
  unfold SucceedsInTime
  split
  · infer_instance
  · infer_instance

instance decidableOrderly (process : Process α) :
    (turn : Turn α) → Decidable (process.Orderly config turn)
  | .call _ _ => inferInstanceAs (Decidable (_ → _))
  | .answer _ _ => inferInstanceAs (Decidable (∀ call ∈ _, _ ∧ ∀ ref ∈ _, _))

/-- The record the process keeps agrees with the breaker. -/
def Agrees (record : CircuitBreakerStateRecord) : Phase Nat → Prop
  | .closed failures => record.state = .CLOSED ∧ record.failures = failures
  | .opened since => record.state = .OPEN ∧ record.lastFailureTime = since
  | .probing successes _ => record.state = .HALF_OPEN ∧ record.successes = successes

/-- The breaker has allowed everything so far, and the record of the circuit is
where the breaker is; while the circuit is closed, the failures since the last
success are fewer than open it. -/
def Refines (process : Process α) : Prop :=
  ∃ phase, process.breaker = some phase ∧ phase.Sound config.limits ∧
    ∀ ref, process.circuit.states = some ref → Agrees (process.circuit.records ref) phase

end Process

/-! What one answer moves. -/

namespace Call
variable {α : Type}

/-- The call works on this record, if on any. -/
def On (ref : Nat) : Call α → Prop
  | loading => False
  | writing _ (.enter other) => other = ref
  | writing _ (.start other) => other = ref
  | writing _ .refuse => True
  | writing _ (.persist other _) => other = ref
  | writing _ (.resolve other _) => other = ref
  | writing _ (.persistFailure other _) => other = ref
  | writing _ (.rethrow _) => True
  | running other => other = ref
  | fallingBack => True
  | finished _ => True

theorem on_giveUp (ref : Nat) (fallback : Bool) (error : Failure) :
    (Circuit.giveUp fallback error : Call α).On ref := by
  cases fallback with
  | true => trivial
  | false => trivial

end Call

namespace Circuit

theorem transitionTo_mapped {circuit : Circuit} {ref : Nat} (mapped : circuit.states = some ref)
    (newState : CircuitBreakerState) :
    circuit.transitionTo ref newState =
      (circuit.update ref ({ · with state := newState }),
        { circuit.records ref with state := newState }) := by
  simp [transitionTo, mapped]

end Circuit

namespace Process
variable {α : Type} {config : CircuitBreakerConfig}

/-- The events lead the breaker to where the circuit is then; it opens only if
it was open, or if a failure may open it. -/
structure Moves (config : CircuitBreakerConfig) (ref : Nat) (phase : Phase Nat) (opening : Prop)
    (events : List (Event Nat)) (next : Circuit × Call α) (after : Phase Nat) : Prop where
  allowed : phase.run config.limits events = some after
  mapped : next.1.states = some ref
  agrees : Agrees (next.1.records ref) after
  on : next.2.On ref
  probing : next.2.isProbing → after.isOpened = false
  opens : after.isOpened → phase.isOpened ∨ opening

theorem recovered_elim {record : CircuitBreakerStateRecord} {now : Int}
    (recovered : Circuit.recovered config record now = true) :
    ∃ failed, record.lastFailureTime = some failed ∧ config.recoveryTimeoutMs ≤ now - failed := by
  unfold Circuit.recovered at recovered
  split at recovered
  · rename_i failed last
    exact ⟨failed, last, (of_decide_eq_true recovered).2⟩
  · cases recovered

theorem Moves.weaken {phase after : Phase Nat} {opening weaker : Prop} {events : List (Event Nat)}
    {next : Circuit × Call α} (moves : Moves config ref phase opening events next after)
    (h : opening → weaker) : Moves config ref phase weaker events next after :=
  { moves with opens := fun opened => (moves.opens opened).imp_right h }

section Moves
variable (config) {circuit : Circuit} {ref : Nat} {phase : Phase Nat}

theorem start_moves (mapped : circuit.states = some ref) (agrees : Agrees (circuit.records ref) phase)
    (unopened : phase.isOpened = false) (caller : Nat) : ∃ after,
    Moves (α := α) config ref phase False [.start caller] (circuit.start ref) after := by
  cases phase with
  | opened since => cases unopened
  | closed n =>
    refine ⟨.closed n, rfl, mapped, ?_, rfl, (by rintro ⟨⟩), by simp⟩
    simpa [Circuit.start, Agrees] using agrees
  | probing m callers =>
    refine ⟨.probing m (caller :: callers), rfl, mapped, ?_, rfl, (by rintro ⟨⟩), by rintro ⟨⟩⟩
    simpa [Circuit.start, Agrees] using agrees

theorem enter_moves (mapped : circuit.states = some ref)
    (agrees : Agrees (circuit.records ref) phase) (caller : Nat) (now : Int) : ∃ after,
    Moves (α := α) config ref phase False
      ((circuit.enter (α := α) config ref now).2.begins caller now)
      (circuit.enter config ref now) after := by
  cases phase with
  | closed n =>
    have entered : circuit.enter (α := α) config ref now = circuit.start ref := by
      simp [Circuit.enter, agrees.1]
    rw [entered]
    exact start_moves config mapped agrees rfl caller
  | probing m callers =>
    have entered : circuit.enter (α := α) config ref now = circuit.start ref := by
      simp [Circuit.enter, agrees.1]
    rw [entered]
    exact start_moves config mapped agrees rfl caller
  | opened since =>
    obtain ⟨isOpen, rfl⟩ := agrees
    by_cases recovered : Circuit.recovered config (circuit.records ref) now = true
    · have entered : circuit.enter (α := α) config ref now =
          ((circuit.update ref fun state =>
              { state with state := .HALF_OPEN, failures := 0, successes := 0 }).update ref
                ({ · with state := .HALF_OPEN }),
            .writing { circuit.records ref with state := .HALF_OPEN, failures := 0, successes := 0 }
              (.start ref)) := by
        simp only [Circuit.enter, isOpen, if_true, recovered]
        rw [Circuit.transitionTo_mapped (by simpa using mapped)]
        simp
      rw [entered]
      refine ⟨.probing 0 [], ?_, by simpa using mapped, ?_, rfl, fun _ => rfl, by rintro ⟨⟩⟩
      · obtain ⟨failed, last, elapsed⟩ := recovered_elim recovered
        simp [Phase.run, Phase.step?, Call.begins, last, CircuitBreakerConfig.limits, elapsed]
      · simp [Agrees]
    · have entered : circuit.enter (α := α) config ref now =
          (circuit.update ref fun state => { state with rejectedCalls := state.rejectedCalls + 1 },
            .writing { circuit.records ref with
              rejectedCalls := (circuit.records ref).rejectedCalls + 1 } .refuse) := by
        simp [Circuit.enter, isOpen, recovered]
      rw [entered]
      refine ⟨.opened (circuit.records ref).lastFailureTime, rfl, mapped, ?_, trivial, (by rintro ⟨⟩),
        fun opened => Or.inl opened⟩
      simpa [Agrees] using isOpen

theorem succeeded_moves (mapped : circuit.states = some ref)
    (agrees : Agrees (circuit.records ref) phase) {caller : Nat}
    (inTime : ∀ successes callers, phase = .probing successes callers → caller ∈ callers)
    (value : α) (now : Int) : ∃ after,
    Moves config ref phase False
      (.succeed caller :: (circuit.succeeded config ref value now).2.begins caller now)
      (circuit.succeeded config ref value now) after := by
  cases phase with
  | closed n =>
    refine ⟨.closed 0, ?_, ?_, ?_, ?_, ?_, by rintro ⟨⟩⟩
    all_goals simp [Circuit.succeeded, agrees.1, Agrees, Call.On, Call.begins, Call.isProbing, mapped,
      Phase.run, Phase.step?]
  | opened since =>
    refine ⟨.opened since, ?_, ?_, ?_, ?_, ?_, Or.inl⟩
    all_goals simp [Circuit.succeeded, agrees.1, agrees.2, Agrees, Call.On, Call.begins,
      Call.isProbing, mapped, Phase.run, Phase.step?]
  | probing m callers =>
    have started := inTime m callers rfl
    by_cases enough : config.successThreshold ≤ m + 1
    · refine ⟨.closed 0, ?_, ?_, ?_, ?_, ?_, by rintro ⟨⟩⟩
      all_goals simp [Circuit.succeeded, agrees.1, agrees.2, Agrees, Call.On, Call.begins,
        Call.isProbing, mapped, Phase.run, Phase.step?, started, enough,
        CircuitBreakerConfig.limits, Circuit.transitionTo_mapped]
    · refine ⟨.probing (m + 1) callers, ?_, ?_, ?_, ?_, ?_, by rintro ⟨⟩⟩
      all_goals simp [Circuit.succeeded, agrees.1, agrees.2, Agrees, Call.On, Call.begins,
        Call.isProbing, mapped, Phase.run, Phase.step?, started, enough, CircuitBreakerConfig.limits]

theorem failed_moves (mapped : circuit.states = some ref)
    (agrees : Agrees (circuit.records ref) phase) (caller : Nat) (error : Failure) (now : Int) :
    ∃ after, Moves (α := α) config ref phase (opens config (circuit.records ref) = true)
      (.fail now :: (circuit.failed (α := α) config ref error now).2.begins caller now)
      (circuit.failed config ref error now) after := by
  cases phase with
  | closed n =>
    by_cases enough : config.failureThreshold ≤ n + 1
    · refine ⟨.opened (some now), ?_, ?_, ?_, ?_, ?_, fun _ => Or.inr ?_⟩
      all_goals simp [Circuit.failed, agrees.1, agrees.2, Agrees, Call.On, Call.begins,
        Call.isProbing, mapped, Phase.run, Phase.step?, enough, CircuitBreakerConfig.limits,
        Circuit.transitionTo_mapped, opens]
    · refine ⟨.closed (n + 1), ?_, ?_, ?_, ?_, ?_, by rintro ⟨⟩⟩
      all_goals simp [Circuit.failed, agrees.1, agrees.2, Agrees, Call.On, Call.begins,
        Call.isProbing, mapped, Phase.run, Phase.step?, enough, CircuitBreakerConfig.limits]
  | opened since =>
    refine ⟨.opened (some now), ?_, ?_, ?_, ?_, ?_, fun _ => Or.inl rfl⟩
    all_goals simp [Circuit.failed, agrees.1, Agrees, Call.On, Call.begins, Call.isProbing, mapped,
      Phase.run, Phase.step?]
  | probing m callers =>
    refine ⟨.opened (some now), ?_, ?_, ?_, ?_, ?_, fun _ => Or.inr ?_⟩
    all_goals simp [Circuit.failed, agrees.1, Agrees, Call.On, Call.begins, Call.isProbing, mapped,
      Phase.run, Phase.step?, Circuit.transitionTo_mapped, opens]

/-- A call that goes on without the record. -/
theorem idle_moves {next : Circuit} {call : Call α} (mapped : next.states = some ref)
    (agrees : Agrees (next.records ref) phase) (on : call.On ref) (quiet : call.isProbing = false)
    (opening : Prop) : Moves config ref phase opening [] (next, call) phase :=
  ⟨rfl, mapped, agrees, on, fun probing => by simp [quiet] at probing, Or.inl⟩

theorem begins_giveUp (caller : Nat) (now : Int) (fallback : Bool) (error : Failure) :
    (Circuit.giveUp fallback error : Call α).begins caller now = [] := by
  cases fallback with
  | true => rfl
  | false => rfl

theorem isProbing_giveUp (fallback : Bool) (error : Failure) :
    (Circuit.giveUp fallback error : Call α).isProbing = false := by
  cases fallback with
  | true => rfl
  | false => rfl

theorem written_moves (mapped : circuit.states = some ref)
    (agrees : Agrees (circuit.records ref) phase) {payload : CircuitBreakerStateRecord}
    {next : Continuation α} (on : (Call.writing payload next).On ref)
    (probing : (Call.writing payload next).isProbing → phase.isOpened = false)
    (fallback : Bool) (caller : Nat) (answer : Answer α) : ∃ after,
    Moves config ref phase
      ((Call.writing payload next).failsOn answer = some ref ∧
        opens config (circuit.records ref) = true)
      ((Call.writing payload next).ends caller answer ++
        (circuit.written config fallback next answer).2.begins caller answer.now)
      (circuit.written config fallback next answer) after := by
  cases fault : answer.fault with
  | none =>
    have silent : (Call.writing payload next).ends caller answer = [] := by
      cases next <;> simp [Call.ends, Call.returns, Call.failsOn, fault]
    rw [silent, List.nil_append]
    cases next with
    | enter other =>
      obtain rfl : other = ref := on
      obtain ⟨after, moves⟩ := enter_moves (α := α) config mapped agrees caller answer.now
      simp only [Circuit.written, fault]
      exact ⟨after, moves.weaken False.elim⟩
    | start other =>
      obtain rfl : other = ref := on
      obtain ⟨after, moves⟩ :=
        start_moves (α := α) config mapped agrees (probing rfl) caller
      simp only [Circuit.written, fault]
      exact ⟨after, moves.weaken False.elim⟩
    | refuse =>
      simp only [Circuit.written, fault, begins_giveUp]
      exact ⟨phase, idle_moves config mapped agrees (Call.on_giveUp ..) (isProbing_giveUp ..) _⟩
    | persist other value =>
      obtain rfl : other = ref := on
      simp only [Circuit.written, fault]
      exact ⟨phase, idle_moves config mapped agrees (by rfl) (by rfl) _⟩
    | resolve other value =>
      simp only [Circuit.written, fault]
      exact ⟨phase, idle_moves config mapped agrees (by trivial) (by rfl) _⟩
    | persistFailure other error =>
      simp only [Circuit.written, fault]
      exact ⟨phase, idle_moves config mapped agrees (by trivial) (by rfl) _⟩
    | rethrow error =>
      simp only [Circuit.written, fault, begins_giveUp]
      exact ⟨phase, idle_moves config mapped agrees (Call.on_giveUp ..) (isProbing_giveUp ..) _⟩
  | some error =>
    cases next with
    | persist other value =>
      obtain rfl : other = ref := on
      obtain ⟨after, moves⟩ :=
        failed_moves (α := α) config mapped agrees caller error answer.now
      have fails : (Call.writing payload (.persist other value)).failsOn answer = some other := by
        simp [Call.failsOn, fault]
      have shown : (Call.writing payload (.persist other value)).ends caller answer =
          [.fail answer.now] := by simp [Call.ends, Call.returns, fails]
      rw [shown]
      simp only [Circuit.written, fault]
      exact ⟨after, moves.weaken fun opening => ⟨fails, opening⟩⟩
    | resolve other value =>
      obtain rfl : other = ref := on
      obtain ⟨after, moves⟩ :=
        failed_moves (α := α) config mapped agrees caller error answer.now
      have fails : (Call.writing payload (.resolve other value)).failsOn answer = some other := by
        simp [Call.failsOn, fault]
      have shown : (Call.writing payload (.resolve other value)).ends caller answer =
          [.fail answer.now] := by simp [Call.ends, Call.returns, fails]
      rw [shown]
      simp only [Circuit.written, fault]
      exact ⟨after, moves.weaken fun opening => ⟨fails, opening⟩⟩
    | enter other =>
      simp only [Circuit.written, fault]
      exact ⟨phase, idle_moves config mapped agrees (by trivial) (by rfl) _⟩
    | start other =>
      simp only [Circuit.written, fault]
      exact ⟨phase, idle_moves config mapped agrees (by trivial) (by rfl) _⟩
    | refuse =>
      simp only [Circuit.written, fault]
      exact ⟨phase, idle_moves config mapped agrees (by trivial) (by rfl) _⟩
    | persistFailure other _ =>
      simp only [Circuit.written, fault]
      exact ⟨phase, idle_moves config mapped agrees (by trivial) (by rfl) _⟩
    | rethrow _ =>
      simp only [Circuit.written, fault]
      exact ⟨phase, idle_moves config mapped agrees (by trivial) (by rfl) _⟩

theorem resume_moves (mapped : circuit.states = some ref)
    (agrees : Agrees (circuit.records ref) phase) {call : Call α} (on : call.On ref)
    (probing : call.isProbing → phase.isOpened = false) {caller : Nat} {answer : Answer α}
    (inTime : call.returns answer →
      ∀ successes callers, phase = .probing successes callers → caller ∈ callers)
    (fallback : Bool) : ∃ after,
    Moves config ref phase
      (call.failsOn answer = some ref ∧ opens config (circuit.records ref) = true)
      (call.ends caller answer ++
        (circuit.resume config fallback call answer).2.begins caller answer.now)
      (circuit.resume config fallback call answer) after := by
  cases call with
  | loading => exact on.elim
  | writing payload next =>
    have records := circuit.write_records payload answer.written
    obtain ⟨after, moves⟩ := written_moves config
      (show (circuit.write payload answer.written).states = some ref by simpa using mapped)
      (by rwa [records]) on probing fallback caller answer
    rw [records] at moves
    exact ⟨after, moves⟩
  | running other =>
    obtain rfl : other = ref := on
    cases result : answer.result with
    | ok value =>
      have returned : (Call.running other).returns answer = true := by simp [Call.returns, result]
      obtain ⟨after, moves⟩ := succeeded_moves config mapped agrees
        (inTime returned) value answer.now
      have shown : (Call.running other).ends caller answer = [.succeed caller] := by
        simp [Call.ends, returned]
      rw [shown]
      simp only [Circuit.resume, result]
      exact ⟨after, moves.weaken False.elim⟩
    | error error =>
      have fails : (Call.running other).failsOn answer = some other := by
        simp [Call.failsOn, result]
      have shown : (Call.running other).ends caller answer = [.fail answer.now] := by
        simp [Call.ends, Call.returns, result, fails]
      obtain ⟨after, moves⟩ :=
        failed_moves (α := α) config mapped agrees caller error answer.now
      rw [shown]
      simp only [Circuit.resume, result]
      exact ⟨after, moves.weaken fun opening => ⟨fails, opening⟩⟩
  | fallingBack => exact ⟨phase, idle_moves config mapped agrees (by trivial) (by rfl) _⟩
  | finished result => exact ⟨phase, idle_moves config mapped agrees (by trivial) (by rfl) _⟩

theorem agrees_phase (record : CircuitBreakerStateRecord) : Agrees record record.phase := by
  unfold CircuitBreakerStateRecord.phase
  cases state : record.state with
  | CLOSED => exact ⟨state, rfl⟩
  | OPEN => exact ⟨state, rfl⟩
  | HALF_OPEN => exact ⟨state, rfl⟩

theorem loadState_moves (circuit : Circuit) (caller : Nat) (now : Int) : ∃ after,
    Moves (α := α) config circuit.allocated circuit.stored.phase False
      ((circuit.loadState (α := α) config now).2.begins caller now)
      (circuit.loadState config now) after := by
  unfold Circuit.loadState
  cases circuit.stored with
  | record parsed =>
    have agrees : Agrees ((circuit.adopt parsed).records circuit.allocated) parsed.phase := by
      simpa [Circuit.adopt] using agrees_phase parsed
    exact enter_moves config rfl agrees caller now
  | absent => exact ⟨_, idle_moves config rfl (by simp [Circuit.adopt, Cached.phase, agrees_phase])
      (by rfl) (by rfl) _⟩
  | unreadable => exact ⟨_, idle_moves config rfl (by simp [Circuit.adopt, Cached.phase, agrees_phase])
      (by rfl) (by rfl) _⟩

end Moves

/-- Until the circuit is loaded, one call at most is about to load it. From then
on every call works on the one record, and none is about to probe an open circuit. -/
def Placed (process : Process α) (phase : Phase Nat) : Prop :=
  match process.circuit.states with
  | none => phase = process.circuit.stored.phase ∧
      (∀ call ∈ process.calls, call.2.isLoading ∨ ∃ result, call.2 = .finished result) ∧
      ∀ (i j : Nat) (one other : Bool × Call α), process.calls[i]? = some one → process.calls[j]? = some other →
        one.2.isLoading → other.2.isLoading → i = j
  | some ref => Agrees (process.circuit.records ref) phase ∧
      (∀ call ∈ process.calls, call.2.On ref) ∧
      (phase.isOpened → ∀ call ∈ process.calls, ¬ call.2.isProbing)

def Inv (config : CircuitBreakerConfig) (process : Process α) : Prop :=
  ∃ phase, process.breaker = some phase ∧ phase.Sound config.limits ∧ process.Placed phase

theorem Inv.refines {process : Process α} (inv : process.Inv config) : process.Refines config := by
  obtain ⟨phase, told, sound, placed⟩ := inv
  refine ⟨phase, told, sound, fun ref mapped => ?_⟩
  simp only [Placed, mapped] at placed
  exact placed.1

/-- What the breaker makes of the events of a turn that moves it. -/
theorem told_moves {process : Process α} {phase after : Phase Nat} {ref : Nat} {opening : Prop}
    {events : List (Event Nat)} {next : Circuit × Call α}
    (told : process.breaker = some phase)
    (moves : Moves config ref phase opening events next after) :
    process.told config events = some after := by
  simp [Process.told, told, moves.allowed]

/-- Only the last of these calls can have a property that no earlier one has. -/
theorem index_of_last {P : Bool × Call α → Prop} {calls : List (Bool × Call α)}
    (none_earlier : ∀ call ∈ calls, ¬ P call) {new call : Bool × Call α} {i : Nat}
    (found : (calls ++ [new])[i]? = some call) (holds : P call) : i = calls.length := by
  by_cases earlier : i < calls.length
  · rw [List.getElem?_append_left earlier] at found
    exact absurd holds (none_earlier call (List.mem_of_getElem? found))
  · have within : i < (calls ++ [new]).length := (List.getElem?_eq_some_iff.mp found).1
    rw [List.length_append, List.length_singleton] at within
    omega

theorem inv_call {process : Process α} (positive : 0 < config.failureThreshold)
    (inv : process.Inv config) (fallback : Bool) (now : Int)
    (orderly : process.Orderly config (.call fallback now)) :
    (process.step config (.call fallback now)).Inv config := by
  obtain ⟨phase, told, sound, placed⟩ := inv
  cases states : process.circuit.states with
  | none =>
    simp only [Placed, states] at placed
    obtain ⟨asStored, idle, alone⟩ := placed
    have quiet := orderly states
    have executed : process.circuit.execute (α := α) config now = (process.circuit, .loading) := by
      simp [Circuit.execute, states]
    refine ⟨phase, ?_, sound, ?_⟩
    · simp [step, executed, Process.told, told, Call.begins]
    · simp only [step, executed, Placed, states]
      refine ⟨asStored, ?_, ?_⟩
      · intro call member
        rcases List.mem_append.mp member with old | new
        · exact idle call old
        · rw [List.mem_singleton.mp new]
          exact Or.inl rfl
      · intro i j one other first second loading too
        rw [index_of_last quiet first loading, index_of_last quiet second too]
  | some ref =>
    simp only [Placed, states] at placed
    obtain ⟨agrees, on, still⟩ := placed
    have executed : process.circuit.execute (α := α) config now =
        process.circuit.enter config ref now := by simp [Circuit.execute, states]
    obtain ⟨after, moves⟩ := enter_moves (α := α) config states agrees process.calls.length now
    refine ⟨after, ?_, sound.run positive moves.allowed, ?_⟩
    · simp only [step, executed]
      exact told_moves told moves
    · simp only [step, executed, Placed, moves.mapped]
      refine ⟨moves.agrees, ?_, ?_⟩
      · intro call member
        rcases List.mem_append.mp member with old | new
        · exact on call old
        · rw [List.mem_singleton.mp new]
          exact moves.on
      · intro opened call member
        rcases List.mem_append.mp member with old | new
        · exact still ((moves.opens opened).resolve_right id) call old
        · rw [List.mem_singleton.mp new]
          intro probing
          rw [moves.probing probing] at opened
          cases opened

/-- Before the circuit is loaded, an answer that does not load it ends a call. -/
theorem inv_ended {process : Process α} {phase : Phase Nat} (told : process.breaker = some phase)
    (sound : phase.Sound config.limits) (states : process.circuit.states = none)
    (placed : process.Placed phase) {caller : Nat} {answer : Answer α} {fallback : Bool}
    {call : Call α} (found : process.calls[caller]? = some (fallback, call))
    (silent : call.ends caller answer = []) {result : Except Failure α}
    (ended : process.circuit.resume config fallback call answer =
      (process.circuit, .finished result)) :
    (process.step config (.answer caller answer)).Inv config := by
  simp only [Placed, states] at placed
  obtain ⟨asStored, idle, only⟩ := placed
  have stepped : process.step config (.answer caller answer) =
      { process with calls := process.calls.set caller (fallback, .finished result) } := by
    simp [step, found, ended, silent, Process.told, told, Call.begins]
  rw [stepped]
  refine ⟨phase, told, sound, ?_⟩
  simp only [Placed, states]
  refine ⟨asStored, ?_, ?_⟩
  · intro other changed
    rcases List.mem_or_eq_of_mem_set changed with old | rfl
    · exact idle other old
    · exact Or.inr ⟨result, rfl⟩
  · have untouched : ∀ (i : Nat) (one : Bool × Call α),
        (process.calls.set caller (fallback, .finished result))[i]? = some one →
          one.2.isLoading → process.calls[i]? = some one := by
      intro i one first loading
      rw [List.getElem?_set] at first
      split at first
      · split at first
        · cases first
          cases loading
        · cases first
      · exact first
    intro i j one other first second loading too
    exact only i j one other (untouched i one first loading) (untouched j other second too) loading too

theorem inv_loaded {process : Process α} {phase : Phase Nat} (positive : 0 < config.failureThreshold)
    (told : process.breaker = some phase) (sound : phase.Sound config.limits)
    (states : process.circuit.states = none) (placed : process.Placed phase) {caller : Nat}
    {answer : Answer α} {fallback : Bool} (found : process.calls[caller]? = some (fallback, .loading))
    (fault : answer.fault = none) : (process.step config (.answer caller answer)).Inv config := by
  simp only [Placed, states] at placed
  obtain ⟨asStored, idle, only⟩ := placed
  obtain ⟨after, moves⟩ := loadState_moves (α := α) config process.circuit caller answer.now
  rw [← asStored] at moves
  have loaded : process.circuit.resume config fallback .loading answer =
      process.circuit.loadState config answer.now := by simp [Circuit.resume, fault]
  -- Every other call is finished, since only this one was loading.
  have others : ∀ (next : Bool × Call α), ∀ other ∈ process.calls.set caller next,
      other = next ∨ ∃ result, other.2 = .finished result := by
    intro next other changed
    obtain ⟨i, present⟩ := List.getElem?_of_mem changed
    rw [List.getElem?_set] at present
    split at present
    · split at present
      · exact Or.inl (Option.some.inj present).symm
      · cases present
    · rename_i different
      rcases idle other (List.mem_of_getElem? present) with loading | finished
      · exact absurd (only i caller other _ present found loading rfl).symm different
      · exact Or.inr finished
  refine ⟨after, ?_, sound.run positive moves.allowed, ?_⟩
  · simp only [step, found, loaded]
    exact told_moves told moves
  · simp only [step, found, loaded, Placed, moves.mapped]
    refine ⟨moves.agrees, ?_, ?_⟩
    · intro other changed
      rcases others _ other changed with rfl | ⟨result, finished⟩
      · exact moves.on
      · rw [finished]
        trivial
    · intro opened other changed
      rcases others _ other changed with rfl | ⟨result, finished⟩
      · intro probing
        rw [moves.probing probing] at opened
        cases opened
      · rw [finished]
        exact Bool.false_ne_true

theorem inv_answer {process : Process α} (positive : 0 < config.failureThreshold)
    (inv : process.Inv config) (caller : Nat) (answer : Answer α)
    (orderly : process.Orderly config (.answer caller answer)) :
    (process.step config (.answer caller answer)).Inv config := by
  obtain ⟨phase, told, sound, placed⟩ := inv
  cases found : process.calls[caller]? with
  | none => exact ⟨phase, by simpa [step, found] using told, sound, by simpa [step, found] using placed⟩
  | some entry =>
    obtain ⟨fallback, call⟩ := entry
    have member := List.mem_of_getElem? found
    obtain ⟨inTime, alone⟩ := orderly _ found
    cases states : process.circuit.states with
    | none =>
      have idle : call.isLoading ∨ ∃ result, call = .finished result := by
        simp only [Placed, states] at placed
        exact placed.2.1 _ member
      cases call with
      | finished result => exact inv_ended told sound states placed found rfl rfl
      | loading =>
        cases fault : answer.fault with
        | none => exact inv_loaded positive told sound states placed found fault
        | some error =>
          have ended : process.circuit.resume config fallback .loading answer =
              (process.circuit, .finished (.error error)) := by simp [Circuit.resume, fault]
          exact inv_ended told sound states placed found rfl ended
      | writing payload next => simp [Call.isLoading] at idle
      | running ref => simp [Call.isLoading] at idle
      | fallingBack => simp [Call.isLoading] at idle
    | some ref =>
      simp only [Placed, states] at placed
      obtain ⟨agrees, on, still⟩ := placed
      have unopened : call.isProbing → phase.isOpened = false := by
        intro probing
        by_contra opened
        exact still (by simpa using opened) _ member probing
      obtain ⟨after, moves⟩ := resume_moves config states agrees (on _ member) unopened
        (fun returned successes callers probing => by
          have started := inTime returned
          rwa [SucceedsInTime, told, probing] at started) fallback
      refine ⟨after, ?_, sound.run positive moves.allowed, ?_⟩
      · simp only [step, found]
        exact told_moves told moves
      · simp only [step, found, Placed, moves.mapped]
        refine ⟨moves.agrees, ?_, ?_⟩
        · intro other changed
          rcases List.mem_or_eq_of_mem_set changed with old | rfl
          · exact on other old
          · exact moves.on
        · intro opened other changed
          rcases List.mem_or_eq_of_mem_set changed with old | rfl
          · rcases moves.opens opened with before | ⟨fails, opening⟩
            · exact still before other old
            · exact alone ref fails opening other old
          · intro probing
            rw [moves.probing probing] at opened
            cases opened

theorem inv_fresh {stored : Cached} (sound : stored.phase.Sound config.limits) :
    (fresh stored : Process α).Inv config :=
  ⟨stored.phase, rfl, sound, rfl, by simp [fresh], by simp [fresh]⟩

/-- Every run whose turns are all orderly is a history of the three-state breaker:
no call starts while the circuit is open, the circuit probes again only when the
recovery time is over, it is closed with fewer failures in a row than open it, and
it closes only after enough successes of calls started since it last began to probe. -/
theorem refines_breaker (config : CircuitBreakerConfig) (positive : 0 < config.failureThreshold)
    (stored : Cached) (sound : stored.phase.Sound config.limits) (turns : List (Turn α))
    (orderly : Trace.Meets (step config) (Orderly config) (fresh stored) turns) :
    (run config stored turns).Refines config := by
  have preserves : ∀ (process : Process α) turn, process.Inv config →
      process.Orderly config turn → (process.step config turn).Inv config := by
    intro process turn inv keeps
    cases turn with
    | call fallback now => exact inv_call positive inv fallback now keeps
    | answer caller answer => exact inv_answer positive inv caller answer keeps
  exact (Trace.run_invariant preserves (inv_fresh sound) orderly).refines

/-- A circuit that a single failure opens and a single success closes. -/
def brittle : CircuitBreakerConfig := ⟨"sanity-fetch", 1, 10, 1⟩

def succeeds (now : Int) : Answer Int := ⟨now, none, true, .ok 7⟩

def fails (now : Int) : Answer Int := ⟨now, none, true, .error (.error "timeout")⟩

/-- It opens, probes again, and the probe closes it. -/
def recovery : List (Turn Int) :=
  [.call false 0, .answer 0 (succeeds 0), .answer 0 (succeeds 0), .answer 0 (fails 1),
    .call false 20, .answer 1 (succeeds 20), .answer 1 (succeeds 21)]

theorem refines_breaker_recovery :
    Trace.Meets (step brittle) (Orderly brittle) (fresh .absent) recovery ∧
      (run brittle .absent recovery).Refines brittle :=
  ⟨by decide, refines_breaker brittle (by decide) .absent (by decide) recovery (by decide)⟩

/-- The first call is started while the circuit is closed, and returns when the
third has just made it half open: the circuit closes without a probe. -/
def lateSuccess : List (Turn Int) :=
  [.call false 0, .answer 0 (succeeds 0), .answer 0 (succeeds 0), .call false 0,
    .answer 1 (fails 1), .call false 20, .answer 0 (succeeds 21)]

theorem lateSuccess_not_refines :
    ¬ ∀ (config : CircuitBreakerConfig), 0 < config.failureThreshold →
      ∀ stored : Cached, stored.phase.Sound config.limits →
        ∀ turns : List (Turn Int), (run config stored turns).Refines config := by
  intro refines
  obtain ⟨phase, told, -, agrees⟩ :=
    refines brittle (by decide) .absent (by decide) lateSuccess
  have probing : (run brittle .absent lateSuccess).breaker = some (.probing 0 []) := by decide
  obtain rfl : phase = .probing 0 [] := Option.some.inj (told.symm.trans probing)
  have closed : ((run brittle .absent lateSuccess).circuit.records 0).state = .CLOSED := by decide
  have open_again := (agrees 0 (by decide)).1
  rw [closed] at open_again
  cases open_again

end Process
end Resilience
