import Hakawi.Effects.Trace
import Hakawi.Resilience.CircuitBreaker

/-!
# What becomes of a value the protected function has returned

One call of `execute`, answered again and again until it is finished. The value
is handed on, and the call not counted as a failure, exactly when the store
takes every write that comes after it.
-/

namespace Resilience

open Common Effects

/-- A call, with what it has seen on its way. -/
structure Execution (α : Type) where
  circuit : Circuit
  call : Call α
  /-- How often the protected function has been called. -/
  invocations : Nat := 0
  /-- The record it was called on, and the failures counted on it by then. -/
  started : Option (Nat × Int) := none
  /-- The value it has returned. -/
  resolved : Option α := none
  /-- A write of the store has failed since. -/
  lost : Bool := false

namespace Execution
variable {α : Type} (config : CircuitBreakerConfig) (fallback : Bool)

/-- What is seen of the next await of a call. -/
def arrive (execution : Execution α) (next : Circuit × Call α) : Execution α :=
  match next.2 with
  | .running ref =>
    { execution with
      circuit := next.1
      call := next.2
      invocations := execution.invocations + 1
      started := some (ref, (next.1.records ref).totalFailures) }
  | _ => { execution with circuit := next.1, call := next.2 }

/-- What is seen of an answer. -/
def hear (execution : Execution α) (answer : Answer α) : Execution α :=
  match execution.call, answer.result with
  | .running _, .ok value => { execution with resolved := some value }
  | .writing _ _, _ =>
    { execution with lost := execution.lost || (execution.resolved.isSome && answer.fault.isSome) }
  | _, _ => execution

def step (execution : Execution α) (answer : Answer α) : Execution α :=
  (execution.hear answer).arrive
    (execution.circuit.resume config fallback execution.call answer)

def execute (circuit : Circuit) (now : Int) : Execution α :=
  arrive ⟨circuit, .loading, 0, none, none, false⟩ (circuit.execute config now)

def run (circuit : Circuit) (now : Int) (answers : List (Answer α)) : Execution α :=
  Trace.run (step config fallback) (execute config circuit now) answers

/-- The failures counted on the record of the call are those from before it. -/
def NotCounted (execution : Execution α) : Prop :=
  ∀ ref before, execution.started = some (ref, before) →
    (execution.circuit.records ref).totalFailures = before

/-- A value that the protected function has returned is what the call returns,
and the call does not count as a failure. -/
def Honoured (execution : Execution α) : Prop :=
  ∀ value, execution.resolved = some value →
    execution.call = .finished (.ok value) ∧ execution.NotCounted

end Execution

namespace Circuit
variable (circuit : Circuit) (ref other : Nat)

theorem transitionTo_totalFailures (newState : CircuitBreakerState) :
    ((circuit.transitionTo ref newState).1.records other).totalFailures =
      (circuit.records other).totalFailures := by
  simp only [transitionTo, update, Function.update_apply]
  split
  · rename_i same
    rw [same]
  · rfl

end Circuit

/-! What an await leads to. -/

namespace Circuit
variable {α : Type} (circuit : Circuit) (config : CircuitBreakerConfig)

/-- A call that looks at the state either runs, or waits to run, or is refused. -/
inductive Entered : Call α → Prop where
  | runs (ref : Nat) : Entered (.running ref)
  | probes (payload : CircuitBreakerStateRecord) (ref : Nat) :
    Entered (.writing payload (.start ref))
  | refused (payload : CircuitBreakerStateRecord) : Entered (.writing payload .refuse)

theorem enter_cases (ref : Nat) (now : Int) :
    Entered (circuit.enter (α := α) config ref now).2 := by
  unfold enter
  dsimp only
  split
  · split
    · exact .probes _ _
    · exact .refused _
  · exact .runs _

theorem succeeded_totalFailures (ref : Nat) (value : α) (now : Int) :
    (((circuit.succeeded config ref value now).1).records ref).totalFailures =
      (circuit.records ref).totalFailures := by
  unfold succeeded
  dsimp only
  split
  · split
    · simp [transitionTo_totalFailures]
    · simp
  · simp

theorem succeeded_cases (ref : Nat) (value : α) (now : Int) :
    ∃ payload, (circuit.succeeded config ref value now).2 = .writing payload (.persist ref value) ∨
      (circuit.succeeded config ref value now).2 = .writing payload (.resolve ref value) := by
  unfold succeeded
  dsimp only
  split
  · split
    · exact ⟨_, .inl rfl⟩
    · exact ⟨_, .inr rfl⟩
  · exact ⟨_, .inr rfl⟩

theorem failed_totalFailures (ref : Nat) (error : Failure) (now : Int) :
    (((circuit.failed (α := α) config ref error now).1).records ref).totalFailures =
      (circuit.records ref).totalFailures + 1 := by
  unfold failed
  dsimp only
  split
  · simp [transitionTo_totalFailures]
  · split
    · simp [transitionTo_totalFailures]
    · simp
  · simp

theorem failed_cases (ref : Nat) (error : Failure) (now : Int) :
    ∃ payload, (circuit.failed (α := α) config ref error now).2 =
        .writing payload (.persistFailure ref error) ∨
      (circuit.failed (α := α) config ref error now).2 = .writing payload (.rethrow error) := by
  unfold failed
  dsimp only
  split
  · exact ⟨_, .inl rfl⟩
  · split
    · exact ⟨_, .inl rfl⟩
    · exact ⟨_, .inr rfl⟩
  · exact ⟨_, .inr rfl⟩

end Circuit

namespace Execution
variable {α : Type}

/-- The protected function has not been called. -/
def Untouched (execution : Execution α) : Prop :=
  execution.invocations = 0 ∧ execution.resolved = none ∧ execution.lost = false

/-- It has been called, and its failures are those from before. -/
def Kept (execution : Execution α) (ref : Nat) : Prop :=
  execution.invocations = 1 ∧
    execution.started = some (ref, (execution.circuit.records ref).totalFailures) ∧
    execution.lost = false

/-- The call counts as a failure: by itself, or because of a lost write. -/
def Counted (execution : Execution α) : Prop :=
  execution.invocations = 1 ∧
    (∃ ref before, execution.started = some (ref, before) ∧
      (execution.circuit.records ref).totalFailures = before + 1) ∧
    execution.lost = execution.resolved.isSome

/-- What a call has seen, by what it waits for. -/
def Seen (execution : Execution α) : Prop :=
  match execution.call with
  | .loading => execution.Untouched
  | .writing _ (.enter _) => execution.Untouched
  | .writing _ (.start _) => execution.Untouched
  | .writing _ .refuse => execution.Untouched
  | .running ref => execution.Kept ref ∧ execution.resolved = none
  | .writing _ (.persist ref value) => execution.Kept ref ∧ execution.resolved = some value
  | .writing _ (.resolve ref value) => execution.Kept ref ∧ execution.resolved = some value
  | .writing _ (.persistFailure _ _) => execution.Counted
  | .writing _ (.rethrow _) => execution.Counted
  | .fallingBack => execution.Untouched ∨ execution.Counted
  | .finished result => execution.Untouched ∨ execution.Counted ∨
      ∃ ref value, execution.Kept ref ∧ execution.resolved = some value ∧ result = .ok value

theorem seen_of_entered {execution : Execution α} (untouched : execution.Untouched)
    {circuit : Circuit} {call : Call α} (entered : Circuit.Entered call) :
    (execution.arrive (circuit, call)).Seen := by
  obtain ⟨none_yet, unresolved, unlost⟩ := untouched
  cases entered with
  | runs ref => exact ⟨⟨congrArg (· + 1) none_yet, rfl, unlost⟩, unresolved⟩
  | probes payload ref => exact ⟨none_yet, unresolved, unlost⟩
  | refused payload => exact ⟨none_yet, unresolved, unlost⟩

theorem seen_execute (config : CircuitBreakerConfig) (circuit : Circuit) (now : Int) :
    (execute (α := α) config circuit now).Seen := by
  unfold execute Circuit.execute
  split
  · exact seen_of_entered ⟨rfl, rfl, rfl⟩ (Circuit.enter_cases ..)
  · exact ⟨rfl, rfl, rfl⟩

/-- The `catch` block counts, whatever led to it. -/
theorem seen_failed (execution : Execution α) {ref : Nat} {before : Int}
    (invocations : execution.invocations = 1) (started : execution.started = some (ref, before))
    (lost : execution.lost = execution.resolved.isSome) (config : CircuitBreakerConfig)
    {circuit : Circuit} (counted : (circuit.records ref).totalFailures = before)
    (error : Failure) (now : Int) :
    (execution.arrive (circuit.failed config ref error now)).Seen := by
  have after := circuit.failed_totalFailures (α := α) config ref error now
  rw [counted] at after
  obtain ⟨payload, persists | rethrows⟩ := circuit.failed_cases (α := α) config ref error now
  · simp only [arrive, persists, Seen]
    exact ⟨invocations, ⟨ref, before, started, after⟩, lost⟩
  · simp only [arrive, rethrows, Seen]
    exact ⟨invocations, ⟨ref, before, started, after⟩, lost⟩

theorem seen_succeeded {execution : Execution α} {ref : Nat} {value : α}
    (kept : execution.Kept ref) (resolved : execution.resolved = some value)
    (config : CircuitBreakerConfig) (now : Int) :
    (execution.arrive (execution.circuit.succeeded config ref value now)).Seen := by
  obtain ⟨invocations, started, unlost⟩ := kept
  have after := execution.circuit.succeeded_totalFailures config ref value now
  rw [← after] at started
  obtain ⟨payload, persists | resolves⟩ := execution.circuit.succeeded_cases config ref value now
  · simp only [arrive, persists, Seen]
    exact ⟨⟨invocations, started, unlost⟩, resolved⟩
  · simp only [arrive, resolves, Seen]
    exact ⟨⟨invocations, started, unlost⟩, resolved⟩

/-- Where a call goes that the fallback is left for. -/
theorem seen_giveUp {execution : Execution α} (ends : execution.Untouched ∨ execution.Counted)
    (circuit : Circuit) (records : circuit.records = execution.circuit.records)
    (fallback : Bool) (error : Failure) :
    (execution.arrive (circuit, Circuit.giveUp fallback error)).Seen := by
  have same : ({ execution with circuit := circuit } : Execution α).Untouched ∨
      ({ execution with circuit := circuit } : Execution α).Counted := by
    simpa only [Untouched, Counted, records] using ends
  cases fallback with
  | true => exact same
  | false =>
    rcases same with untouched | counted
    · exact Or.inl untouched
    · exact Or.inr (Or.inl counted)

theorem seen_loading (config : CircuitBreakerConfig) (fallback : Bool) {execution : Execution α}
    (untouched : execution.Untouched) (circuit : Circuit) (answer : Answer α) :
    (execution.arrive (circuit.resume config fallback .loading answer)).Seen := by
  simp only [Circuit.resume]
  cases answer.fault with
  | some error => exact Or.inl untouched
  | none =>
    simp only [Circuit.loadState]
    split
    · exact seen_of_entered untouched (Circuit.enter_cases ..)
    · exact untouched

/-- A write that fails outside the `try` block ends the call. -/
theorem seen_fault {execution : Execution α} (ends : execution.Untouched ∨ execution.Counted)
    (circuit : Circuit) (records : circuit.records = execution.circuit.records) (error : Failure) :
    (({ execution with lost := execution.lost || execution.resolved.isSome } :
      Execution α).arrive (circuit, .finished (.error error))).Seen := by
  rcases ends with ⟨none_yet, unresolved, unlost⟩ | ⟨once, started, lost⟩
  · have still : (execution.lost || execution.resolved.isSome) = false := by
      rw [unlost, unresolved]
      rfl
    exact Or.inl ⟨none_yet, unresolved, still⟩
  · refine Or.inr (Or.inl ⟨once, ?_, ?_⟩)
    · simpa only [arrive, records] using started
    · exact (congrArg (· || execution.resolved.isSome) lost).trans (Bool.or_self _)

theorem seen_written (config : CircuitBreakerConfig) (fallback : Bool) {circuit : Circuit}
    {invocations : Nat} {started : Option (Nat × Int)} {resolved : Option α} {lost : Bool}
    (payload : CircuitBreakerStateRecord) (next : Continuation α)
    (seen : (⟨circuit, .writing payload next, invocations, started, resolved, lost⟩ :
      Execution α).Seen) (answer : Answer α) :
    (step config fallback
      ⟨circuit, .writing payload next, invocations, started, resolved, lost⟩ answer).Seen := by
  simp only [step, hear, Circuit.resume]
  have records := circuit.write_records payload answer.written
  generalize circuit.write payload answer.written = after at records
  cases fault : answer.fault with
  | none =>
    simp only [Option.isSome_none, Bool.and_false, Bool.or_false]
    cases next with
    | enter ref =>
      simp only [Circuit.written, fault]
      exact seen_of_entered seen (Circuit.enter_cases ..)
    | start ref =>
      simp only [Circuit.written, fault]
      exact seen_of_entered seen (.runs ref)
    | refuse =>
      simp only [Circuit.written, fault]
      exact seen_giveUp (Or.inl seen) after records fallback _
    | persist ref value => simpa [Circuit.written, fault, arrive, Seen, Kept, records] using seen
    | resolve ref value =>
      have kept : (⟨after, .finished (.ok value), invocations, started, resolved, lost⟩ :
          Execution α).Kept ref ∧ resolved = some value := by
        simpa [Seen, Kept, records] using seen
      simp only [Circuit.written, fault, arrive, Seen]
      exact Or.inr (Or.inr ⟨ref, value, kept.1, kept.2, rfl⟩)
    | persistFailure ref error =>
      simpa [Circuit.written, fault, arrive, Seen, Counted, records] using seen
    | rethrow error =>
      simp only [Circuit.written, fault]
      exact seen_giveUp (Or.inr seen) after records fallback error
  | some error =>
    simp only [Option.isSome_some, Bool.and_true]
    cases next with
    | enter ref =>
      simp only [Circuit.written, fault]
      exact seen_fault (Or.inl seen) after records error
    | start ref =>
      simp only [Circuit.written, fault]
      exact seen_fault (Or.inl seen) after records error
    | refuse =>
      simp only [Circuit.written, fault]
      exact seen_fault (Or.inl seen) after records error
    | persist ref value =>
      obtain ⟨⟨once, began, -⟩, returned⟩ := seen
      simp only [Circuit.written, fault]
      refine seen_failed ⟨circuit, .writing payload (.persist ref value), invocations, started,
        resolved, lost || resolved.isSome⟩ once began ?_ config (by rw [records]) error answer.now
      rw [show resolved = some value from returned]
      exact Bool.or_true lost
    | resolve ref value =>
      obtain ⟨⟨once, began, -⟩, returned⟩ := seen
      simp only [Circuit.written, fault]
      refine seen_failed ⟨circuit, .writing payload (.resolve ref value), invocations, started,
        resolved, lost || resolved.isSome⟩ once began ?_ config (by rw [records]) error answer.now
      rw [show resolved = some value from returned]
      exact Bool.or_true lost
    | persistFailure ref _ =>
      simp only [Circuit.written, fault]
      exact seen_fault (Or.inr seen) after records error
    | rethrow _ =>
      simp only [Circuit.written, fault]
      exact seen_fault (Or.inr seen) after records error

theorem seen_step (config : CircuitBreakerConfig) (fallback : Bool) {execution : Execution α}
    (seen : execution.Seen) (answer : Answer α) : (execution.step config fallback answer).Seen := by
  obtain ⟨circuit, call, invocations, started, resolved, lost⟩ := execution
  cases call with
  | loading => exact seen_loading config fallback seen circuit answer
  | writing payload next => exact seen_written config fallback payload next seen answer
  | running ref =>
    obtain ⟨kept, unresolved⟩ := seen
    simp only [step, hear, Circuit.resume]
    cases answer.result with
    | error error =>
      refine seen_failed _ kept.1 kept.2.1 ?_ config rfl error answer.now
      exact kept.2.2.trans (congrArg Option.isSome unresolved).symm
    | ok value =>
      have returned : (⟨circuit, .running ref, invocations, started, some value, lost⟩ :
          Execution α).Kept ref := kept
      exact seen_succeeded returned rfl config answer.now
  | fallingBack =>
    rcases seen with untouched | counted
    · exact Or.inl untouched
    · exact Or.inr (Or.inl counted)
  | finished result => exact seen

theorem seen_run (config : CircuitBreakerConfig) (fallback : Bool) (circuit : Circuit) (now : Int)
    (answers : List (Answer α)) : (run config fallback circuit now answers).Seen := by
  have preserves : ∀ (execution : Execution α) answer, execution.Seen →
      (step config fallback execution answer).Seen :=
    fun _ answer seen => seen_step config fallback seen answer
  exact Trace.run_invariant_always preserves (seen_execute config circuit now) answers

end Execution

/-! A call needs no more than nine answers. -/

namespace Call
variable {α : Type}

def remaining : Call α → Nat
  | loading => 9
  | writing _ (.enter _) => 8
  | writing _ (.start _) => 7
  | running _ => 6
  | writing _ (.persist _ _) => 5
  | writing _ (.resolve _ _) => 4
  | writing _ (.persistFailure _ _) => 3
  | writing _ (.rethrow _) => 2
  | writing _ .refuse => 2
  | fallingBack => 1
  | finished _ => 0

theorem remaining_giveUp (fallback : Bool) (error : Failure) :
    (Circuit.giveUp fallback error : Call α).remaining ≤ 1 := by
  cases fallback with
  | true => exact Nat.le_refl _
  | false => exact Nat.zero_le _

theorem remaining_entered {call : Call α} (entered : Circuit.Entered call) :
    call.remaining ≤ 7 := by
  cases entered with
  | runs ref => exact Nat.le_succ 6
  | probes payload ref => exact Nat.le_refl _
  | refused payload => exact Nat.le_add_right 2 5

theorem remaining_loadState (config : CircuitBreakerConfig) (circuit : Circuit) (now : Int) :
    (circuit.loadState (α := α) config now).2.remaining ≤ 8 := by
  unfold Circuit.loadState
  split
  · exact Nat.le_succ_of_le (remaining_entered (Circuit.enter_cases ..))
  · exact Nat.le_refl 8

theorem remaining_succeeded (config : CircuitBreakerConfig) (circuit : Circuit) (ref : Nat)
    (value : α) (now : Int) : (circuit.succeeded config ref value now).2.remaining ≤ 5 := by
  obtain ⟨payload, persists | resolves⟩ := circuit.succeeded_cases config ref value now
  · rw [persists]
    exact Nat.le_refl 5
  · rw [resolves]
    exact Nat.le_succ 4

theorem remaining_failed (config : CircuitBreakerConfig) (circuit : Circuit) (ref : Nat)
    (error : Failure) (now : Int) :
    (circuit.failed (α := α) config ref error now).2.remaining ≤ 3 := by
  obtain ⟨payload, persists | rethrows⟩ := circuit.failed_cases (α := α) config ref error now
  · rw [persists]
    exact Nat.le_refl 3
  · rw [rethrows]
    exact Nat.le_succ 2

theorem remaining_written (config : CircuitBreakerConfig) (fallback : Bool) (circuit : Circuit)
    (payload : CircuitBreakerStateRecord) (next : Continuation α) (answer : Answer α) :
    (circuit.written config fallback next answer).2.remaining <
      (writing payload next).remaining := by
  unfold Circuit.written
  cases fault : answer.fault with
  | none =>
    cases next with
    | enter ref =>
      exact Nat.lt_succ_of_le (remaining_entered (circuit.enter_cases config ref answer.now))
    | start ref => exact Nat.lt_succ_self 6
    | refuse => exact Nat.lt_succ_of_le (remaining_giveUp fallback _)
    | persist ref value => exact Nat.lt_succ_self 4
    | resolve ref value => exact Nat.succ_pos 3
    | persistFailure ref error => exact Nat.lt_succ_self 2
    | rethrow error => exact Nat.lt_succ_of_le (remaining_giveUp fallback error)
  | some error =>
    cases next with
    | persist ref value =>
      exact Nat.lt_of_le_of_lt (remaining_failed config circuit ref error answer.now)
        (Nat.lt_add_of_pos_right (Nat.succ_pos 1))
    | resolve ref value =>
      exact Nat.lt_succ_of_le (remaining_failed config circuit ref error answer.now)
    | enter ref => exact Nat.succ_pos 7
    | start ref => exact Nat.succ_pos 6
    | refuse => exact Nat.succ_pos 1
    | persistFailure ref _ => exact Nat.succ_pos 2
    | rethrow _ => exact Nat.succ_pos 1

/-- Every answer brings a call nearer to its end. -/
theorem remaining_resume (config : CircuitBreakerConfig) (fallback : Bool) (circuit : Circuit)
    (call : Call α) (answer : Answer α) :
    (circuit.resume config fallback call answer).2.remaining ≤ call.remaining - 1 := by
  cases call with
  | loading =>
    simp only [Circuit.resume]
    cases answer.fault with
    | none => exact remaining_loadState config circuit answer.now
    | some error => exact Nat.zero_le 8
  | writing payload next =>
    have fewer := remaining_written config fallback (circuit.write payload answer.written) payload
      next answer
    simp only [Circuit.resume]
    omega
  | running ref =>
    simp only [Circuit.resume]
    cases answer.result with
    | ok value => exact remaining_succeeded config circuit ref value answer.now
    | error error =>
      exact Nat.le_trans (remaining_failed config circuit ref error answer.now)
        (Nat.le_add_right 3 2)
  | fallingBack => exact Nat.le_refl 0
  | finished result => exact Nat.le_refl 0

theorem finished_of_remaining {call : Call α} (h : call.remaining = 0) :
    ∃ result, call = finished result := by
  cases call with
  | finished result => exact ⟨result, rfl⟩
  | writing payload next => cases next <;> cases h
  | loading => cases h
  | running ref => cases h
  | fallingBack => cases h

end Call

namespace Execution
variable {α : Type}

theorem step_call (config : CircuitBreakerConfig) (fallback : Bool) (execution : Execution α)
    (answer : Answer α) : (execution.step config fallback answer).call =
      (execution.circuit.resume config fallback execution.call answer).2 := by
  unfold step arrive
  split <;> rfl

theorem remaining_run (config : CircuitBreakerConfig) (fallback : Bool)
    (execution : Execution α) (answers : List (Answer α)) :
    (Trace.run (step config fallback) execution answers).call.remaining ≤
      execution.call.remaining - answers.length := by
  induction answers generalizing execution with
  | nil => exact Nat.le_refl _
  | cons answer rest ih =>
    have once := Call.remaining_resume config fallback execution.circuit execution.call answer
    have others := ih (execution.step config fallback answer)
    rw [step_call] at others
    rw [Trace.run_cons, List.length_cons]
    omega

theorem remaining_execute (config : CircuitBreakerConfig) (circuit : Circuit) (now : Int) :
    (execute (α := α) config circuit now).call.remaining ≤ 9 := by
  have first : (circuit.execute (α := α) config now).2.remaining ≤ 9 := by
    unfold Circuit.execute
    split
    · exact Nat.le_trans (Call.remaining_entered (Circuit.enter_cases ..)) (Nat.le_add_right 7 2)
    · exact Nat.le_refl 9
  unfold execute arrive
  split
  · exact first
  · exact first

theorem finished_run (config : CircuitBreakerConfig) (fallback : Bool) (circuit : Circuit)
    (now : Int) {answers : List (Answer α)} (enough : 9 ≤ answers.length) :
    ∃ result, (run config fallback circuit now answers).call = .finished result := by
  have bound := remaining_run config fallback (execute config circuit now) answers
  have first := remaining_execute (α := α) config circuit now
  have ended : (run config fallback circuit now answers).call.remaining = 0 := by
    unfold run
    omega
  exact Call.finished_of_remaining ended

/-- The protected function is called once at most, and the value it returns is
the value of the call, which then counts no failure, exactly when the store takes
every write that comes after it. -/
theorem honoured_iff_not_lost (config : CircuitBreakerConfig) (fallback : Bool)
    (circuit : Circuit) (now : Int) (answers : List (Answer α)) (enough : 9 ≤ answers.length) :
    (run config fallback circuit now answers).invocations ≤ 1 ∧
      ((run config fallback circuit now answers).Honoured ↔
        (run config fallback circuit now answers).lost = false) := by
  have seen := seen_run config fallback circuit now answers
  obtain ⟨result, ended⟩ := finished_run config fallback circuit now enough
  generalize run config fallback circuit now answers = execution at seen ended
  rw [Seen, ended] at seen
  rcases seen with ⟨never, unresolved, unlost⟩ | ⟨once, ⟨ref, before, started, counted⟩, lost⟩ |
    ⟨ref, value, ⟨once, started, unlost⟩, returned, rfl⟩
  · refine ⟨by omega, fun _ => unlost, fun _ value returned => ?_⟩
    rw [unresolved] at returned
    cases returned
  · refine ⟨by omega, fun honoured => ?_, fun unlost value returned => ?_⟩
    · -- A call that counts cannot have returned a value that is honoured.
      cases returned : execution.resolved with
      | none => rw [lost, returned]; rfl
      | some value =>
        have uncounted := (honoured value returned).2 ref before started
        omega
    · rw [lost, returned] at unlost
      cases unlost
  · refine ⟨by omega, fun _ => unlost, fun _ other same => ?_⟩
    obtain rfl : value = other := Option.some.inj (returned.symm.trans same)
    refine ⟨ended, fun other before began => ?_⟩
    rw [started] at began
    obtain ⟨rfl, rfl⟩ := Prod.mk.inj (Option.some.inj began)
    rfl

end Execution

/-! A circuit used for the first time, and a store that is there, or that goes
away while the protected function runs. -/

def config : CircuitBreakerConfig := ⟨"paymob", 5, 30000, 3⟩

def Answer.taken (now : Int) : Answer Int := ⟨now, none, true, .ok 7⟩

def Answer.refused (now : Int) : Answer Int := ⟨now, some (.error "ECONNRESET"), false, .ok 7⟩

namespace Execution

theorem honoured_iff_not_lost_taken :
    9 ≤ (List.replicate 9 (Answer.taken 1)).length ∧
      (run config false (.fresh .absent) 0 (List.replicate 9 (Answer.taken 1))).Honoured :=
  ⟨by decide, (honoured_iff_not_lost config false (.fresh .absent) 0 _ (by decide)).2.mpr
    (by decide)⟩

/-- The function returns 7, and `execute` throws what the store threw. -/
theorem returned_value_lost :
    ¬ ∀ (config : CircuitBreakerConfig) (fallback : Bool) (circuit : Circuit) (now : Int)
      (answers : List (Answer Int)), 9 ≤ answers.length →
        (run config fallback circuit now answers).Honoured := by
  intro honoured
  have ended := honoured config false (.fresh .absent) 0
    ([.taken 1, .taken 2, .taken 3, .refused 4] ++ List.replicate 5 (.taken 5)) (by decide) 7 (by decide)
  have threw : (run config false (.fresh .absent) 0
      ([.taken 1, .taken 2, .taken 3, .refused 4] ++ List.replicate 5 (.taken 5))).call =
    .finished (.error (.error "ECONNRESET")) := rfl
  rw [threw] at ended
  cases ended.1

end Execution
end Resilience
