import Hakawi.Effects.Program

/-!
# Transactions of a database

A session sends statements, and may gather some of them in a transaction. Any
statement may fail, a commit may be carried out and its answer be lost, and a
transaction in which a statement failed can only be rolled back. A step function
says what a statement answers and what it makes of the state.
-/

namespace Effects.Transaction

inductive Request (O : Type) where
  | statement (op : O)
  | begin
  | commit
  | rollback

inductive Outcome (E : Type) where
  | performed
  /-- It throws and is not carried out. -/
  | refused (error : E)
  /-- It is carried out and throws. -/
  | lost (error : E)

inductive Phase (S : Type) where
  | idle
  /-- What the transaction has made of the committed state so far. -/
  | active (working : S)
  | aborted

structure Session (S : Type) where
  committed : S
  phase : Phase S

variable {S O E : Type} {A : O → Type}

@[reducible] def Answer (A : O → Type) : Request O → Type
  | .statement op => A op
  | _ => Unit

@[reducible] def Result (E : Type) (A : O → Type) (request : Request O) : Type :=
  Except E (Answer A request)

section Execution
variable (step : S → (op : O) → A op × S) (inAborted : E)

/-- `inAborted` is what a statement throws in a transaction that has failed. -/
def exec (outcome : Outcome E) (session : Session S) :
    (request : Request O) → Result E A request × Session S
  | .statement op => match session.phase, outcome with
    | .idle, .performed =>
      (.ok (step session.committed op).1, ⟨(step session.committed op).2, .idle⟩)
    | .idle, .refused error => (.error error, session)
    | .idle, .lost error => (.error error, ⟨(step session.committed op).2, .idle⟩)
    | .active working, .performed =>
      (.ok (step working op).1, ⟨session.committed, .active (step working op).2⟩)
    | .active _, .refused error => (.error error, ⟨session.committed, .aborted⟩)
    | .active _, .lost error => (.error error, ⟨session.committed, .aborted⟩)
    | .aborted, _ => (.error inAborted, session)
  | .begin => match session.phase, outcome with
    | .idle, .performed => (.ok (), ⟨session.committed, .active session.committed⟩)
    | _, .performed => (.ok (), session)
    | _, .refused error => (.error error, session)
    | _, .lost error => (.error error, session)
  | .commit => match session.phase, outcome with
    | .active working, .performed => (.ok (), ⟨working, .idle⟩)
    | .active working, .lost error => (.error error, ⟨working, .idle⟩)
    | _, .performed => (.ok (), ⟨session.committed, .idle⟩)
    -- The connection is gone, and with it the transaction.
    | _, .refused error => (.error error, ⟨session.committed, .idle⟩)
    | _, .lost error => (.error error, ⟨session.committed, .idle⟩)
  | .rollback => match outcome with
    | .performed => (.ok (), ⟨session.committed, .idle⟩)
    | .refused error => (.error error, ⟨session.committed, .idle⟩)
    | .lost error => (.error error, ⟨session.committed, .idle⟩)

/-- Whatever becomes of each request. -/
abbrev spec : Program.OpSpec (Request O) (Result E A) (Session S) :=
  Program.execSpec (exec step inAborted) fun _ => True

theorem spec_monotone : (spec step inAborted : Program.OpSpec (Request O) _ _).Monotone :=
  Program.execSpec_monotone _ _

end Execution

/-- A program in one session: it sends requests, and returns or throws. -/
abbrev Calls (A : O → Type) (E α : Type) : Type := Fallible (Request O) (Result E A) E α

def send (request : Request O) : Calls A E (Answer A request) := ExceptT.mk (.call request .done)

abbrev execute (op : O) : Calls A E (A op) := send (.statement op)

/-- Commit what `body` does, or roll it back and throw what it threw. -/
def transaction {α : Type} (body : Calls A E α) : Calls A E α := do
  send .begin
  tryCatch (do
    let result ← body
    send .commit
    return result) fun error => do
    send .rollback
    throw error

section Rules
variable {step : S → (op : O) → A op × S} {inAborted : E} {α β : Type}

/-- A statement outside a transaction. -/
theorem wpE_execute_idle {op : O} {Q : Except E (A op) → Session S → Prop} {s : S}
    (performed : Q (.ok (step s op).1) ⟨(step s op).2, .idle⟩)
    (refused : ∀ error, Q (.error error) ⟨s, .idle⟩)
    (lost : ∀ error, Q (.error error) ⟨(step s op).2, .idle⟩) :
    wpE (spec step inAborted) (execute op : Calls A E _) Q ⟨s, .idle⟩ := by
  rintro (- | error | error) -
  · exact performed
  · exact refused error
  · exact lost error

/-- A statement in a transaction. -/
theorem wpE_execute_active {op : O} {Q : Except E (A op) → Session S → Prop} {s working : S}
    (performed : Q (.ok (step working op).1) ⟨s, .active (step working op).2⟩)
    (failed : ∀ error, Q (.error error) ⟨s, .aborted⟩) :
    wpE (spec step inAborted) (execute op : Calls A E _) Q ⟨s, .active working⟩ := by
  rintro (- | error | error) -
  · exact performed
  · exact failed error
  · exact failed error

/-- The statements before the commit: those done so far are in the working state, and
a failure leaves the committed state alone. -/
def Within (s : S) (post : α → S → Prop) (result : Except E α) (session : Session S) : Prop :=
  session.committed = s ∧ ∀ a, result = .ok a → ∃ working, session.phase = .active working ∧
    post a working

/-- A transaction is carried out as a whole or not at all, and in the second case it
throws. A lost answer to the commit makes it throw in the first case as well. -/
theorem wpE_transaction {body : Calls A E α} {s : S} {post : α → S → Prop}
    (within : wpE (spec step inAborted) body (Within s post) ⟨s, .active s⟩) :
    wpE (spec step inAborted) (transaction body)
      (fun result session => session.phase = .idle ∧ match result with
        | .ok a => post a session.committed
        | .error _ => session.committed = s ∨ ∃ a, post a session.committed) ⟨s, .idle⟩ := by
  have undo : ∀ (error : E) (session : Session S),
      (session.committed = s ∨ ∃ a, post a session.committed) →
      wpE (spec step inAborted) (do send .rollback; throw error : Calls A E α)
        (fun result session => session.phase = .idle ∧ match result with
          | .ok a => post a session.committed
          | .error _ => session.committed = s ∨ ∃ a, post a session.committed) session := by
    intro error session either
    rw [wpE_bind]
    rintro (- | _ | _) -
    · exact ⟨rfl, either⟩
    · exact ⟨rfl, either⟩
    · exact ⟨rfl, either⟩
  rw [transaction, wpE_bind]
  rintro (- | error | error) -
  · change wpE _ (tryCatch _ _) _ (⟨s, .active s⟩ : Session S)
    rw [wpE_tryCatch, wpE_bind]
    refine wpE_mono (spec_monotone step inAborted) (fun result session here => ?_) within
    obtain ⟨same, committable⟩ := here
    cases result with
    | error error => exact undo error session (Or.inl same)
    | ok a =>
      obtain ⟨working, active, holds⟩ := committable a rfl
      obtain ⟨committed, phase⟩ := session
      obtain rfl : committed = s := same
      obtain rfl : phase = .active working := active
      change wpE (spec step inAborted) _ _ _
      rw [wpE_bind]
      rintro (- | error | error) -
      · exact ⟨rfl, holds⟩
      · exact undo error _ (Or.inl rfl)
      · exact undo error _ (Or.inr ⟨a, holds⟩)
  · exact ⟨rfl, Or.inl rfl⟩
  · exact ⟨rfl, Or.inl rfl⟩

/-- The statements of a transaction one after the other. -/
theorem wpE_forM_active (ops : List O) (s working : S) :
    wpE (spec step inAborted) (forM ops fun op => do let _ ← (execute op : Calls A E _))
      (Within s fun _ final => final = ops.foldl (fun working op => (step working op).2) working)
      ⟨s, .active working⟩ := by
  induction ops generalizing working with
  | nil => exact ⟨rfl, fun _ _ => ⟨working, rfl, rfl⟩⟩
  | cons op rest ih =>
    rw [List.forM_cons, wpE_bind, wpE_bind]
    exact wpE_execute_active (ih _) fun error => ⟨rfl, nofun⟩

/-- A statement outside a transaction that leaves the state alone. -/
theorem wpE_execute_inert {op : O} {s : S} (inert : (step s op).2 = s)
    {Q : Except E (A op) → Session S → Prop} (answers : Q (.ok (step s op).1) ⟨s, .idle⟩)
    (throws : ∀ error, Q (.error error) ⟨s, .idle⟩) :
    wpE (spec step inAborted) (execute op : Calls A E _) Q ⟨s, .idle⟩ := by
  refine wpE_execute_idle ?_ throws ?_
  · rw [inert]
    exact answers
  · rw [inert]
    exact throws

/-- Carried out as a whole or not at all, and as a whole if it returned. -/
def AllOrNothing (before after : S) (result : Except E α) (session : Session S) : Prop :=
  session.phase = .idle ∧ match result with
    | .ok _ => session.committed = after
    | .error _ => session.committed = before ∨ session.committed = after

theorem AllOrNothing.bind_return {p : Calls A E α} {before after : S} {session : Session S}
    (result : α → β)
    (h : wpE (spec step inAborted) p (AllOrNothing before after) session) :
    wpE (spec step inAborted) (do return result (← p)) (AllOrNothing before after) session := by
  rw [wpE_bind]
  refine wpE_mono (spec_monotone step inAborted) (fun outcome session here => ?_) h
  cases outcome with
  | ok a => exact here
  | error error => exact here

/-- The statements of one transaction. -/
theorem wpE_transaction_forM (ops : List O) (rename : E → E) (s : S) :
    wpE (spec step inAborted)
      (tryCatch (transaction (forM ops fun op => do let _ ← (execute op : Calls A E _)))
        fun error => throw (rename error))
      (AllOrNothing s (ops.foldl (fun working op => (step working op).2) s)) ⟨s, .idle⟩ := by
  rw [wpE_tryCatch]
  refine wpE_mono (spec_monotone step inAborted) (fun result session here => ?_)
    (wpE_transaction (wpE_forM_active ops s s))
  cases result with
  | ok u => exact here
  | error error => exact ⟨here.1, here.2.imp_right fun ⟨_, same⟩ => same⟩

/-- A loop whose passes are each carried out as a whole or not at all: what it has done
when it returns or throws is what its first passes do. -/
theorem wpE_foldlM {body : β → α → Calls A E β} {next : S → α → S}
    (each : ∀ acc a s, wpE (spec step inAborted) (body acc a) (AllOrNothing s (next s a)) ⟨s, .idle⟩)
    (acc : β) (items : List α) (s : S) :
    wpE (spec step inAborted) (items.foldlM body acc)
      (fun _ session => session.phase = .idle ∧
        ∃ m, m ≤ items.length ∧ session.committed = (items.take m).foldl next s) ⟨s, .idle⟩ := by
  induction items generalizing acc s with
  | nil => exact ⟨rfl, 0, Nat.le_refl _, rfl⟩
  | cons a rest ih =>
    rw [List.foldlM_cons, wpE_bind]
    refine wpE_mono (spec_monotone step inAborted) (fun result session here => ?_) (each acc a s)
    obtain ⟨committed, phase⟩ := session
    obtain ⟨rfl, done⟩ := here
    cases result with
    | error error =>
      refine ⟨rfl, ?_⟩
      rcases done with same | one
      · exact ⟨0, Nat.zero_le _, same⟩
      · exact ⟨1, Nat.succ_le_succ (Nat.zero_le _), one⟩
    | ok acc =>
      obtain rfl : committed = next s a := done
      refine wpE_mono (spec_monotone step inAborted) (fun result session later => ?_) (ih acc _)
      obtain ⟨settled, m, within, same⟩ := later
      exact ⟨settled, m + 1, Nat.succ_le_succ within, same⟩

end Rules

/-! Runs in which every request is performed. -/

section Performed
variable (step : S → (op : O) → A op × S) (inAborted : E)

/-- Every request is performed. -/
abbrev performedSpec : Program.OpSpec (Request O) (Result E A) (Session S) :=
  Program.execSpec (exec step inAborted) fun outcome => outcome = .performed

theorem performedSpec_monotone :
    (performedSpec step inAborted : Program.OpSpec (Request O) _ _).Monotone :=
  Program.execSpec_monotone _ _

variable {step inAborted} {α β : Type}

/-- A request that is performed. -/
theorem wpE_performed_send {request : Request O} {session : Session S}
    {Q : Except E (Answer A request) → Session S → Prop}
    (performed : Q (exec step inAborted .performed session request).1
      (exec step inAborted .performed session request).2) :
    wpE (performedSpec step inAborted) (send request : Calls A E _) Q session := by
  intro outcome same
  rw [same]
  exact performed

/-- A statement outside a transaction. -/
theorem wpE_performed {op : O} {Q : Except E (A op) → Session S → Prop} {s : S}
    (performed : Q (.ok (step s op).1) ⟨(step s op).2, .idle⟩) :
    wpE (performedSpec step inAborted) (execute op : Calls A E _) Q ⟨s, .idle⟩ :=
  wpE_performed_send performed

/-- What is performed returns, and leaves this state. -/
def Performed (after : S) (result : Except E α) (session : Session S) : Prop :=
  (∃ a, result = .ok a) ∧ session = ⟨after, .idle⟩

theorem wpE_performed_forM_active (ops : List O) (s working : S) :
    wpE (performedSpec step inAborted)
      (forM ops fun op => do let _ ← (execute op : Calls A E _))
      (fun result session => result = .ok () ∧
        session = ⟨s, .active (ops.foldl (fun working op => (step working op).2) working)⟩)
      ⟨s, .active working⟩ := by
  induction ops generalizing working with
  | nil => exact ⟨rfl, rfl⟩
  | cons op rest ih =>
    rw [List.forM_cons, wpE_bind, wpE_bind]
    exact wpE_performed_send (ih _)

/-- The statements of one transaction. -/
theorem wpE_performed_transaction_forM (ops : List O) (rename : E → E) (s : S) :
    wpE (performedSpec step inAborted)
      (tryCatch (transaction (forM ops fun op => do let _ ← (execute op : Calls A E _)))
        fun error => throw (rename error))
      (Performed (ops.foldl (fun working op => (step working op).2) s)) ⟨s, .idle⟩ := by
  rw [wpE_tryCatch, transaction, wpE_bind]
  apply wpE_performed_send
  change wpE _ (tryCatch _ _) _ (⟨s, .active s⟩ : Session S)
  rw [wpE_tryCatch, wpE_bind]
  refine wpE_mono (performedSpec_monotone step inAborted) (fun result session here => ?_)
    (wpE_performed_forM_active ops s s)
  obtain ⟨rfl, rfl⟩ := here
  change wpE (performedSpec step inAborted) _ _ _
  rw [wpE_bind]
  exact wpE_performed_send ⟨⟨(), rfl⟩, rfl⟩

/-- A loop whose passes all return. -/
theorem wpE_performed_foldlM {body : β → α → Calls A E β} {next : S → α → S}
    (each : ∀ acc a s, wpE (performedSpec step inAborted) (body acc a) (Performed (next s a))
      ⟨s, .idle⟩)
    (acc : β) (items : List α) (s : S) :
    wpE (performedSpec step inAborted) (items.foldlM body acc) (Performed (items.foldl next s))
      ⟨s, .idle⟩ := by
  induction items generalizing acc s with
  | nil => exact ⟨⟨acc, rfl⟩, rfl⟩
  | cons a rest ih =>
    rw [List.foldlM_cons, wpE_bind]
    refine wpE_mono (performedSpec_monotone step inAborted) (fun result session here => ?_)
      (each acc a s)
    obtain ⟨⟨acc, rfl⟩, rfl⟩ := here
    exact ih acc _

end Performed
end Effects.Transaction
