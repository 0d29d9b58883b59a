/-!
# Programs over atomic operations

A program is a finite tree of calls: each call names an operation, and the rest
of the program depends on its answer. Programs say nothing about what an
operation does. `eval` runs one program alone on a state; `wp` is the weakest
precondition against any specification of the operations, whether that is the
actual execution or a discipline the caller has to follow.
-/

namespace Effects

/-- `call op next` performs `op` and goes on with its answer. -/
inductive Program (O : Type) (R : O → Type) (α : Type) where
  | done (a : α)
  | call (op : O) (next : R op → Program O R α)

namespace Program
variable {O : Type} {R : O → Type} {α β : Type}

def bind : Program O R α → (α → Program O R β) → Program O R β
  | done a, f => f a
  | call op next, f => call op (fun r => (next r).bind f)

instance : Monad (Program O R) where
  pure := done
  bind := bind

@[simp] theorem pure_eq (a : α) : (pure a : Program O R α) = done a := rfl

@[simp] theorem done_bind (a : α) (f : α → Program O R β) :
    (done a >>= f : Program O R β) = f a := rfl

@[simp] theorem call_bind (op : O) (next : R op → Program O R α) (f : α → Program O R β) :
    (call op next >>= f : Program O R β) = call op (fun r => next r >>= f) := rfl

section Sequential
variable {S C : Type} (exec : C → S → (op : O) → R op × S)

/-- One program run alone. `choices n` is what the environment decides at the
n-th call; every program ends, so no fuel is needed. -/
def eval : Program O R α → (Nat → C) → S → α × S
  | done a, _, s => (a, s)
  | call op next, choices, s =>
    (next (exec (choices 0) s op).1).eval (fun n => choices (n + 1)) (exec (choices 0) s op).2

/-- How many calls a run makes. -/
def calls : Program O R α → (Nat → C) → S → Nat
  | done _, _, _ => 0
  | call op next, choices, s =>
    (next (exec (choices 0) s op).1).calls (fun n => choices (n + 1)) (exec (choices 0) s op).2 + 1

/-- The rest of a program goes on where the first part stopped. -/
theorem eval_bind (p : Program O R α) (f : α → Program O R β) (choices : Nat → C) (s : S) :
    (p >>= f).eval exec choices s =
      (f (p.eval exec choices s).1).eval exec (fun n => choices (n + p.calls exec choices s))
        (p.eval exec choices s).2 := by
  induction p generalizing choices s with
  | done a => rfl
  | call op next ih =>
    rw [call_bind, eval, ih]
    simp only [eval, calls, Nat.add_assoc]

end Sequential

/-- A specification of the operations: what has to hold before a call for its
answer and the state after it to satisfy a given postcondition. -/
abbrev OpSpec (O : Type) (R : O → Type) (X : Type) : Type :=
  (op : O) → (R op → X → Prop) → X → Prop

variable {X : Type} (spec : OpSpec O R X)

def wp : Program O R α → (α → X → Prop) → X → Prop
  | done a, Q, x => Q a x
  | call op next, Q, x => spec op (fun r y => (next r).wp Q y) x

@[simp] theorem wp_done (a : α) (Q : α → X → Prop) (x : X) :
    (done a : Program O R α).wp spec Q x = Q a x := rfl

@[simp] theorem wp_call (op : O) (next : R op → Program O R α) (Q : α → X → Prop) (x : X) :
    (call op next).wp spec Q x = spec op (fun r y => (next r).wp spec Q y) x := rfl

theorem wp_bind (p : Program O R α) (f : α → Program O R β) (Q : β → X → Prop) (x : X) :
    (p >>= f).wp spec Q x = p.wp spec (fun a y => (f a).wp spec Q y) x := by
  induction p generalizing x with
  | done a => rfl
  | call op next ih =>
    change spec op (fun r y => ((next r) >>= f).wp spec Q y) x = _
    simp only [ih, wp_call]

/-- A specification is monotone when a weaker postcondition is easier to reach. -/
def OpSpec.Monotone (spec : OpSpec O R X) : Prop :=
  ∀ op (Q Q' : R op → X → Prop) x, (∀ r y, Q r y → Q' r y) → spec op Q x → spec op Q' x

variable {spec}

theorem wp_mono (mono : spec.Monotone) {p : Program O R α} {Q Q' : α → X → Prop}
    (weaker : ∀ a y, Q a y → Q' a y) {x : X} (h : p.wp spec Q x) : p.wp spec Q' x := by
  induction p generalizing x with
  | done a => exact weaker a x h
  | call op next ih => exact mono op _ _ x (fun r y hy => ih r hy) h

/-- A specification that asks for more proves less often, and what it proves still holds. -/
theorem wp_weaken_spec {spec' : OpSpec O R X} (mono : spec'.Monotone)
    (weaker : ∀ op (Q : R op → X → Prop) x, spec op Q x → spec' op Q x)
    {p : Program O R α} {Q : α → X → Prop} {x : X} (h : p.wp spec Q x) : p.wp spec' Q x := by
  induction p generalizing x with
  | done a => exact h
  | call op next ih => exact mono op _ _ x (fun r y hy => ih r hy) (weaker op _ x h)

section Execution
variable {S C : Type} (exec : C → S → (op : O) → R op × S) (ok : C → Prop)

/-- The execution itself as a specification: every choice of the environment
that is `ok` counts. -/
def execSpec : OpSpec O R S :=
  fun op Q s => ∀ c, ok c → Q (exec c s op).1 (exec c s op).2

theorem execSpec_monotone : (execSpec exec ok : OpSpec O R S).Monotone :=
  fun _ _ _ _ weaker h c hc => weaker _ _ (h c hc)

variable {exec ok}

/-- What is proved by `wp` holds of every run. -/
theorem eval_of_wp {p : Program O R α} {Q : α → S → Prop} {s : S}
    (h : p.wp (execSpec exec ok) Q s) {choices : Nat → C} (hc : ∀ n, ok (choices n)) :
    Q (p.eval exec choices s).1 (p.eval exec choices s).2 := by
  induction p generalizing choices s with
  | done a => exact h
  | call op next ih => exact ih _ (h (choices 0) (hc 0)) fun n => hc (n + 1)

theorem wp_of_forall {Q : α → S → Prop} (always : ∀ a s, Q a s) (p : Program O R α) (s : S) :
    p.wp (execSpec exec ok) Q s := by
  induction p generalizing s with
  | done a => exact always a s
  | call op next ih => exact fun c _ => ih _ _

theorem wp_and {p : Program O R α} {Q Q' : α → S → Prop} {s : S}
    (first : p.wp (execSpec exec ok) Q s) (second : p.wp (execSpec exec ok) Q' s) :
    p.wp (execSpec exec ok) (fun a s => Q a s ∧ Q' a s) s := by
  induction p generalizing s with
  | done a => exact ⟨first, second⟩
  | call op next ih => exact fun c chosen => ih _ (first c chosen) (second c chosen)

end Execution

section Each
variable {S C : Type} (exec : C → S → (op : O) → R op × S)

/-- Every call of a run meets a condition on the state before it. -/
def Each (ok : C → S → O → Prop) : Program O R α → (Nat → C) → S → Prop
  | done _, _, _ => True
  | call op next, choices, s => ok (choices 0) s op ∧
      (next (exec (choices 0) s op).1).Each ok (fun n => choices (n + 1))
        (exec (choices 0) s op).2

instance decidableEach (ok : C → S → O → Prop) [∀ c s op, Decidable (ok c s op)] :
    (p : Program O R α) → (choices : Nat → C) → (s : S) → Decidable (p.Each exec ok choices s)
  | done _, _, _ => .isTrue trivial
  | call op next, choices, s =>
    have := decidableEach ok (next (exec (choices 0) s op).1) (fun n => choices (n + 1))
      (exec (choices 0) s op).2
    inferInstanceAs (Decidable (_ ∧ _))

/-- The execution as a specification, where calls are taken to meet the condition. -/
def assuming (ok : C → S → O → Prop) : OpSpec O R S :=
  fun op Q s => ∀ c, ok c s op → Q (exec c s op).1 (exec c s op).2

theorem assuming_monotone (ok : C → S → O → Prop) :
    (assuming exec ok : OpSpec O R S).Monotone :=
  fun _ _ _ _ weaker h c hc => weaker _ _ (h c hc)

variable {exec} {ok : C → S → O → Prop}

theorem eval_of_assuming {p : Program O R α} {Q : α → S → Prop} {choices : Nat → C} {s : S}
    (h : p.wp (assuming exec ok) Q s) (each : p.Each exec ok choices s) :
    Q (p.eval exec choices s).1 (p.eval exec choices s).2 := by
  induction p generalizing choices s with
  | done a => exact h
  | call op next ih => exact ih _ (h (choices 0) each.1) each.2

theorem each_of_forall (always : ∀ c s op, ok c s op) (p : Program O R α) (choices : Nat → C)
    (s : S) : p.Each exec ok choices s := by
  induction p generalizing choices s with
  | done a => trivial
  | call op next ih => exact ⟨always _ _ _, ih _ _ _⟩

theorem each_of_choices {ok' : C → Prop} {choices : Nat → C} (all : ∀ n, ok' (choices n))
    (p : Program O R α) (s : S) : p.Each exec (fun c _ _ => ok' c) choices s := by
  induction p generalizing choices s with
  | done a => trivial
  | call op next ih => exact ⟨all 0, ih _ (fun n => all (n + 1)) _⟩

theorem Each.and_choices {p : Program O R α} {choices : Nat → C} {s : S}
    (each : p.Each exec ok choices s) {ok' : C → Prop} (all : ∀ n, ok' (choices n)) :
    p.Each exec (fun c s op => ok' c ∧ ok c s op) choices s := by
  induction p generalizing choices s with
  | done a => trivial
  | call op next ih => exact ⟨⟨all 0, each.1⟩, ih _ each.2 fun n => all (n + 1)⟩

end Each

section Only
variable {A B : O → Prop}

/-- Every call is one of `A`, whatever is answered. -/
def Only (A : O → Prop) : Program O R α → Prop
  | done _ => True
  | call op next => A op ∧ ∀ r, (next r).Only A

theorem Only.mono {p : Program O R α} (only : p.Only A) (within : ∀ op, A op → B op) :
    p.Only B := by
  induction p with
  | done a => trivial
  | call op next ih => exact ⟨within op only.1, fun r => ih r (only.2 r)⟩

theorem Only.bind {p : Program O R α} {f : α → Program O R β} (first : p.Only A)
    (rest : ∀ a, (f a).Only A) : (p >>= f).Only A := by
  induction p with
  | done a => exact rest a
  | call op next ih => exact ⟨first.1, fun r => ih r (first.2 r)⟩

/-- Calls that leave something as it is, as a specification sees it. -/
theorem Only.wp {p : Program O R α} {x : X} {Q : α → X → Prop} (only : p.Only A)
    (still : ∀ op, A op → ∀ Q : R op → X → Prop, (∀ r, Q r x) → spec op Q x)
    (ends : ∀ a, Q a x) : p.wp spec Q x := by
  induction p with
  | done a => exact ends a
  | call op next ih => exact still op only.1 _ fun r => ih r (only.2 r)

/-- What every call keeps, the program keeps. -/
theorem Only.eval {S C : Type} {exec : C → S → (op : O) → R op × S} {inv : S → Prop}
    {p : Program O R α} (only : p.Only A)
    (keeps : ∀ c s op, A op → inv s → inv (exec c s op).2) (choices : Nat → C) {s : S}
    (holds : inv s) : inv (p.eval exec choices s).2 := by
  induction p generalizing choices s with
  | done a => exact holds
  | call op next ih => exact ih _ (only.2 _) _ (keeps _ _ _ only.1 holds)

theorem only_any (p : Program O R α) : p.Only fun _ => True := by
  induction p with
  | done a => trivial
  | call op next ih => exact ⟨trivial, ih⟩

/-- What every call keeps holds in the end, as the execution sees it. -/
theorem Only.wp_inv {S C : Type} {exec : C → S → (op : O) → R op × S} {ok : C → Prop}
    {inv : S → Prop} {p : Program O R α} (only : p.Only A)
    (keeps : ∀ c s op, A op → inv s → inv (exec c s op).2) {s : S} (holds : inv s) :
    p.wp (execSpec exec ok) (fun _ s => inv s) s := by
  induction p generalizing s with
  | done a => exact holds
  | call op next ih => exact fun c _ => ih _ (only.2 _) (keeps c s op only.1 holds)

/-- What every call keeps that meets the condition. -/
theorem Only.wp_assuming {S C : Type} {exec : C → S → (op : O) → R op × S}
    {ok : C → S → O → Prop} {inv : S → Prop} {p : Program O R α} (only : p.Only A)
    (keeps : ∀ c s op, A op → inv s → inv (exec c s op).2) {s : S} (holds : inv s) :
    p.wp (assuming exec ok) (fun _ s => inv s) s := by
  induction p generalizing s with
  | done a => exact holds
  | call op next ih => exact fun c _ => ih _ (only.2 _) (keeps c s op only.1 holds)

/-- What the program ends with satisfies `Q`, whatever is answered. -/
def Ends (Q : α → Prop) : Program O R α → Prop
  | done a => Q a
  | call _ next => ∀ r, (next r).Ends Q

theorem Ends.bind {Q : α → Prop} {Q' : β → Prop} {p : Program O R α} {f : α → Program O R β}
    (first : p.Ends Q) (rest : ∀ a, Q a → (f a).Ends Q') : (p >>= f).Ends Q' := by
  induction p with
  | done a => exact rest a first
  | call op next ih => exact fun r => ih r (first r)

theorem ends_any (p : Program O R α) : p.Ends fun _ => True := by
  induction p with
  | done a => trivial
  | call op next ih => exact ih

theorem Ends.eval {S C : Type} {exec : C → S → (op : O) → R op × S} {Q : α → Prop}
    {p : Program O R α} (ends : p.Ends Q) (choices : Nat → C) (s : S) :
    Q (p.eval exec choices s).1 := by
  induction p generalizing choices s with
  | done a => exact ends
  | call op next ih => exact ih _ (ends _) _ _

end Only

section Expansion
variable {O' : Type} {R' : O' → Type} (calls : (op : O) → Program O' R' (R op))

/-- Each call as a program over other calls that answers it. -/
def expand : Program O R α → Program O' R' α
  | done a => done a
  | call op next => calls op >>= fun r => (next r).expand

theorem Only.expand {B : O' → Prop} {p : Program O R α} (only : p.Only A)
    (each : ∀ op, A op → (calls op).Only B) : (p.expand calls).Only B := by
  induction p with
  | done a => trivial
  | call op next ih => exact (each op only.1).bind fun r => ih r (only.2 r)

/-- A specification of the other calls gives one of the calls they answer. -/
theorem wp_expand (spec : OpSpec O' R' X) (p : Program O R α) (Q : α → X → Prop) (x : X) :
    (p.expand calls).wp spec Q x = p.wp (fun op Q x => (calls op).wp spec Q x) Q x := by
  induction p generalizing x with
  | done a => rfl
  | call op next ih =>
    rw [Program.expand, wp_bind]
    simp only [ih, wp_call]

end Expansion

section Agreement
variable {S C : Type} {exec : C → S → (op : O) → R op × S} {choices choices' : Nat → C}

/-- Calls that meet the condition, whenever they are made. -/
theorem Only.each {ok : C → S → O → Prop} {p : Program O R α} (only : p.Only A)
    (one : ∀ n s op, A op → ok (choices n) s op) (s : S) : p.Each exec ok choices s := by
  induction p generalizing choices s with
  | done a => trivial
  | call op next ih => exact ⟨one 0 s op only.1, ih _ (only.2 _) (fun n => one (n + 1)) _⟩

/-- Two runs that agree on every call come to the same. -/
theorem Only.eval_congr {p : Program O R α} (only : p.Only A)
    (same : ∀ n s op, A op → exec (choices n) s op = exec (choices' n) s op) (s : S) :
    p.eval exec choices s = p.eval exec choices' s := by
  induction p generalizing choices choices' s with
  | done a => rfl
  | call op next ih =>
    have first := same 0 s op only.1
    rw [Program.eval, Program.eval, first]
    exact ih _ (only.2 _) (fun n => same (n + 1)) _

end Agreement

section Along
variable {S C : Type} (exec : C → S → (op : O) → R op × S) (choices : Nat → C)

/-- One run as a specification, the choices of the environment given. The state counts the
calls. -/
def along : OpSpec O R (S × Nat) := fun op Q x =>
  Q (exec (choices x.2) x.1 op).1 ((exec (choices x.2) x.1 op).2, x.2 + 1)

theorem along_monotone : (along exec choices : OpSpec O R (S × Nat)).Monotone :=
  fun _ _ _ _ weaker h => weaker _ _ h

variable {exec choices}

theorem eval_of_along {p : Program O R α} {Q : α → S × Nat → Prop} {s : S} {n : Nat}
    (h : p.wp (along exec choices) Q (s, n)) :
    ∃ m, Q (p.eval exec (fun k => choices (n + k)) s).1
      ((p.eval exec (fun k => choices (n + k)) s).2, m) := by
  induction p generalizing s n with
  | done a => exact ⟨n, h⟩
  | call op next ih =>
    obtain ⟨m, holds⟩ := ih _ h
    refine ⟨m, ?_⟩
    simp only [eval, Nat.add_zero]
    simpa only [Nat.add_assoc, Nat.add_comm 1] using holds

end Along
end Program

/-! Programs that may throw: the exception is part of the result. -/

section Fallible
open Program
variable {O : Type} {R : O → Type} {α β E X : Type}

/-- A program that ends with a value or throws. -/
abbrev Fallible (O : Type) (R : O → Type) (E α : Type) : Type := ExceptT E (Program O R) α

/-- Perform an operation whose answer may be an exception. -/
@[simp] def perform {A : O → Type} (op : O) : Fallible O (fun op => Except E (A op)) E (A op) :=
  ExceptT.mk (call op done)

variable (spec : OpSpec O R X)

/-- The weakest precondition over both ways of ending. -/
def wpE (p : Fallible O R E α) (Q : Except E α → X → Prop) (x : X) : Prop := p.run.wp spec Q x

@[simp] theorem wpE_pure (a : α) (Q : Except E α → X → Prop) (x : X) :
    wpE spec (pure a : Fallible O R E α) Q x = Q (.ok a) x := rfl

@[simp] theorem wpE_throw (e : E) (Q : Except E α → X → Prop) (x : X) :
    wpE spec (throw e : Fallible O R E α) Q x = Q (.error e) x := rfl

/-- An exception skips the rest; a value is handed to it. -/
@[simp] theorem wpE_bind (p : Fallible O R E α) (f : α → Fallible O R E β)
    (Q : Except E β → X → Prop) (x : X) :
    wpE spec (p >>= f) Q x = wpE spec p (fun r y => match r with
      | .ok a => wpE spec (f a) Q y
      | .error e => Q (.error e) y) x := by
  change (p.run >>= ExceptT.bindCont f).wp spec Q x = _
  rw [wp_bind, wpE]
  congr 1
  funext r y
  cases r <;> rfl

theorem wpE_map (f : α → β) (p : Fallible O R E α) (Q : Except E β → X → Prop) (x : X) :
    wpE spec (f <$> p) Q x = wpE spec p (fun r y => Q (r.map f) y) x := by
  change (p.run >>= _).wp spec Q x = _
  rw [wp_bind, wpE]
  congr 1
  funext r y
  cases r <;> rfl

@[simp] theorem wpE_tryCatch (p : Fallible O R E α) (handler : E → Fallible O R E α)
    (Q : Except E α → X → Prop) (x : X) :
    wpE spec (tryCatch p handler) Q x = wpE spec p (fun r y => match r with
      | .ok a => Q (.ok a) y
      | .error e => wpE spec (handler e) Q y) x := by
  change (p.run >>= _).wp spec Q x = _
  rw [wp_bind, wpE]
  congr 1
  funext r y
  cases r <;> rfl

/-- A call answers with a value or an exception. -/
@[simp] theorem wpE_mk_call (op : O) (next : R op → Program O R (Except E α))
    (Q : Except E α → X → Prop) (x : X) :
    wpE spec (ExceptT.mk (Program.call op next)) Q x =
      spec op (fun r y => (next r).wp spec Q y) x := rfl

@[simp] theorem wpE_liftM (result : Except E α) (Q : Except E α → X → Prop) (x : X) :
    wpE spec (liftM result : Fallible O R E α) Q x = Q result x := rfl

@[simp] theorem wpE_ite (c : Prop) [Decidable c] (p q : Fallible O R E α)
    (Q : Except E α → X → Prop) (x : X) :
    wpE spec (if c then p else q) Q x = if c then wpE spec p Q x else wpE spec q Q x := by
  split <;> rfl

/-- A result that is an exception ends the program; a value is handed to the rest. -/
theorem wpE_liftM_bind {result : Except E α} {next : α → Fallible O R E β}
    {Q : Except E β → X → Prop} {x : X} (refused : ∀ e, result = .error e → Q (.error e) x)
    (passes : ∀ a, result = .ok a → wpE spec (next a) Q x) :
    wpE spec ((liftM result : Fallible O R E α) >>= next) Q x := by
  rw [wpE_bind, wpE_liftM]
  cases result with
  | error e => exact refused e rfl
  | ok a => exact passes a rfl

/-- A call that only answers, and what comes after each answer. -/
theorem wpE_call_bind_eq (op : O) (next : R op → Fallible O R E β)
    (Q : Except E β → X → Prop) (x : X) :
    wpE spec ((ExceptT.mk (Program.call op fun answer => .done (.ok answer))
      : Fallible O R E (R op)) >>= next) Q x =
        spec op (fun r y => wpE spec (next r) Q y) x := by
  simp only [wpE_bind, wpE_mk_call, wp_done]

/-- What is thrown is handed to the handler. -/
theorem eval_tryCatch {S C : Type} (exec : C → S → (op : O) → R op × S) (p : Fallible O R E α)
    (handler : E → Fallible O R E α) (choices : Nat → C) (s : S) :
    (tryCatch p handler).run.eval exec choices s =
      match (p.run.eval exec choices s).1 with
      | .ok a => (.ok a, (p.run.eval exec choices s).2)
      | .error e => (handler e).run.eval exec
          (fun n => choices (n + p.run.calls exec choices s)) (p.run.eval exec choices s).2 := by
  change (p.run >>= _).eval exec choices s = _
  rw [eval_bind]
  cases (p.run.eval exec choices s).1 <;> rfl

theorem forall_result {p : Except E α → Prop} :
    (∀ r, p r) ↔ (∀ a, p (.ok a)) ∧ ∀ e, p (.error e) :=
  ⟨fun h => ⟨fun a => h (.ok a), fun e => h (.error e)⟩, fun h r => by
    cases r with
    | ok a => exact h.1 a
    | error e => exact h.2 e⟩

variable {spec}

section Only
variable {A : O → Prop}

/-- Every call of a program that may throw is one of `A`. -/
structure OnlyE (A : O → Prop) (p : Fallible O R E α) : Prop where
  only : p.run.Only A

theorem onlyE_pure (a : α) : OnlyE A (pure a : Fallible O R E α) := ⟨trivial⟩

theorem onlyE_throw (e : E) : OnlyE A (throw e : Fallible O R E α) := ⟨trivial⟩

theorem OnlyE.mono {B : O → Prop} {p : Fallible O R E α} (only : OnlyE A p)
    (within : ∀ op, A op → B op) : OnlyE B p := ⟨only.only.mono within⟩

theorem OnlyE.bind {p : Fallible O R E α} {f : α → Fallible O R E β} (first : OnlyE A p)
    (rest : ∀ a, OnlyE A (f a)) : OnlyE A (p >>= f) := by
  refine ⟨Only.bind first.only fun result => ?_⟩
  cases result with
  | ok a => exact (rest a).only
  | error e => trivial

theorem OnlyE.map (f : α → β) {p : Fallible O R E α} (only : OnlyE A p) :
    OnlyE A (f <$> p) := by
  refine ⟨Only.bind only.only fun result => ?_⟩
  cases result <;> trivial

theorem OnlyE.tryCatch {p : Fallible O R E α} {handler : E → Fallible O R E α}
    (first : OnlyE A p) (rest : ∀ e, OnlyE A (handler e)) : OnlyE A (tryCatch p handler) := by
  refine ⟨Only.bind first.only fun result => ?_⟩
  cases result with
  | ok a => trivial
  | error e => exact (rest e).only

theorem OnlyE.foldlM {ι : Type} {body : β → ι → Fallible O R E β}
    (each : ∀ acc item, OnlyE A (body acc item)) (items : List ι) (acc : β) :
    OnlyE A (items.foldlM body acc) := by
  induction items generalizing acc with
  | nil => exact onlyE_pure acc
  | cons item rest ih =>
    rw [List.foldlM_cons]
    exact (each acc item).bind ih

/-- Each call as one that may throw, which ends the program. -/
def Program.attempt {O' : Type} {R' : O' → Type} (calls : (op : O) → Fallible O' R' E (R op)) :
    Program O R α → Fallible O' R' E α
  | done a => pure a
  | call op next => calls op >>= fun r => (next r).attempt calls

theorem Program.Only.attempt {O' : Type} {R' : O' → Type} {B : O' → Prop}
    {calls : (op : O) → Fallible O' R' E (R op)} {p : Program O R α} (only : p.Only A)
    (each : ∀ op, A op → OnlyE B (calls op)) : OnlyE B (p.attempt calls) := by
  induction p with
  | done a => exact onlyE_pure a
  | call op next ih => exact (each op only.1).bind fun r => ih r (only.2 r)

/-- Whatever is answered, a value that is returned satisfies `Q`. -/
structure Returns (Q : α → Prop) (p : Fallible O R E α) : Prop where
  ends : p.run.Ends fun result => ∀ a, result = .ok a → Q a

theorem returns_pure {Q : α → Prop} {a : α} (holds : Q a) :
    Returns Q (pure a : Fallible O R E α) := ⟨by rintro _ ⟨⟩; exact holds⟩

theorem returns_throw {Q : α → Prop} (e : E) : Returns Q (throw e : Fallible O R E α) :=
  ⟨by rintro _ ⟨⟩⟩

theorem Returns.bind {Q : α → Prop} {Q' : β → Prop} {p : Fallible O R E α}
    {f : α → Fallible O R E β} (first : Returns Q p) (rest : ∀ a, Q a → Returns Q' (f a)) :
    Returns Q' (p >>= f) := by
  refine ⟨first.ends.bind fun result holds => ?_⟩
  cases result with
  | ok a => exact (rest a (holds a rfl)).ends
  | error e => exact fun _ same => by cases same

theorem returns_bind {Q : β → Prop} {p : Fallible O R E α} {f : α → Fallible O R E β}
    (rest : ∀ a, Returns Q (f a)) : Returns Q (p >>= f) := by
  refine ⟨(ends_any p.run).bind fun result _ => ?_⟩
  cases result with
  | ok a => exact (rest a).ends
  | error e => exact fun _ same => by cases same

theorem Returns.eval {S C : Type} {exec : C → S → (op : O) → R op × S} {Q : α → Prop}
    {p : Fallible O R E α} (returns : Returns Q p) {choices : Nat → C} {s : S} {a : α}
    (ended : (p.run.eval exec choices s).1 = .ok a) : Q a :=
  returns.ends.eval choices s a ended

theorem OnlyE.wpE {p : Fallible O R E α} {x : X} {Q : Except E α → X → Prop} (only : OnlyE A p)
    (still : ∀ op, A op → ∀ Q : R op → X → Prop, (∀ r, Q r x) → spec op Q x)
    (ends : ∀ result, Q result x) : Effects.wpE spec p Q x := only.only.wp still ends

/-- What comes after calls that leave something as it is. -/
theorem OnlyE.wpE_bind {p : Fallible O R E α} {f : α → Fallible O R E β} {x : X}
    {Q : Except E β → X → Prop} (only : OnlyE A p)
    (still : ∀ op, A op → ∀ Q : R op → X → Prop, (∀ r, Q r x) → spec op Q x)
    (rest : ∀ a, Effects.wpE spec (f a) Q x) (thrown : ∀ e, Q (.error e) x) :
    Effects.wpE spec (p >>= f) Q x := by
  rw [Effects.wpE_bind]
  refine only.wpE still fun result => ?_
  cases result with
  | ok a => exact rest a
  | error e => exact thrown e

end Only

theorem wpE_mono (mono : spec.Monotone) {p : Fallible O R E α} {Q Q' : Except E α → X → Prop}
    (weaker : ∀ r y, Q r y → Q' r y) {x : X} (h : wpE spec p Q x) : wpE spec p Q' x :=
  wp_mono mono weaker h

/-- What comes after a part of which it is known how it ends. -/
theorem wpE_seq (mono : spec.Monotone) {p : Fallible O R E α} {f : α → Fallible O R E β}
    {P : Except E α → X → Prop} {Q : Except E β → X → Prop} {x : X} (first : wpE spec p P x)
    (thrown : ∀ e y, P (.error e) y → Q (.error e) y)
    (rest : ∀ a y, P (.ok a) y → wpE spec (f a) Q y) : wpE spec (p >>= f) Q x := by
  rw [wpE_bind]
  refine wpE_mono mono (fun result y holds => ?_) first
  cases result with
  | ok a => exact rest a y holds
  | error e => exact thrown e y holds

/-- A loop keeps what each of its passes keeps, also when one throws. -/
theorem wpE_foldlM_invariant {ι : Type} {body : β → ι → Fallible O R E β} {inv : X → Prop}
    (mono : spec.Monotone)
    (keeps : ∀ acc item x, inv x → wpE spec (body acc item) (fun _ y => inv y) x)
    (items : List ι) (acc : β) {x : X} (holds : inv x) :
    wpE spec (items.foldlM body acc) (fun _ y => inv y) x := by
  induction items generalizing acc x with
  | nil => exact holds
  | cons item rest ih =>
    rw [List.foldlM_cons, wpE_bind]
    refine wpE_mono mono (fun result y kept => ?_) (keeps acc item x holds)
    cases result with
    | ok acc => exact ih acc kept
    | error e => exact kept

theorem wpE_forM_invariant {ι : Type} {body : ι → Fallible O R E PUnit} {inv : X → Prop}
    (mono : spec.Monotone)
    (keeps : ∀ item x, inv x → wpE spec (body item) (fun _ y => inv y) x) (items : List ι)
    {x : X} (holds : inv x) : wpE spec (forM items body) (fun _ y => inv y) x := by
  induction items generalizing x with
  | nil => exact holds
  | cons item rest ih =>
    rw [List.forM_cons, wpE_bind]
    refine wpE_mono mono (fun result y kept => ?_) (keeps item x holds)
    cases result with
    | ok u => exact ih kept
    | error e => exact kept

end Fallible
end Effects
