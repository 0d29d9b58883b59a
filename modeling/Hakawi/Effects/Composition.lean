import Hakawi.Effects.Program

/-!
# Programs made of programs

Each call of a program may stand for a program of its own. And two programs may be under way at
once, where before each call somebody says which of them makes it: what each of them does is then
known from what it does when the other may disturb it at any moment.
-/

namespace Effects.Program

variable {O O' : Type} {R : O → Type} {R' : O' → Type} {α β : Type}

section Interpretation
variable (handler : (op : O) → Program O' R' (R op))

/-- Each call is carried out by a program. -/
def interpret : Program O R α → Program O' R' α
  | done a => done a
  | call op next => (handler op).bind fun r => (next r).interpret

@[simp] theorem interpret_done (a : α) :
    (done a : Program O R α).interpret handler = done a := rfl

@[simp] theorem interpret_call (op : O) (next : R op → Program O R α) :
    (call op next).interpret handler = handler op >>= fun r => (next r).interpret handler := rfl

theorem bind_assoc {γ : Type} (p : Program O R α) (f : α → Program O R β)
    (g : β → Program O R γ) : p >>= f >>= g = p >>= fun a => f a >>= g := by
  induction p with
  | done a => rfl
  | call op next ih => simp only [call_bind, ih]

@[simp] theorem interpret_bind (p : Program O R α) (f : α → Program O R β) :
    (p >>= f).interpret handler = p.interpret handler >>= fun a => (f a).interpret handler := by
  induction p with
  | done a => rfl
  | call op next ih => simp only [call_bind, interpret_call, ih, bind_assoc]

variable {handler} {A : O → Prop} {B : O' → Prop}

theorem Only.interpret {p : Program O R α} (only : p.Only A)
    (each : ∀ op, A op → (handler op).Only B) : (p.interpret handler).Only B := by
  induction p with
  | done a => trivial
  | call op next ih => exact (each op only.1).bind fun r => ih r (only.2 r)

end Interpretation

section Parallel
variable (turn : O) (left : R turn → Bool)

/-- The right program against a call of the left one. -/
def parCall (op : O) (next : R op → Program O R α)
    (rest : R op → Program O R β → Program O R (α × β)) : Program O R β → Program O R (α × β)
  | done b => call op fun r => next r >>= fun a => done (a, b)
  | call op' next' => call turn fun who =>
    if left who then call op fun r => rest r (call op' next')
    else call op' fun r => parCall op next rest (next' r)

/-- Two programs at once. As long as both have calls to make, `turn` says whose is the next. -/
def par : Program O R α → Program O R β → Program O R (α × β)
  | done a, q => q >>= fun b => done (a, b)
  | call op next, q => parCall turn left op next (fun r => par (next r)) q

variable {turn left} {A : O → Prop} {p : Program O R α} {q : Program O R β}

theorem Only.par (first : p.Only A) (second : q.Only A) (turns : A turn) :
    (par turn left p q).Only A := by
  induction p generalizing q with
  | done a => exact second.bind fun b => trivial
  | call op next ih =>
    induction q with
    | done b => exact ⟨first.1, fun r => (first.2 r).bind fun a => trivial⟩
    | call op' next' ih' =>
      refine ⟨turns, fun who => ?_⟩
      dsimp only
      split
      · exact ⟨first.1, fun r => ih r (first.2 r) second⟩
      · exact ⟨second.1, fun r => ih' r (second.2 r)⟩

variable {X : Type} {spec : OpSpec O R X}

/-- A call of one program among those of another: the state has changed as the other changes it,
and the call changes it as its own program may. -/
def among (spec : OpSpec O R X) (mine others : X → X → Prop) : OpSpec O R X :=
  fun op Q x => ∀ y, others x y → spec op (fun r z => mine y z ∧ Q r z) y

theorem among_monotone (mono : spec.Monotone) (mine others : X → X → Prop) :
    (among spec mine others).Monotone :=
  fun op _ _ _ weaker h y moved =>
    mono op _ _ y (fun r z both => ⟨both.1, weaker r z both.2⟩) (h y moved)

variable {mine others : X → X → Prop} {Q : α → X → Prop} {Q' : β → X → Prop} {x : X}

/-- What the calls of a program keep, although they are no longer among others. -/
theorem wp_of_among {P : X → Prop} (mono : spec.Monotone) (still : ∀ x, others x x)
    (stable : ∀ a x y, Q a x → others x y → Q a y) (kept : ∀ x y, P x → mine x y → P y) {y : X}
    (moved : others x y) (holds : P y) (h : p.wp (among spec mine others) Q x) :
    p.wp spec (fun a z => Q a z ∧ P z) y := by
  induction p generalizing x y with
  | done a => exact ⟨stable a x y h moved, holds⟩
  | call op next ih =>
    refine mono op _ _ y (fun r z both => ?_) (h y moved)
    exact ih r (still z) (kept y z holds both.1) both.2

/-- Two programs, each of which bears what the other does to the state, end as each of them ends
among the calls of the other. -/
theorem wp_par (mono : spec.Monotone)
    (turns : ∀ (Q : R turn → X → Prop) x, (∀ r, Q r x) → spec turn Q x)
    (still : ∀ x, mine x x) (still' : ∀ x, others x x)
    (trans : ∀ x y z, mine x y → mine y z → mine x z)
    (trans' : ∀ x y z, others x y → others y z → others x z)
    (stable : ∀ a x y, Q a x → others x y → Q a y)
    (stable' : ∀ b x y, Q' b x → mine x y → Q' b y)
    (first : p.wp (among spec mine others) Q x) (second : q.wp (among spec others mine) Q' x) :
    (par turn left p q).wp spec (fun r y => Q r.1 y ∧ Q' r.2 y) x := by
  -- each program was last at a state of its own, and the other has moved on from there to `z`
  suffices general : ∀ x y z, others x z → mine y z →
      p.wp (among spec mine others) Q x → q.wp (among spec others mine) Q' y →
      (par turn left p q).wp spec (fun r y => Q r.1 y ∧ Q' r.2 y) z from
    general x x x (still' x) (still x) first second
  clear first second
  induction p generalizing q with
  | done a =>
    intro x y z fromX fromY ended second
    rw [par, wp_bind]
    have alone := wp_of_among (P := Q a) mono still stable' (stable a) fromY
      (stable a x z ended fromX) second
    exact wp_mono mono (fun b w both => both.symm) alone
  | call op next ih =>
    induction q with
    | done b =>
      intro x y z fromX fromY first ended
      have alone := wp_of_among (P := Q' b) mono still' stable (stable' b) fromX
        (stable' b y z ended fromY) first
      change (call op next >>= fun a => done (a, b)).wp spec _ z
      rw [wp_bind]
      exact wp_mono mono (fun a w both => both) alone
    | call op' next' ih' =>
      intro x y z fromX fromY first second
      refine turns _ z fun who => ?_
      dsimp only
      split
      · refine mono op _ _ z (fun r w both => ?_) (first z fromX)
        exact ih r w y w (still' w) (trans y z w fromY both.1) both.2 second
      · refine mono op' _ _ z (fun r w both => ?_) (second z fromY)
        exact ih' r x w w (trans' x z w fromX both.1) (still w) first both.2

section Execution
variable {S C : Type} {exec : C → S → (op : O) → R op × S} {ok : C → Prop}

/-- A program whose calls answer alike in related states ends, among the calls of another, as it
ends alone in a related state. -/
theorem Only.wp_among {p : Program O R α} (only : p.Only A) (choice : C) {related : S → S → Prop}
    {mine others : S → S → Prop}
    (alike : ∀ c s x op, ok c → A op → related s x →
      (exec c x op).1 = (exec choice s op).1 ∧ related (exec choice s op).2 (exec c x op).2)
    (moves : ∀ c x op, ok c → A op → mine x (exec c x op).2)
    (stays : ∀ s x y, related s x → others x y → related s y) {s x : S} (same : related s x) :
    p.wp (among (execSpec exec ok) mine others)
      (fun r y => r = (p.eval exec (fun _ => choice) s).1 ∧
        related (p.eval exec (fun _ => choice) s).2 y) x := by
  induction p generalizing s x with
  | done a => exact ⟨rfl, same⟩
  | call op next ih =>
    intro y moved c allowed
    obtain ⟨answers, leaves⟩ := alike c s y op allowed only.1 (stays s x y same moved)
    refine ⟨moves c y op allowed only.1, ?_⟩
    rw [answers]
    exact ih _ (only.2 _) leaves

end Execution

end Parallel
end Effects.Program

/-! Programs that may throw, at once. -/

namespace Effects
open Program

variable {O : Type} {R : O → Type} {α β E X : Type} (turn : O) (left : R turn → Bool)

/-- Both results, or the exception of either. -/
def zip : Except E α → Except E β → Except E (α × β)
  | .ok a, .ok b => .ok (a, b)
  | .error e, _ => .error e
  | _, .error e => .error e

/-- `Promise.all` of two. -/
def both (p : Fallible O R E α) (q : Fallible O R E β) : Fallible O R E (α × β) :=
  ExceptT.mk (par turn left p.run q.run >>= fun results => done (zip results.1 results.2))

variable {turn left} {A : O → Prop} {p : Fallible O R E α} {q : Fallible O R E β}

theorem OnlyE.both (first : OnlyE A p) (second : OnlyE A q) (turns : A turn) :
    OnlyE A (both turn left p q) :=
  ⟨(Only.par first.only second.only turns).bind fun _ => trivial⟩

variable {spec : OpSpec O R X} {mine others : X → X → Prop} {Q : Except E α → X → Prop}
variable {Q' : Except E β → X → Prop} {x : X}

theorem wpE_both (mono : spec.Monotone)
    (turns : ∀ (Q : R turn → X → Prop) x, (∀ r, Q r x) → spec turn Q x)
    (still : ∀ x, mine x x) (still' : ∀ x, others x x)
    (trans : ∀ x y z, mine x y → mine y z → mine x z)
    (trans' : ∀ x y z, others x y → others y z → others x z)
    (stable : ∀ a x y, Q a x → others x y → Q a y)
    (stable' : ∀ b x y, Q' b x → mine x y → Q' b y)
    (first : wpE (among spec mine others) p Q x) (second : wpE (among spec others mine) q Q' x) :
    wpE spec (both turn left p q) (fun r y => ∃ a b, r = zip a b ∧ Q a y ∧ Q' b y) x := by
  change (par turn left p.run q.run >>= _).wp spec _ x
  rw [wp_bind]
  refine wp_mono mono (fun results y ended => ?_)
    (wp_par mono turns still still' trans trans' stable stable' first second)
  exact ⟨results.1, results.2, rfl, ended⟩

section Interpretation
variable {O' : Type} {R' : O' → Type} (handler : (op : O) → Program O' R' (R op))

/-- Each call is carried out by a program, and what is thrown goes through. -/
def interpretE (p : Fallible O R E α) : Fallible O' R' E α := ExceptT.mk (p.run.interpret handler)

@[simp] theorem interpretE_bind (p : Fallible O R E α) (f : α → Fallible O R E β) :
    interpretE handler (p >>= f) = interpretE handler p >>= fun a => interpretE handler (f a) := by
  change ((p.run >>= ExceptT.bindCont f).interpret handler : Program O' R' (Except E β)) =
    p.run.interpret handler >>= ExceptT.bindCont fun a => interpretE handler (f a)
  rw [interpret_bind]
  congr 1
  funext result
  cases result <;> rfl

theorem OnlyE.interpretE {handler : (op : O) → Program O' R' (R op)} {B : O' → Prop}
    (only : OnlyE A p) (each : ∀ op, A op → (handler op).Only B) :
    OnlyE B (interpretE handler p) := ⟨only.only.interpret each⟩

@[simp] theorem interpretE_ite (c : Prop) [Decidable c] (p q : Fallible O R E α) :
    interpretE handler (if c then p else q) =
      if c then interpretE handler p else interpretE handler q := by
  split <;> rfl

end Interpretation
end Effects
