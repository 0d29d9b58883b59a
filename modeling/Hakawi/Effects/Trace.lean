import Mathlib.Init

/-!
# Runs of a deterministic system

A system is a step function; a run is a list of steps taken one after the other,
each to its end. The invariant rule asks that a step keep the invariant where it
meets a condition on the state before it.
-/

namespace Effects.Trace

variable {S A : Type} (step : S → A → S)

def run (s : S) (steps : List A) : S := steps.foldl step s

@[simp] theorem run_nil (s : S) : run step s [] = s := rfl

@[simp] theorem run_cons (s : S) (a : A) (rest : List A) :
    run step s (a :: rest) = run step (step s a) rest := rfl

/-- Every step of the run meets a condition on the state before it. -/
def Meets (ok : S → A → Prop) : S → List A → Prop
  | _, [] => True
  | s, a :: rest => ok s a ∧ Meets ok (step s a) rest

instance decidableMeets (ok : S → A → Prop) [∀ s a, Decidable (ok s a)] :
    (s : S) → (steps : List A) → Decidable (Meets step ok s steps)
  | _, [] => .isTrue trivial
  | s, a :: rest =>
    have := decidableMeets ok (step s a) rest
    inferInstanceAs (Decidable (_ ∧ _))

variable {step}

theorem meets_of_forall_mem {ok : S → A → Prop} {steps : List A}
    (each : ∀ a ∈ steps, ∀ s, ok s a) {s : S} : Meets step ok s steps := by
  induction steps generalizing s with
  | nil => trivial
  | cons a rest ih =>
    exact ⟨each a List.mem_cons_self s, ih fun b member => each b (List.mem_cons_of_mem _ member)⟩

/-- The invariant rule. -/
theorem run_invariant {ok : S → A → Prop} {inv : S → Prop}
    (preserves : ∀ s a, inv s → ok s a → inv (step s a)) {s : S} (holds : inv s)
    {steps : List A} (meets : Meets step ok s steps) : inv (run step s steps) := by
  induction steps generalizing s with
  | nil => exact holds
  | cons a rest ih => exact ih (preserves s a holds meets.1) meets.2

/-- Where a step keeps an invariant exactly if it meets the condition, the invariant holds all
along the run exactly if every step meets it. -/
theorem meets_iff {ok : S → A → Prop} {inv : S → Prop}
    (exact : ∀ s a, inv s → (inv (step s a) ↔ ok s a)) {s : S} (holds : inv s) (steps : List A) :
    Meets step ok s steps ↔ ∀ n, inv (run step s (steps.take n)) := by
  induction steps generalizing s with
  | nil => simpa only [List.take_nil, run_nil, forall_const, Meets, true_iff] using holds
  | cons a rest ih =>
    constructor
    · rintro ⟨met, meets⟩ n
      cases n with
      | zero => exact holds
      | succ n => exact (ih ((exact s a holds).mpr met)).mp meets n
    · intro always
      have kept : inv (step s a) := always 1
      exact ⟨(exact s a holds).mp kept, (ih kept).mpr fun n => always (n + 1)⟩

/-- Conditions that agree wherever the invariant holds are met by the same runs. -/
theorem meets_congr {ok ok' : S → A → Prop} {inv : S → Prop}
    (preserves : ∀ s a, inv s → inv (step s a)) (same : ∀ s a, inv s → (ok s a ↔ ok' s a))
    {s : S} (holds : inv s) (steps : List A) : Meets step ok s steps ↔ Meets step ok' s steps := by
  induction steps generalizing s with
  | nil => exact Iff.rfl
  | cons a rest ih => exact and_congr (same s a holds) (ih (preserves s a holds))

theorem run_append (s : S) (early late : List A) :
    run step s (early ++ late) = run step (run step s early) late :=
  List.foldl_append

theorem run_invariant_always {inv : S → Prop} (preserves : ∀ s a, inv s → inv (step s a))
    {s : S} (holds : inv s) (steps : List A) : inv (run step s steps) := by
  induction steps generalizing s with
  | nil => exact holds
  | cons a rest ih => exact ih (preserves s a holds)

end Effects.Trace
