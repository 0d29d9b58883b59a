import Mathlib.Data.List.Basic
import Mathlib.Data.Option.Basic

/-!
# The three-state breaker

A breaker as it is meant: while it is open no call starts, it lets calls through
again once the recovery time is over, and it closes after enough of those calls
have succeeded. What a call started earlier does while the breaker is probing is
not held against it, nor for it. A history the breaker has no answer to is
refused.
-/

namespace Breaker

/-- What a breaker is set to. -/
structure Limits where
  failures : Int
  recovery : Int
  successes : Int

/-- `ι` names the calls. -/
inductive Phase (ι : Type) where
  /-- Failures since the last success. -/
  | closed (failures : Int)
  /-- The time of the last failure. -/
  | opened (since : Option Int)
  /-- Successes, and the calls started, since the breaker last began to probe. -/
  | probing (successes : Int) (callers : List ι)
  deriving DecidableEq

inductive Event (ι : Type) where
  | start (caller : ι)
  | probe (now : Int)
  | succeed (caller : ι)
  | fail (now : Int)
  deriving DecidableEq

namespace Phase
variable {ι : Type} [DecidableEq ι] (limits : Limits)

def isOpened : Phase ι → Bool
  | opened _ => true
  | _ => false

def step? : Phase ι → Event ι → Option (Phase ι)
  | closed n, .start _ => some (closed n)
  | probing m callers, .start caller => some (probing m (caller :: callers))
  | opened _, .start _ => none
  | opened (some since), .probe now =>
    if limits.recovery ≤ now - since then some (probing 0 []) else none
  | _, .probe _ => none
  | closed _, .succeed _ => some (closed 0)
  | opened since, .succeed _ => some (opened since)
  | probing m callers, .succeed caller =>
    if caller ∈ callers then
      some (if limits.successes ≤ m + 1 then closed 0 else probing (m + 1) callers)
    else some (probing m callers)
  | closed n, .fail now => some (if limits.failures ≤ n + 1 then opened (some now) else closed (n + 1))
  | opened _, .fail now => some (opened (some now))
  | probing _ _, .fail now => some (opened (some now))

/-- What a history leads to, if the breaker allows all of it. -/
def run (phase : Phase ι) (history : List (Event ι)) : Option (Phase ι) :=
  history.foldlM (step? limits) phase

@[simp] theorem run_nil (phase : Phase ι) : phase.run limits [] = some phase := rfl

theorem run_cons (phase : Phase ι) (event : Event ι) (rest : List (Event ι)) :
    phase.run limits (event :: rest) = (phase.step? limits event).bind (run limits · rest) := by
  simp [run, List.foldlM_cons, Option.bind_eq_bind]

/-- A closed breaker is short of the failures that open it. -/
def Sound : Phase ι → Prop
  | closed n => n < limits.failures
  | _ => True

instance (phase : Phase ι) : Decidable (phase.Sound limits) := by
  unfold Sound
  split
  · infer_instance
  · infer_instance

variable {limits}

theorem Sound.step (positive : 0 < limits.failures) {phase after : Phase ι} (sound : phase.Sound limits)
    {event : Event ι} (h : phase.step? limits event = some after) : after.Sound limits := by
  cases phase with
  | closed n =>
    cases event with
    | start _ => cases h; exact sound
    | probe _ => cases h
    | succeed _ => cases h; exact positive
    | fail now =>
      cases h
      split
      · trivial
      · exact Int.not_le.mp ‹_›
  | opened since =>
    cases event with
    | start _ => cases h
    | probe now =>
      cases since with
      | none => cases h
      | some since =>
        obtain ⟨-, h⟩ := Option.ite_none_right_eq_some.mp h
        cases h
        trivial
    | succeed _ => cases h; trivial
    | fail _ => cases h; trivial
  | probing m callers =>
    cases event with
    | start _ => cases h; trivial
    | probe _ => cases h
    | fail _ => cases h; trivial
    | succeed caller =>
      simp only [step?] at h
      split at h
      · cases h
        split
        · exact positive
        · trivial
      · cases h; trivial

theorem Sound.run (positive : 0 < limits.failures) {phase after : Phase ι} (sound : phase.Sound limits)
    {history : List (Event ι)} (h : phase.run limits history = some after) : after.Sound limits := by
  induction history generalizing phase with
  | nil => exact Option.some.inj h ▸ sound
  | cons event rest ih =>
    rw [run_cons] at h
    obtain ⟨next, stepped, others⟩ := Option.bind_eq_some_iff.mp h
    exact ih (sound.step positive stepped) others

end Phase
end Breaker
