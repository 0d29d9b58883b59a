import Mathlib.Order.Basic

/-!
# The lock of one account

How many attempts are counted, and how many are in each phase. As long as nobody is let through
beside as many as may fail, the attempt that fills the counter is alone when it locks the account,
and the passwords that were compared are those that were counted or are still to be counted.
-/

namespace Lockout

/-- What there is of an account: its counter and its lock, and the attempts in each phase. -/
structure Tally where
  count : Int
  locked : Bool
  admitted : Int
  compared : Int
  reached : Int
  locking : Int
  /-- The passwords compared so far. -/
  guesses : Int

namespace Tally

/-- Nobody is under way beside the attempt that fills the counter, nor while the account is
locked. -/
structure Sound (max : Int) (tally : Tally) : Prop where
  natural : 0 ≤ tally.count ∧ 0 ≤ tally.admitted ∧ 0 ≤ tally.compared
  bounded : tally.count + tally.admitted + tally.compared ≤ max
  single : tally.reached ≤ 1
  full : 0 < tally.reached → max ≤ tally.count
  closed : tally.locked = true →
    tally.admitted = 0 ∧ tally.compared = 0 ∧ tally.reached ≤ 0
  locking : 0 < tally.locking → tally.locked = true

/-- What time may do: no counter goes while an attempt is about to lock the account, and no lock
while the counter is about to be removed. -/
structure Waits (tally : Tally) (count : Int) (locked : Bool) : Prop where
  natural : 0 ≤ count
  fewer : count ≤ tally.count
  fills : 0 < tally.reached → count = tally.count
  unlocks : locked = true → tally.locked = true
  holds : 0 < tally.locking → tally.locked = true → locked = true

inductive Step (max : Int) (tally : Tally) : Tally → Prop where
  | idle : Step max tally tally
  | letIn (unlocked : tally.locked = false)
      (room : tally.count + tally.admitted + tally.compared < max) :
      Step max tally { tally with admitted := tally.admitted + 1 }
  | leave (present : 0 < tally.admitted) :
      Step max tally { tally with admitted := tally.admitted - 1 }
  | compare (present : 0 < tally.admitted) :
      Step max tally { tally with
        admitted := tally.admitted - 1
        compared := tally.compared + 1
        guesses := tally.guesses + 1 }
  | spare (locked : tally.locked = true) (present : 0 < tally.compared) :
      Step max tally { tally with compared := tally.compared - 1 }
  | count (present : 0 < tally.compared) :
      Step max tally { tally with
        compared := tally.compared - 1
        count := tally.count + 1
        reached := tally.reached + if max ≤ tally.count + 1 then 1 else 0 }
  | lock (present : 0 < tally.reached) :
      Step max tally { tally with
        reached := tally.reached - 1
        locking := tally.locking + 1
        locked := true }
  | miss (locked : Bool) (present : 0 < tally.reached) (kept : tally.locked = true → locked = true) :
      Step max tally { tally with reached := tally.reached - 1, locked }
  | reset (count : Int) (present : 0 < tally.locking) (either : count = 0 ∨ count = tally.count) :
      Step max tally { tally with locking := tally.locking - 1, count }

variable {max : Int} {tally after : Tally}

theorem Sound.waits (sound : tally.Sound max) {count : Int} {locked : Bool}
    (waits : tally.Waits count locked) : Sound max { tally with count, locked } where
  natural := ⟨waits.natural, sound.natural.2⟩
  bounded := by
    have := sound.bounded
    have := waits.fewer
    dsimp only
    omega
  single := sound.single
  full present := (sound.full present).trans_eq (waits.fills present).symm
  closed locked := sound.closed (waits.unlocks locked)
  locking present := waits.holds present (sound.locking present)

theorem Sound.step (sound : tally.Sound max) (step : tally.Step max after) : after.Sound max := by
  obtain ⟨⟨counts, enters, compares⟩, bounded, single, full, closed, locking⟩ := sound
  cases step with
  | idle => exact ⟨⟨counts, enters, compares⟩, bounded, single, full, closed, locking⟩
  | letIn unlocked room =>
    refine ⟨⟨counts, by dsimp only; omega, compares⟩, by dsimp only; omega, single, full, ?_,
      locking⟩
    intro locked
    exact absurd (unlocked.symm.trans locked) (by decide)
  | leave present =>
    refine ⟨⟨counts, by dsimp only; omega, compares⟩, by dsimp only; omega, single, full, ?_,
      locking⟩
    intro locked
    have := closed locked
    omega
  | compare present =>
    refine ⟨⟨counts, by dsimp only; omega, by dsimp only; omega⟩, by dsimp only; omega, single,
      full, ?_, locking⟩
    intro locked
    have := closed locked
    omega
  | spare locked present =>
    have := closed locked
    omega
  | count present =>
    have room : tally.reached ≤ 0 := by
      by_contra many
      have := full (by omega)
      omega
    refine ⟨⟨by dsimp only; omega, enters, by dsimp only; omega⟩, by dsimp only; omega, ?_, ?_, ?_,
      locking⟩
    · dsimp only
      split <;> omega
    · dsimp only
      split <;> omega
    · intro locked
      have := closed locked
      omega
  | lock present =>
    have filled := full present
    refine ⟨⟨counts, enters, compares⟩, bounded, by dsimp only; omega, ?_, ?_, fun _ => rfl⟩
    · dsimp only
      omega
    · intro _
      dsimp only
      omega
  | miss locked present kept =>
    have filled := full present
    refine ⟨⟨counts, enters, compares⟩, bounded, by dsimp only; omega, ?_, ?_, ?_⟩
    · dsimp only
      omega
    · intro _
      dsimp only
      omega
    · exact fun present => kept (locking present)
  | reset count present either =>
    have locked := locking present
    have none := closed locked
    refine ⟨⟨by dsimp only; omega, enters, compares⟩, by dsimp only; omega, single, ?_, closed, ?_⟩
    · dsimp only
      omega
    · exact fun _ => locked

/-- As many passwords as were counted or are still to be counted, and no more than the account may
fail. -/
def Within (max : Int) (tally : Tally) : Prop :=
  tally.guesses ≤ if tally.locked then max else tally.count + tally.compared

theorem Within.step (sound : tally.Sound max) (within : tally.Within max)
    (step : tally.Step max after) : after.Within max := by
  obtain ⟨⟨-, enters, -⟩, bounded, -, full, closed, locking⟩ := sound
  cases step with
  | idle | letIn _ _ | leave _ => exact within
  | compare present =>
    have unlocked : tally.locked = false := by
      by_contra locked
      have := closed (by simpa using locked)
      omega
    simp only [Within, unlocked, Bool.false_eq_true, if_false] at within ⊢
    omega
  | spare locked present =>
    have := closed locked
    omega
  | count present =>
    simp only [Within] at within ⊢
    split
    · rwa [if_pos ‹_›] at within
    · rw [if_neg ‹_›] at within
      omega
  | lock present =>
    have := full present
    simp only [Within, if_true] at within ⊢
    split at within <;> omega
  | miss locked present kept =>
    simp only [Within] at within ⊢
    cases locked' : tally.locked with
    | true =>
      rw [kept locked']
      rwa [locked'] at within
    | false =>
      simp only [locked', Bool.false_eq_true, if_false] at within
      split <;> omega
  | reset count present either =>
    have locked := locking present
    simp only [Within, locked, if_true] at within ⊢
    exact within

end Tally

end Lockout
