import Hakawi.Effects.Pool

/-!
# A thread that changes nothing

One thread of a pool spares the state if each of its own turns leaves it the same,
whatever the other threads do in between. What such a thread ends with is proved
of its program alone: a call is taken to find any state, and to be answered as a
call is answered that changes nothing there.
-/

namespace Effects.Pool

variable {S C O : Type} {R : O → Type} {α : Type}
variable (exec : C → S → (op : O) → R op × S) (same : S → S → Prop) (i : Nat)

/-- Each turn of thread `i` leaves the state the same. -/
def Spares : List (Nat × C) → Pool S O R α → Prop
  | [], _ => True
  | turn :: rest, pool =>
    (turn.1 = i → same pool.state (pool.advance exec turn).state) ∧
      Spares rest (pool.advance exec turn)

/-- Any state may be found, and no change is made to it. -/
def sparing : Program.OpSpec O R Unit :=
  fun op Q _ => ∀ c s, same s (exec c s op).2 → Q (exec c s op).1 ()

theorem sparing_monotone : (sparing exec same).Monotone :=
  fun _ _ _ _ weaker h c s spared => weaker _ _ (h c s spared)

section Turns
variable {exec i} {pool : Pool S O R α}

theorem advance_other {turn : Nat × C} (other : turn.1 ≠ i) :
    (pool.advance exec turn).threads[i]? = pool.threads[i]? := by
  rw [advance]
  split
  · exact List.getElem?_set_ne other
  · rfl

variable (exec) in
theorem advance_call {op : O} {next : R op → Program O R α}
    (about : pool.threads[i]? = some (.call op next)) (c : C) :
    pool.advance exec (i, c) = ⟨(exec c pool.state op).2,
      pool.threads.set i (next (exec c pool.state op).1)⟩ := by
  simp only [advance, about]

variable (exec) in
theorem advance_own {op : O} {next : R op → Program O R α}
    (about : pool.threads[i]? = some (.call op next)) (c : C) :
    (pool.advance exec (i, c)).threads[i]? = some (next (exec c pool.state op).1) := by
  obtain ⟨within, -⟩ := List.getElem?_eq_some_iff.mp about
  rw [advance_call exec about, List.getElem?_set_self within]

/-- A thread that has had no turn is where it began. -/
theorem run_untouched {schedule : List (Nat × C)} (untouched : ∀ turn ∈ schedule, turn.1 ≠ i)
    (pool : Pool S O R α) : (pool.run exec schedule).threads[i]? = pool.threads[i]? := by
  induction schedule generalizing pool with
  | nil => rfl
  | cons turn rest ih =>
    rw [run_cons, ih fun t member => untouched t (List.mem_cons_of_mem _ member)]
    exact advance_other (untouched turn List.mem_cons_self)

theorem advance_done {a : α} (done : pool.threads[i]? = some (.done a)) (turn : Nat × C) :
    (pool.advance exec turn).threads[i]? = some (.done a) := by
  by_cases own : turn.1 = i
  · subst own
    simp only [advance, done]
  · rwa [advance_other own]

variable (exec) in
/-- A thread that is done stays done. -/
theorem run_done {a : α} (done : pool.threads[i]? = some (.done a))
    (schedule : List (Nat × C)) : (pool.run exec schedule).threads[i]? = some (.done a) := by
  induction schedule generalizing pool with
  | nil => exact done
  | cons turn rest ih => exact ih (advance_done done turn)

theorem result?_of_done {a : α} (done : pool.threads[i]? = some (.done a)) :
    pool.result? i = some a := by
  simp only [result?, done]

end Turns

section Spared
variable {exec same i}

/-- A thread that is done has no more calls to make. -/
theorem spares_of_done (still : ∀ s, same s s) {pool : Pool S O R α} {a : α}
    (done : pool.threads[i]? = some (.done a)) (schedule : List (Nat × C)) :
    Spares exec same i schedule pool := by
  induction schedule generalizing pool with
  | nil => trivial
  | cons turn rest ih =>
    refine ⟨fun own => ?_, ih (advance_done done turn)⟩
    subst own
    simpa only [advance, done] using still pool.state

/-- What a thread ends with that spares the state, however the threads are scheduled. -/
theorem result_of_spares {post : α → Prop} {pool : Pool S O R α} {p : Program O R α}
    (about : pool.threads[i]? = some p)
    (holds : p.wp (sparing exec same) (fun a _ => post a) ()) {schedule : List (Nat × C)}
    (spares : Spares exec same i schedule pool) {a : α}
    (ended : (pool.run exec schedule).result? i = some a) : post a := by
  induction schedule generalizing pool p with
  | nil =>
    cases about.symm.trans (done_of_result? ended)
    exact holds
  | cons turn rest ih =>
    obtain ⟨spared, later⟩ := spares
    obtain ⟨k, c⟩ := turn
    by_cases own : k = i
    · subst own
      cases p with
      | done b => exact ih (advance_done about _) holds later ended
      | call op next =>
        refine ih (advance_own exec about c) (holds c pool.state ?_) later ended
        have unchanged := spared rfl
        rwa [advance_call exec about] at unchanged
    · exact ih ((advance_other own).trans about) holds later ended

end Spared

end Effects.Pool
