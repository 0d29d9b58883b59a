import Hakawi.Effects.Program
import Mathlib.Algebra.BigOperators.Group.List.Basic
import Mathlib.Tactic.Abel

/-!
# Interleaved programs

A pool is a shared state and a list of programs. One turn lets one program do
one call; a schedule is any list of turns, so a theorem about every schedule is
about every interleaving at the granularity of calls, of any number of programs,
including those that start late or stop half way.

A protocol says what a program may call, given what it has learned so far. The
invariant rule needs only the protocol: a program that follows it, whatever its
text, keeps an invariant that every allowed call keeps.
-/

namespace Effects

structure Pool (S O : Type) (R : O → Type) (α : Type) where
  state : S
  threads : List (Program O R α)

/-- What a thread may call, and what it remembers of the answers. -/
structure Protocol (O : Type) (R : O → Type) (G : Type) where
  allowed : G → O → Prop
  next : G → (op : O) → R op → G

namespace Protocol
variable {O : Type} {R : O → Type} {G : Type} (P : Protocol O R G)

/-- Every call is allowed, whatever was answered before. -/
def spec : Program.OpSpec O R G := fun op Q g => P.allowed g op ∧ ∀ r, Q r (P.next g op r)

theorem spec_monotone : P.spec.Monotone :=
  fun _ _ _ _ weaker h => ⟨h.1, fun r => weaker _ _ (h.2 r)⟩

def Follows {α : Type} (g : G) (p : Program O R α) : Prop := p.wp P.spec (fun _ _ => True) g

/-- Follows the protocol, and has what it remembers satisfy `post` when it is done. -/
def Reaches {α : Type} (post : α → G → Prop) (g : G) (p : Program O R α) : Prop :=
  p.wp P.spec post g

theorem Reaches.follows {α : Type} {P : Protocol O R G} {post : α → G → Prop} {g : G}
    {p : Program O R α} (h : P.Reaches post g p) : P.Follows g p :=
  Program.wp_mono P.spec_monotone (fun _ _ _ => trivial) h

/-- The protocol that allows no other calls than these. -/
def within (A : O → Prop) : Protocol O R G where
  allowed g op := P.allowed g op ∧ A op
  next := P.next

theorem follows_within {α : Type} {P : Protocol O R G} {A : O → Prop} {g : G}
    {p : Program O R α} (follows : P.Follows g p) (only : p.Only A) :
    (P.within A).Follows g p := by
  induction p generalizing g with
  | done a => trivial
  | call op next ih => exact ⟨⟨follows.1, only.1⟩, fun r => ih r (follows.2 r) (only.2 r)⟩

/-- A program run alone ends as its protocol says, whatever the calls answer. -/
theorem Reaches.eval {α S C : Type} {P : Protocol O R G} {post : α → G → Prop} {g : G}
    {p : Program O R α} (reaches : P.Reaches post g p) (exec : C → S → (op : O) → R op × S)
    (choices : Nat → C) (s : S) : ∃ g', post (p.eval exec choices s).1 g' := by
  induction p generalizing g choices s with
  | done a => exact ⟨g, reaches⟩
  | call op next ih => exact ih _ (reaches.2 _) _ _

end Protocol

namespace Pool
variable {S C O G : Type} {R : O → Type} {α : Type}
variable (exec : C → S → (op : O) → R op × S)

/-- Thread `turn.1` does its next call, the environment choosing `turn.2`. -/
def advance (pool : Pool S O R α) (turn : Nat × C) : Pool S O R α :=
  match pool.threads[turn.1]? with
  | some (.call op next) =>
    ⟨(exec turn.2 pool.state op).2,
      pool.threads.set turn.1 (next (exec turn.2 pool.state op).1)⟩
  | _ => pool

def run (pool : Pool S O R α) (schedule : List (Nat × C)) : Pool S O R α :=
  schedule.foldl (advance exec) pool

@[simp] theorem run_nil (pool : Pool S O R α) : pool.run exec [] = pool := rfl

theorem run_cons (pool : Pool S O R α) (turn : Nat × C) (rest : List (Nat × C)) :
    pool.run exec (turn :: rest) = (pool.advance exec turn).run exec rest := rfl

theorem run_append (pool : Pool S O R α) (early late : List (Nat × C)) :
    pool.run exec (early ++ late) = (pool.run exec early).run exec late :=
  List.foldl_append

/-- What no call changes is as it was. -/
theorem run_state {X : Type} (f : S → X) (kept : ∀ c s op, f (exec c s op).2 = f s)
    (pool : Pool S O R α) (schedule : List (Nat × C)) :
    f (pool.run exec schedule).state = f pool.state := by
  induction schedule generalizing pool with
  | nil => rfl
  | cons turn rest ih =>
    rw [run_cons, ih, advance]
    split
    · exact kept _ _ _
    · rfl

variable (P : Protocol O R G)

/-- What the threads remember after one turn. -/
def recallTurn (memory : List G) (pool : Pool S O R α) (turn : Nat × C) : List G :=
  match pool.threads[turn.1]?, memory[turn.1]? with
  | some (.call op _), some g =>
    memory.set turn.1 (P.next g op (exec turn.2 pool.state op).1)
  | _, _ => memory

def recallAll (memory : List G) (pool : Pool S O R α) : List (Nat × C) → List G
  | [] => memory
  | turn :: rest => recallAll (recallTurn exec P memory pool turn) (pool.advance exec turn) rest

/-- The call a turn makes, with what its thread remembers. -/
def current (memory : List G) (pool : Pool S O R α) (i : Nat) : Option (G × O) :=
  match pool.threads[i]? with
  | some (.call op _) => memory[i]?.map (·, op)
  | _ => none

/-- Every turn of the schedule meets `ok`, a condition on the choice of the
environment, the state before the turn, what the thread remembers and its call. -/
def Meets (ok : C → S → G → O → Prop) : List (Nat × C) → List G → Pool S O R α → Prop
  | [], _, _ => True
  | turn :: rest, memory, pool =>
    (∀ now ∈ current memory pool turn.1, ok turn.2 pool.state now.1 now.2) ∧
    Meets ok rest (recallTurn exec P memory pool turn) (pool.advance exec turn)

instance decidableMeets (ok : C → S → G → O → Prop) [∀ c s g op, Decidable (ok c s g op)] :
    (schedule : List (Nat × C)) → (memory : List G) → (pool : Pool S O R α) →
      Decidable (Meets exec P ok schedule memory pool)
  | [], _, _ => .isTrue trivial
  | turn :: rest, memory, pool =>
    have := decidableMeets ok rest (recallTurn exec P memory pool turn) (pool.advance exec turn)
    inferInstanceAs (Decidable (_ ∧ _))

theorem meets_of_forall {ok : C → S → G → O → Prop} (always : ∀ c s g op, ok c s g op)
    (schedule : List (Nat × C)) (memory : List G) (pool : Pool S O R α) :
    Meets exec P ok schedule memory pool := by
  induction schedule generalizing memory pool with
  | nil => trivial
  | cons turn rest ih => exact ⟨fun now _ => always _ _ _ _, ih _ _⟩

/-- Every turn meets a condition that sees which thread has it and what all threads remember. -/
def Observed (ok : Nat → C → S → List G → G → O → Prop) :
    List (Nat × C) → List G → Pool S O R α → Prop
  | [], _, _ => True
  | turn :: rest, memory, pool =>
    (∀ now ∈ current memory pool turn.1, ok turn.1 turn.2 pool.state memory now.1 now.2) ∧
    Observed ok rest (recallTurn exec P memory pool turn) (pool.advance exec turn)

instance decidableObserved (ok : Nat → C → S → List G → G → O → Prop)
    [∀ i c s memory g op, Decidable (ok i c s memory g op)] :
    (schedule : List (Nat × C)) → (memory : List G) → (pool : Pool S O R α) →
      Decidable (Observed exec P ok schedule memory pool)
  | [], _, _ => .isTrue trivial
  | turn :: rest, memory, pool =>
    have := decidableObserved ok rest (recallTurn exec P memory pool turn) (pool.advance exec turn)
    inferInstanceAs (Decidable (_ ∧ _))

/-- Every turn of the schedule meets a condition on the state before it. -/
def EachTurn (ok : C → S → Prop) : List (Nat × C) → Pool S O R α → Prop
  | [], _ => True
  | turn :: rest, pool => ok turn.2 pool.state ∧ EachTurn ok rest (pool.advance exec turn)

instance decidableEachTurn (ok : C → S → Prop) [∀ c s, Decidable (ok c s)] :
    (schedule : List (Nat × C)) → (pool : Pool S O R α) → Decidable (EachTurn exec ok schedule pool)
  | [], _ => .isTrue trivial
  | turn :: rest, pool =>
    have := decidableEachTurn ok rest (pool.advance exec turn)
    inferInstanceAs (Decidable (_ ∧ _))

/-- Every call of the schedule meets a condition on the state before it. -/
def EachCall (ok : C → S → O → Prop) : List (Nat × C) → Pool S O R α → Prop
  | [], _ => True
  | turn :: rest, pool =>
    (match pool.threads[turn.1]? with
      | some (.call op _) => ok turn.2 pool.state op
      | _ => True) ∧
    EachCall ok rest (pool.advance exec turn)

instance decidableEachCall (ok : C → S → O → Prop) [∀ c s op, Decidable (ok c s op)] :
    (schedule : List (Nat × C)) → (pool : Pool S O R α) → Decidable (EachCall exec ok schedule pool)
  | [], _ => .isTrue trivial
  | turn :: rest, pool =>
    have := decidableEachCall ok rest (pool.advance exec turn)
    have : Decidable (match pool.threads[turn.1]? with
      | some (.call op _) => ok turn.2 pool.state op
      | _ => True) := by split <;> infer_instance
    inferInstanceAs (Decidable (_ ∧ _))

theorem meets_of_eachCall {ok : C → S → O → Prop} {schedule : List (Nat × C)}
    {pool : Pool S O R α} (each : EachCall exec ok schedule pool) (memory : List G) :
    Meets exec P (fun c s _ op => ok c s op) schedule memory pool := by
  induction schedule generalizing memory pool with
  | nil => trivial
  | cons turn rest ih =>
    refine ⟨fun now member => ?_, ih each.2 _⟩
    have here := each.1
    unfold current at member
    split at member
    · rename_i op next about
      simp only [about] at here
      obtain ⟨g, -, rfl⟩ := Option.map_eq_some_iff.mp member
      exact here
    · cases member

theorem eachCall_of_forall {ok : C → S → O → Prop} (always : ∀ c s op, ok c s op)
    (schedule : List (Nat × C)) (pool : Pool S O R α) : EachCall exec ok schedule pool := by
  induction schedule generalizing pool with
  | nil => trivial
  | cons turn rest ih =>
    refine ⟨?_, ih _⟩
    split
    · exact always _ _ _
    · trivial

/-- Where all threads make only calls that meet the condition anywhere, every call meets it. -/
theorem eachCall_of_only {ok : C → S → O → Prop} {A : O → Prop} (meets : ∀ c s op, A op → ok c s op)
    {pool : Pool S O R α} (only : ∀ p ∈ pool.threads, p.Only A) (schedule : List (Nat × C)) :
    EachCall exec ok schedule pool := by
  induction schedule generalizing pool with
  | nil => trivial
  | cons turn rest ih =>
    cases about : pool.threads[turn.1]? with
    | none => exact ⟨by simp only [about], ih (by simpa only [advance, about] using only)⟩
    | some p =>
      have mine := only p (List.mem_of_getElem? about)
      cases p with
      | done a => exact ⟨by simp only [about], ih (by simpa only [advance, about] using only)⟩
      | call op next =>
        refine ⟨by simpa only [about] using meets _ _ op mine.1, ih fun q member => ?_⟩
        simp only [advance, about] at member
        rcases List.mem_or_eq_of_mem_set member with old | rfl
        · exact only q old
        · exact mine.2 _

theorem EachCall.and {ok ok' : C → S → O → Prop} {schedule : List (Nat × C)}
    {pool : Pool S O R α} (first : EachCall exec ok schedule pool)
    (second : EachCall exec ok' schedule pool) :
    EachCall exec (fun c s op => ok c s op ∧ ok' c s op) schedule pool := by
  induction schedule generalizing pool with
  | nil => trivial
  | cons turn rest ih =>
    refine ⟨?_, ih first.2 second.2⟩
    have here := first.1
    have here' := second.1
    split
    · rename_i op next about
      simp only [about] at here here'
      exact ⟨here, here'⟩
    · trivial

theorem EachCall.take {ok : C → S → O → Prop} {schedule : List (Nat × C)} {pool : Pool S O R α}
    (each : EachCall exec ok schedule pool) (n : Nat) :
    EachCall exec ok (schedule.take n) pool := by
  induction schedule generalizing pool n with
  | nil =>
    rw [List.take_nil]
    trivial
  | cons turn rest ih =>
    cases n with
    | zero => trivial
    | succ n => exact ⟨each.1, ih each.2 n⟩

theorem eachCall_invariant {ok : C → S → O → Prop} {inv : S → Prop}
    (preserves : ∀ c s op, inv s → ok c s op → inv (exec c s op).2) {pool : Pool S O R α}
    (holds : inv pool.state) {schedule : List (Nat × C)} (each : EachCall exec ok schedule pool) :
    inv (pool.run exec schedule).state := by
  induction schedule generalizing pool with
  | nil => exact holds
  | cons turn rest ih =>
    refine ih ?_ each.2
    have here := each.1
    rw [advance]
    split
    · rename_i op next about
      simp only [about] at here
      exact preserves _ _ _ holds here
    · exact holds

/-- Where a call keeps an invariant and does well exactly if it meets a condition, all moments and
all steps of a schedule are well exactly if all calls meet it. -/
theorem eachCall_steps_iff {ok : C → S → O → Prop} {inv : S → Prop} (good : S → S → Prop)
    (still : ∀ s, good s s) (exact : ∀ c s op, inv s →
      (inv (exec c s op).2 ∧ good s (exec c s op).2 ↔ ok c s op)) {pool : Pool S O R α}
    (holds : inv pool.state) (schedule : List (Nat × C)) :
    EachCall exec ok schedule pool ↔ ∀ n, inv (pool.run exec (schedule.take n)).state ∧
      good (pool.run exec (schedule.take n)).state
        (pool.run exec (schedule.take (n + 1))).state := by
  induction schedule generalizing pool with
  | nil =>
    simp only [List.take_nil, run_nil, forall_const]
    exact iff_of_true trivial ⟨holds, still _⟩
  | cons turn rest ih =>
    have here : (match pool.threads[turn.1]? with
        | some (.call op _) => ok turn.2 pool.state op
        | _ => True) ↔ inv (pool.advance exec turn).state ∧
          good pool.state (pool.advance exec turn).state := by
      cases about : pool.threads[turn.1]? with
      | none => simpa only [advance, about, true_iff] using ⟨holds, still _⟩
      | some program =>
        cases program with
        | done a => simpa only [advance, about, true_iff] using ⟨holds, still _⟩
        | call op next => simpa only [advance, about] using (exact turn.2 pool.state op holds).symm
    constructor
    · rintro ⟨met, each⟩ n
      obtain ⟨kept, well⟩ := here.mp met
      cases n with
      | zero => exact ⟨holds, well⟩
      | succ n => exact (ih kept).mp each n
    · intro always
      have kept : inv (pool.advance exec turn).state := (always 1).1
      exact ⟨here.mpr ⟨kept, (always 0).2⟩, (ih kept).mpr fun n => always (n + 1)⟩

/-- Where a call keeps an invariant exactly if it meets a condition, the invariant holds at every
moment exactly if all calls meet it. -/
theorem eachCall_iff {ok : C → S → O → Prop} {inv : S → Prop}
    (exact : ∀ c s op, inv s → (inv (exec c s op).2 ↔ ok c s op)) {pool : Pool S O R α}
    (holds : inv pool.state) (schedule : List (Nat × C)) :
    EachCall exec ok schedule pool ↔ ∀ n, inv (pool.run exec (schedule.take n)).state := by
  have steps := eachCall_steps_iff exec (fun _ _ => True) (fun _ => trivial)
    (fun c s op before => (and_iff_left trivial).trans (exact c s op before)) holds schedule
  exact steps.trans (forall_congr' fun n => and_iff_left trivial)

theorem eachTurn_append {ok : C → S → Prop} {early late : List (Nat × C)} {pool : Pool S O R α} :
    EachTurn exec ok (early ++ late) pool ↔
      EachTurn exec ok early pool ∧ EachTurn exec ok late (pool.run exec early) := by
  induction early generalizing pool with
  | nil => simp [EachTurn]
  | cons turn rest ih => simp only [List.cons_append, EachTurn, ih, run_cons, and_assoc]

theorem meets_of_eachTurn {ok : C → S → Prop} {schedule : List (Nat × C)} {pool : Pool S O R α}
    (each : EachTurn exec ok schedule pool) (memory : List G) :
    Meets exec P (fun c s _ _ => ok c s) schedule memory pool := by
  induction schedule generalizing memory pool with
  | nil => trivial
  | cons turn rest ih => exact ⟨fun _ _ => each.1, ih each.2 _⟩

theorem meets_append {ok : C → S → G → O → Prop} (early late : List (Nat × C))
    (memory : List G) (pool : Pool S O R α) :
    Meets exec P ok (early ++ late) memory pool ↔
      Meets exec P ok early memory pool ∧
        Meets exec P ok late (recallAll exec P memory pool early) (pool.run exec early) := by
  induction early generalizing memory pool with
  | nil => simp [Meets, recallAll]
  | cons turn rest ih => simp only [List.cons_append, Meets, ih, recallAll, run_cons, and_assoc]

theorem recallAll_append (early late : List (Nat × C)) (memory : List G) (pool : Pool S O R α) :
    recallAll exec P memory pool (early ++ late) =
      recallAll exec P (recallAll exec P memory pool early) (pool.run exec early) late := by
  induction early generalizing memory pool with
  | nil => rfl
  | cons turn rest ih => exact ih _ _

/-- A thread that has had no turn remembers what it began with. -/
theorem recallAll_untouched {i : Nat} {schedule : List (Nat × C)}
    (untouched : ∀ turn ∈ schedule, turn.1 ≠ i) (memory : List G) (pool : Pool S O R α) :
    (recallAll exec P memory pool schedule)[i]? = memory[i]? := by
  induction schedule generalizing memory pool with
  | nil => rfl
  | cons turn rest ih =>
    rw [recallAll, ih fun t ht => untouched t (List.mem_cons_of_mem _ ht), recallTurn]
    split
    · exact List.getElem?_set_ne (untouched turn List.mem_cons_self)
    · rfl

/-- What no answer changes stays true of what a thread remembers. -/
theorem recallAll_kept {p : G → Prop} (kept : ∀ g op (r : R op), p g → p (P.next g op r)) {i : Nat}
    {memory : List G} (holds : ∀ g, memory[i]? = some g → p g) (schedule : List (Nat × C))
    (pool : Pool S O R α) : ∀ g, (recallAll exec P memory pool schedule)[i]? = some g → p g := by
  induction schedule generalizing memory pool with
  | nil => exact holds
  | cons turn rest ih =>
    refine ih (fun g found => ?_) _
    rw [recallTurn] at found
    split at found
    · rename_i op next old about remembers
      by_cases same : turn.1 = i
      · obtain ⟨hlt, -⟩ := List.getElem?_eq_some_iff.mp remembers
        rw [same, List.getElem?_set_self (same ▸ hlt)] at found
        cases found
        exact kept old op _ (holds old (same ▸ remembers))
      · rw [List.getElem?_set_ne same] at found
        exact holds g found
    · exact holds g found

/-- Each thread follows the protocol from what it remembers. -/
def Follow (memory : List G) (pool : Pool S O R α) : Prop :=
  List.Forall₂ P.Follows memory pool.threads

/-- One allowed call keeps the invariant, whichever thread makes it. -/
def Preserves (ok : C → S → G → O → Prop) (inv : S → List G → Prop) : Prop :=
  ∀ c s (memory : List G) i g op, memory[i]? = some g → inv s memory → P.allowed g op →
    ok c s g op → inv (exec c s op).2 (memory.set i (P.next g op (exec c s op).1))

variable {exec P}

/-- A turn does nothing, or it is an allowed call of a thread that goes on following. -/
theorem advance_cases {ok : C → S → G → O → Prop} {memory : List G} {pool : Pool S O R α}
    {turn : Nat × C} {rest : List (Nat × C)} (follow : Follow P memory pool)
    (meets : Meets exec P ok (turn :: rest) memory pool) :
    (pool.advance exec turn = pool ∧ recallTurn exec P memory pool turn = memory) ∨
      ∃ g op, memory[turn.1]? = some g ∧ P.allowed g op ∧ ok turn.2 pool.state g op ∧
        (pool.advance exec turn).state = (exec turn.2 pool.state op).2 ∧
        recallTurn exec P memory pool turn =
          memory.set turn.1 (P.next g op (exec turn.2 pool.state op).1) ∧
        Follow P (recallTurn exec P memory pool turn) (pool.advance exec turn) := by
  have now := meets.1
  cases ht : pool.threads[turn.1]? with
  | none => exact Or.inl (by simp [advance, recallTurn, ht])
  | some program =>
    cases program with
    | done a => exact Or.inl (by simp [advance, recallTurn, ht])
    | call op next =>
      right
      obtain ⟨hlt, hget⟩ := List.getElem?_eq_some_iff.mp ht
      have hlt' : turn.1 < memory.length := by rw [follow.length_eq]; exact hlt
      have hg : memory[turn.1]? = some memory[turn.1] := List.getElem?_eq_getElem hlt'
      have this := follow.get hlt' hlt
      simp only [List.get_eq_getElem, hget] at this
      have hnow := now (memory[turn.1], op) (by simp [current, ht, hg])
      refine ⟨memory[turn.1], op, hg, this.1, hnow, by simp [advance, ht], by
        simp [recallTurn, ht, hg], ?_⟩
      simp only [Follow, advance, recallTurn, ht, hg]
      refine List.forall₂_iff_get.mpr ⟨by simpa using follow.length_eq, fun k hk hk' => ?_⟩
      simp only [List.get_eq_getElem, List.getElem_set]
      split
      · exact this.2 _
      · exact follow.get (by simpa using hk) (by simpa using hk')

theorem advance_invariant {ok : C → S → G → O → Prop} {inv : S → List G → Prop}
    (preserves : Preserves exec P ok inv) {memory : List G} {pool : Pool S O R α}
    {turn : Nat × C} {rest : List (Nat × C)}
    (holds : inv pool.state memory) (follow : Follow P memory pool)
    (meets : Meets exec P ok (turn :: rest) memory pool) :
    inv (pool.advance exec turn).state (recallTurn exec P memory pool turn) ∧
      Follow P (recallTurn exec P memory pool turn) (pool.advance exec turn) := by
  rcases advance_cases follow meets with ⟨hp, hm⟩ | ⟨g, op, hg, allowed, hok, hs, hm, follow'⟩
  · rw [hp, hm]
    exact ⟨holds, follow⟩
  · refine ⟨?_, follow'⟩
    rw [hs, hm]
    exact preserves _ _ _ _ _ _ hg holds allowed hok

/-- The invariant rule: it holds after every schedule that meets the condition. -/
theorem run_invariant {ok : C → S → G → O → Prop} {inv : S → List G → Prop}
    (preserves : Preserves exec P ok inv) {memory : List G} {pool : Pool S O R α}
    (holds : inv pool.state memory) (follow : Follow P memory pool)
    {schedule : List (Nat × C)} (meets : Meets exec P ok schedule memory pool) :
    inv (pool.run exec schedule).state (recallAll exec P memory pool schedule) ∧
      Follow P (recallAll exec P memory pool schedule) (pool.run exec schedule) := by
  induction schedule generalizing memory pool with
  | nil => exact ⟨holds, follow⟩
  | cons turn rest ih =>
    have step := advance_invariant preserves holds follow meets
    exact ih step.1 step.2 meets.2

/-- An invariant that every allowed call keeps holds after every schedule. -/
theorem run_invariant_always {inv : S → List G → Prop}
    (preserves : Preserves exec P (fun _ _ _ _ => True) inv) {memory : List G}
    {pool : Pool S O R α} (holds : inv pool.state memory) (follow : Follow P memory pool)
    (schedule : List (Nat × C)) :
    inv (pool.run exec schedule).state (recallAll exec P memory pool schedule) ∧
      Follow P (recallAll exec P memory pool schedule) (pool.run exec schedule) :=
  run_invariant preserves holds follow
    (meets_of_forall exec P (fun _ _ _ _ => trivial) schedule memory pool)

/-- Threads that follow the protocol go on following it. -/
theorem follow_run {memory : List G} {pool : Pool S O R α} (follow : Follow P memory pool)
    (schedule : List (Nat × C)) :
    Follow P (recallAll exec P memory pool schedule) (pool.run exec schedule) := by
  have preserves : Preserves exec P (fun _ _ _ _ => True) fun _ _ => True :=
    fun _ _ _ _ _ _ _ _ _ _ => trivial
  exact (run_invariant_always preserves trivial follow schedule).2

variable (exec P) in
/-- Every turn meets `ok`, a condition that sees what all threads remember, and at every
moment what they remember is `calm`. -/
def Orderly (ok : C → S → List G → G → O → Prop) (calm : List G → Prop) :
    List (Nat × C) → List G → Pool S O R α → Prop
  | [], memory, _ => calm memory
  | turn :: rest, memory, pool => calm memory ∧
    (∀ now ∈ current memory pool turn.1, ok turn.2 pool.state memory now.1 now.2) ∧
    Orderly ok calm rest (recallTurn exec P memory pool turn) (pool.advance exec turn)

instance decidableOrderly (ok : C → S → List G → G → O → Prop) (calm : List G → Prop)
    [∀ c s memory g op, Decidable (ok c s memory g op)] [DecidablePred calm] :
    (schedule : List (Nat × C)) → (memory : List G) → (pool : Pool S O R α) →
      Decidable (Orderly exec P ok calm schedule memory pool)
  | [], memory, _ => inferInstanceAs (Decidable (calm memory))
  | turn :: rest, memory, pool =>
    have := decidableOrderly ok calm rest (recallTurn exec P memory pool turn)
      (pool.advance exec turn)
    inferInstanceAs (Decidable (_ ∧ _ ∧ _))

theorem Orderly.calm {ok : C → S → List G → G → O → Prop} {calm : List G → Prop}
    {schedule : List (Nat × C)} {memory : List G} {pool : Pool S O R α}
    (orderly : Orderly exec P ok calm schedule memory pool) : calm memory := by
  cases schedule with
  | nil => exact orderly
  | cons turn rest => exact orderly.1

/-- The invariant rule for orderly schedules. -/
theorem orderly_invariant {ok : C → S → List G → G → O → Prop} {calm : List G → Prop}
    {inv : S → List G → Prop}
    (preserves : ∀ c s (memory : List G) i g op, memory[i]? = some g → inv s memory →
      calm memory → calm (memory.set i (P.next g op (exec c s op).1)) → P.allowed g op →
      ok c s memory g op → inv (exec c s op).2 (memory.set i (P.next g op (exec c s op).1)))
    {memory : List G} {pool : Pool S O R α} (holds : inv pool.state memory)
    (follow : Follow P memory pool) {schedule : List (Nat × C)}
    (orderly : Orderly exec P ok calm schedule memory pool) :
    inv (pool.run exec schedule).state (recallAll exec P memory pool schedule) := by
  induction schedule generalizing memory pool with
  | nil => exact holds
  | cons turn rest ih =>
    obtain ⟨before, now, later⟩ := orderly
    have meets : Meets exec P (fun c s g op => ok c s memory g op) [turn] memory pool :=
      ⟨now, trivial⟩
    rcases advance_cases follow meets with ⟨hp, hm⟩ | ⟨g, op, hg, allowed, hok, hs, hm, follow'⟩
    · rw [hp, hm] at later
      rw [run_cons, recallAll, hp, hm]
      exact ih holds follow later
    · refine ih ?_ follow' later
      have after := later.calm
      rw [hm] at after
      rw [hs, hm]
      exact preserves _ _ _ _ _ _ hg holds before after allowed hok

/-- The invariant rule for schedules whose turns see all threads. -/
theorem observed_invariant {ok : Nat → C → S → List G → G → O → Prop} {inv : S → List G → Prop}
    (preserves : ∀ c s (memory : List G) i g op, memory[i]? = some g → inv s memory →
      P.allowed g op → ok i c s memory g op →
      inv (exec c s op).2 (memory.set i (P.next g op (exec c s op).1)))
    {memory : List G} {pool : Pool S O R α} (holds : inv pool.state memory)
    (follow : Follow P memory pool) {schedule : List (Nat × C)}
    (observed : Observed exec P ok schedule memory pool) :
    inv (pool.run exec schedule).state (recallAll exec P memory pool schedule) := by
  induction schedule generalizing memory pool with
  | nil => exact holds
  | cons turn rest ih =>
    obtain ⟨now, later⟩ := observed
    have meets : Meets exec P (fun c s g op => ok turn.1 c s memory g op) [turn] memory pool :=
      ⟨now, trivial⟩
    rcases advance_cases follow meets with ⟨hp, hm⟩ | ⟨g, op, hg, allowed, hok, hs, hm, follow'⟩
    · rw [hp, hm] at later
      rw [run_cons, recallAll, hp, hm]
      exact ih holds follow later
    · refine ih ?_ follow' later
      rw [hs, hm]
      exact preserves _ _ _ _ _ _ hg holds allowed hok

/-- Where the invariant and the condition on a turn make its call safe, every call of a
schedule is. -/
theorem eachCall_of_observed {ok : Nat → C → S → List G → G → O → Prop} {inv : S → List G → Prop}
    {safe : C → S → O → Prop}
    (preserves : ∀ c s (memory : List G) i g op, memory[i]? = some g → inv s memory →
      P.allowed g op → ok i c s memory g op →
      safe c s op ∧ inv (exec c s op).2 (memory.set i (P.next g op (exec c s op).1)))
    {memory : List G} {pool : Pool S O R α} (holds : inv pool.state memory)
    (follow : Follow P memory pool) {schedule : List (Nat × C)}
    (observed : Observed exec P ok schedule memory pool) : EachCall exec safe schedule pool := by
  induction schedule generalizing memory pool with
  | nil => trivial
  | cons turn rest ih =>
    obtain ⟨now, later⟩ := observed
    have both : Meets exec P (fun c s g op => ok turn.1 c s memory g op) [turn] memory pool :=
      ⟨now, trivial⟩
    refine ⟨?_, ?_⟩
    · cases about : pool.threads[turn.1]? with
      | none => trivial
      | some program =>
        cases program with
        | done a => trivial
        | call op next =>
          obtain ⟨within, here⟩ := List.getElem?_eq_some_iff.mp about
          have within' : turn.1 < memory.length := by rw [follow.length_eq]; exact within
          have known : memory[turn.1]? = some memory[turn.1] := List.getElem?_eq_getElem within'
          have follows := follow.get within' within
          simp only [List.get_eq_getElem, here] at follows
          exact (preserves _ _ _ _ _ _ known holds follows.1
            (now (memory[turn.1], op) (by simp [current, about, known]))).1
    · rcases advance_cases follow both with ⟨hp, hm⟩ | ⟨g, op, hg, allowed, hok, hs, hm, follow'⟩
      · rw [hp, hm] at later
        rw [hp]
        exact ih holds follow later
      · refine ih ?_ follow' later
        rw [hs, hm]
        exact (preserves _ _ _ _ _ _ hg holds allowed hok).2

section Memory
variable {memory : List G} {i : Nat} {g : G}

theorem exists_mem_set {p : G → Prop} (h : memory[i]? = some g) (g' : G)
    (some' : ∃ x ∈ memory, p x) (moves : p g → p g') : ∃ x ∈ memory.set i g', p x := by
  obtain ⟨hlt, rfl⟩ := List.getElem?_eq_some_iff.mp h
  obtain ⟨x, member, holds⟩ := some'
  obtain ⟨j, hj, rfl⟩ := List.getElem_of_mem member
  by_cases same : i = j
  · subst same
    exact ⟨g', List.mem_set hlt g', moves holds⟩
  · refine ⟨memory[j], List.mem_iff_getElem.mpr ⟨j, by simpa using hj, ?_⟩, holds⟩
    exact List.getElem_set_ne same _

theorem forall_mem_set {p : G → Prop} {g' : G} (all : ∀ x ∈ memory, p x) (holds : p g') :
    ∀ x ∈ memory.set i g', p x := by
  intro x member
  rcases List.mem_or_eq_of_mem_set member with old | rfl
  · exact all x old
  · exact holds

theorem getElem?_set_of_some (h : memory[i]? = some g) (g' : G) (j : Nat) :
    (memory.set i g')[j]? = if j = i then some g' else memory[j]? := by
  obtain ⟨hlt, -⟩ := List.getElem?_eq_some_iff.mp h
  rw [List.getElem?_set]
  by_cases hj : j = i
  · subst hj
    simp [hlt]
  · have : ¬ i = j := fun e => hj e.symm
    simp [hj, this]

theorem set_of_some (h : memory[i]? = some g) : memory.set i g = memory := by
  obtain ⟨hlt, rfl⟩ := List.getElem?_eq_some_iff.mp h
  exact List.set_getElem_self hlt

/-- A sum over the threads changes by the new weight minus the old one. -/
theorem sum_map_set {M : Type} [AddCommGroup M] (w : G → M) (h : memory[i]? = some g) (g' : G) :
    ((memory.set i g').map w).sum = (memory.map w).sum - w g + w g' := by
  obtain ⟨hlt, rfl⟩ := List.getElem?_eq_some_iff.mp h
  have hlt' : i < (memory.map w).length := by simpa using hlt
  rw [List.map_set, List.sum_set', dif_pos hlt', List.getElem_map]
  abel

/-- A count over the threads changes by the new thread and the old one. -/
theorem countP_set_of_some (p : G → Bool) (h : memory[i]? = some g) (g' : G) :
    (memory.set i g').countP p + (if p g then 1 else 0) =
      memory.countP p + (if p g' then 1 else 0) := by
  obtain ⟨hlt, rfl⟩ := List.getElem?_eq_some_iff.mp h
  have counted : p memory[i] = true → 0 < memory.countP p := fun holds =>
    List.countP_pos_iff.mpr ⟨_, List.getElem_mem hlt, holds⟩
  rw [List.countP_set hlt]
  split
  · rename_i holds
    have := counted holds
    omega
  · omega

end Memory

section Ends
variable {post : α → G → Prop} {memory : List G} {pool : Pool S O R α}

theorem advance_reaches (reaches : List.Forall₂ (P.Reaches post) memory pool.threads)
    (turn : Nat × C) : List.Forall₂ (P.Reaches post) (recallTurn exec P memory pool turn)
      (pool.advance exec turn).threads := by
  cases ht : pool.threads[turn.1]? with
  | none => simpa [advance, recallTurn, ht] using reaches
  | some program =>
    cases program with
    | done a => simpa [advance, recallTurn, ht] using reaches
    | call op next =>
      obtain ⟨hlt, hget⟩ := List.getElem?_eq_some_iff.mp ht
      have hlt' : turn.1 < memory.length := by rw [reaches.length_eq]; exact hlt
      have hg : memory[turn.1]? = some memory[turn.1] := List.getElem?_eq_getElem hlt'
      have current := reaches.get hlt' hlt
      simp only [List.get_eq_getElem, hget] at current
      simp only [advance, recallTurn, ht, hg]
      refine List.forall₂_iff_get.mpr ⟨by simpa using reaches.length_eq, fun k hk hk' => ?_⟩
      simp only [List.get_eq_getElem, List.getElem_set]
      split
      · exact current.2 _
      · exact reaches.get (by simpa using hk) (by simpa using hk')

theorem run_reaches (reaches : List.Forall₂ (P.Reaches post) memory pool.threads)
    (schedule : List (Nat × C)) : List.Forall₂ (P.Reaches post)
      (recallAll exec P memory pool schedule) (pool.run exec schedule).threads := by
  induction schedule generalizing memory pool with
  | nil => exact reaches
  | cons turn rest ih => exact ih (advance_reaches reaches turn)

/-- What a thread that is done remembers. -/
theorem post_of_done {i : Nat} {g : G} {a : α}
    (reaches : List.Forall₂ (P.Reaches post) memory pool.threads)
    (remembers : memory[i]? = some g) (done : pool.threads[i]? = some (.done a)) : post a g := by
  obtain ⟨hm, rfl⟩ := List.getElem?_eq_some_iff.mp remembers
  obtain ⟨ht, same⟩ := List.getElem?_eq_some_iff.mp done
  have reached := reaches.get hm ht
  simp only [List.get_eq_getElem, same] at reached
  exact reached

/-- What a thread that is done has ended with. -/
def result? (pool : Pool S O R α) (i : Nat) : Option α :=
  match pool.threads[i]? with
  | some (.done a) => some a
  | _ => none

theorem done_of_result? {i : Nat} {a : α} (ended : pool.result? i = some a) :
    pool.threads[i]? = some (.done a) := by
  rw [result?] at ended
  split at ended
  · rename_i done
    cases ended
    exact done
  · cases ended

/-- Every thread is done. -/
def Finished (pool : Pool S O R α) : Prop := ∀ p ∈ pool.threads, ∃ a, p = .done a

instance decidableDone : (p : Program O R α) → Decidable (∃ a, p = .done a)
  | .done a => .isTrue ⟨a, rfl⟩
  | .call _ _ => .isFalse (by rintro ⟨a, same⟩; cases same)

instance (pool : Pool S O R α) : Decidable pool.Finished :=
  inferInstanceAs (Decidable (∀ p ∈ pool.threads, ∃ a, p = .done a))

/-- What every thread remembers when all are done. -/
theorem post_of_finished {q : G → Prop}
    (reaches : List.Forall₂ (P.Reaches fun _ g => q g) memory pool.threads)
    (finished : pool.Finished) : ∀ g ∈ memory, q g := by
  intro g member
  obtain ⟨i, hi, rfl⟩ := List.getElem_of_mem member
  have hi' : i < pool.threads.length := by rwa [← reaches.length_eq]
  obtain ⟨a, done⟩ := finished _ (List.getElem_mem hi')
  exact post_of_done reaches (List.getElem?_eq_getElem hi)
    (by rw [List.getElem?_eq_getElem hi', done])

end Ends

section Alone
variable (exec) in
/-- The execution as a specification that asks for a condition before each call. -/
def guarded (ok : C → S → O → Prop) : Program.OpSpec O R S :=
  fun op Q s => ∀ c, ok c s op ∧ Q (exec c s op).1 (exec c s op).2

theorem guarded_monotone (ok : C → S → O → Prop) : (guarded exec ok).Monotone :=
  fun _ _ _ _ weaker h c => ⟨(h c).1, weaker _ _ (h c).2⟩

/-- A program that makes only calls which meet the condition anywhere. -/
theorem guarded_of_only {ok : C → S → O → Prop} {A : O → Prop} {inv : S → Prop}
    {p : Program O R α} (only : p.Only A) (meets : ∀ c s op, A op → ok c s op)
    (keeps : ∀ c s op, A op → inv s → inv (exec c s op).2) {s : S} (holds : inv s) :
    p.wp (guarded exec ok) (fun _ s => inv s) s := by
  induction p generalizing s with
  | done a => exact holds
  | call op next ih =>
    exact fun c => ⟨meets c s op only.1, ih _ (only.2 _) (keeps c s op only.1 holds)⟩

/-- Every call of a program meets the condition when no other program gets a turn. -/
theorem eachCall_alone {ok : C → S → O → Prop} {Q : α → S → Prop} {p : Program O R α} {s : S}
    (each : p.wp (guarded exec ok) Q s) (schedule : List (Nat × C)) :
    EachCall exec ok schedule ⟨s, [p]⟩ := by
  induction schedule generalizing p s with
  | nil => trivial
  | cons turn rest ih =>
    obtain ⟨i, c⟩ := turn
    cases i with
    | zero =>
      cases p with
      | done a => exact ⟨trivial, ih each⟩
      | call op next => exact ⟨(each c).1, ih (each c).2⟩
    | succ i => exact ⟨trivial, ih each⟩

/-- The invariant rule for a program that runs alone. -/
theorem eval_invariant {ok : C → S → O → Prop} {inv : S → List G → Prop}
    (preserves : Preserves exec P (fun c s _ op => ok c s op) inv) {post Q : α → _ → Prop}
    {p : Program O R α} {s : S} {g : G} (holds : inv s [g]) (reaches : P.Reaches post g p)
    (each : p.wp (guarded exec ok) Q s) (choices : Nat → C) :
    Q (p.eval exec choices s).1 (p.eval exec choices s).2 ∧
      ∃ g', post (p.eval exec choices s).1 g' ∧ inv (p.eval exec choices s).2 [g'] := by
  induction p generalizing s g choices with
  | done a => exact ⟨each, g, reaches, holds⟩
  | call op next ih =>
    obtain ⟨now, later⟩ := each (choices 0)
    exact ih _ (preserves _ _ [g] 0 g op rfl holds reaches.1 now) (reaches.2 _) later _

end Alone

section Amid
variable {post : α → G → Prop} {i : Nat}

variable (exec P) in
/-- One thread among any others: each of its calls finds whatever state the others have left,
and is answered as the execution answers in that state. -/
def amid : Program.OpSpec O R G :=
  fun op Q g => ∀ c s, Q (exec c s op).1 (P.next g op (exec c s op).1)

theorem amid_monotone : (amid exec P).Monotone :=
  fun _ _ _ _ weaker h c s => weaker _ _ (h c s)

theorem advance_amid {memory : List G} {pool : Pool S O R α} {g : G} {p : Program O R α}
    (remembers : memory[i]? = some g) (about : pool.threads[i]? = some p)
    (holds : p.wp (amid exec P) post g) (turn : Nat × C) :
    ∃ g' p', (recallTurn exec P memory pool turn)[i]? = some g' ∧
      (pool.advance exec turn).threads[i]? = some p' ∧ p'.wp (amid exec P) post g' := by
  by_cases same : turn.1 = i
  · subst same
    obtain ⟨hm, -⟩ := List.getElem?_eq_some_iff.mp remembers
    obtain ⟨ht, -⟩ := List.getElem?_eq_some_iff.mp about
    cases p with
    | done a => exact ⟨g, .done a, by simp [recallTurn, about, remembers],
        by simp [advance, about], holds⟩
    | call op next =>
      refine ⟨_, _, ?_, ?_, holds turn.2 pool.state⟩
      · simp only [recallTurn, about, remembers, List.getElem?_set_self hm]
      · simp only [advance, about, List.getElem?_set_self ht]
  · refine ⟨g, p, ?_, ?_, holds⟩
    · rw [recallTurn]
      split
      · rwa [List.getElem?_set_ne same]
      · exact remembers
    · rw [advance]
      split
      · rwa [List.getElem?_set_ne same]
      · exact about

/-- What a thread ends with, whatever the others do and however they are scheduled. -/
theorem post_of_amid {memory : List G} {pool : Pool S O R α} {g g' : G} {p : Program O R α}
    {a : α} (remembers : memory[i]? = some g) (about : pool.threads[i]? = some p)
    (holds : p.wp (amid exec P) post g) (schedule : List (Nat × C))
    (done : (pool.run exec schedule).threads[i]? = some (.done a))
    (left : (recallAll exec P memory pool schedule)[i]? = some g') : post a g' := by
  induction schedule generalizing memory pool g p with
  | nil =>
    cases remembers.symm.trans left
    cases about.symm.trans done
    exact holds
  | cons turn rest ih =>
    obtain ⟨g₁, p₁, remembers₁, about₁, holds₁⟩ := advance_amid remembers about holds turn
    exact ih remembers₁ about₁ holds₁ done left

end Amid

/-- Threads that all start from the same memory. -/
theorem follow_replicate {g : G} {threads : List (Program O R α)}
    (each : ∀ p ∈ threads, P.Follows g p) (s : S) :
    Follow P (List.replicate threads.length g) ⟨s, threads⟩ := by
  refine List.forall₂_iff_get.mpr ⟨by simp, fun k _ hk => ?_⟩
  simpa using each _ (List.getElem_mem hk)

end Pool
end Effects
