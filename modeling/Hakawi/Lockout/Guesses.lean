import Hakawi.Lockout.Attempts
import Hakawi.Lockout.Tally
import Mathlib.Algebra.Order.BigOperators.Group.List
import Mathlib.Algebra.Order.Group.Int

/-!
# How many passwords are compared

Between the check of the lock and the count of a failed attempt lies the comparison, and attempts
that overlap are all let through before any of them is counted. Where no attempt is let through
beside as many that are counted or under way as the account may fail, the lock holds: at most so
many passwords are compared, and none while the account is locked.
-/

namespace Lockout
open Common Effects
open Auth (LoginDto AuthResponseDto AuthError Deployment LockoutStatus)

section Shares
variable (p : Attempt → Bool) {memory : List Attempt} {i : Nat} {attempt : Attempt}

def weight (attempt : Attempt) : Int := if p attempt then 1 else 0

/-- How many attempts are of a kind. -/
def share (memory : List Attempt) : Int := (memory.map (weight p)).sum

theorem share_set (remembers : memory[i]? = some attempt) (next : Attempt) :
    share p (memory.set i next) = share p memory - weight p attempt + weight p next :=
  Pool.sum_map_set (weight p) remembers next

theorem weight_nonneg (memory : List Attempt) : ∀ x ∈ memory.map (weight p), 0 ≤ x := by
  intro x member
  obtain ⟨attempt, -, rfl⟩ := List.mem_map.mp member
  rw [weight]
  split <;> decide

theorem share_nonneg (memory : List Attempt) : 0 ≤ share p memory :=
  List.sum_nonneg (weight_nonneg p memory)

variable {p} in
theorem share_pos (remembers : memory[i]? = some attempt) (is : p attempt = true) :
    0 < share p memory := by
  have member : weight p attempt ∈ memory.map (weight p) :=
    List.mem_map_of_mem (List.mem_of_getElem? remembers)
  have least := List.single_le_sum (weight_nonneg p memory) _ member
  rw [weight, if_pos is] at least
  exact least

end Shares

/-- Found unlocked, and neither the account nor the address has spoken against it. -/
def Attempt.isAdmitted (attempt : Attempt) : Bool :=
  attempt.phase = .admitted ∧ attempt.blocked = false

def Attempt.isIn (phase : Phase) (attempt : Attempt) : Bool := attempt.phase = phase

/-- The passwords of an account that were compared, the first ones left out. -/
def World.guesses (world : World) (since : Nat) (user : String) : List Comparison :=
  (world.compared.drop since).filter fun comparison => comparison.userId = user

def tally (user : String) (since : Nat) (world : World) (memory : List Attempt) : Tally where
  count := world.count user
  locked := world.isLocked user
  admitted := share Attempt.isAdmitted memory
  compared := share (Attempt.isIn .compared) memory
  reached := share (Attempt.isIn .reached) memory
  locking := share (Attempt.isIn .locked) memory
  guesses := (world.guesses since user).length

section Conditions
variable (config : LockoutConfig) (user : String)

/-- An attempt is let through only beside fewer than may fail, and what fails is counted. -/
def Fairly (choice : Choice) (world : World) (memory : List Attempt) : Call → Prop
  | .lockouts .check (.exists' (.userLock userId)) => userId = user → choice.outcome = .performed →
      (world.later choice.elapsed).isLocked user = false →
      (world.later choice.elapsed).count user + share Attempt.isAdmitted memory +
        share (Attempt.isIn .compared) memory < config.maxFailedAttempts
  | .lockouts .record (.incrWithTtl (.userAttempts userId) _) =>
    userId = user → choice.outcome = .performed
  | .compare userId valid => userId = user → valid = false
  | _ => True

/-- No counter goes while an attempt is about to lock the account, and no lock while the counter is
about to be removed. -/
structure Fair (choice : Choice) (world : World) (memory : List Attempt) (op : Call) : Prop where
  fairly : Fairly config user choice world memory op
  fills : 0 < share (Attempt.isIn .reached) memory →
    (world.later choice.elapsed).count user = world.count user
  holds : 0 < share (Attempt.isIn .locked) memory → world.isLocked user = true →
    (world.later choice.elapsed).isLocked user = true

/-- Neither the lock nor the counter expires. -/
structure Calm (choice : Choice) (world : World) : Prop where
  counts : (world.later choice.elapsed).count user = world.count user
  locks : (world.later choice.elapsed).isLocked user = world.isLocked user

end Conditions

section Refinement
variable {config : LockoutConfig} {user : String} {since : Nat} {choice : Choice} {world : World}
variable {memory : List Attempt} {i : Nat} {attempt : Attempt}

theorem tally_waits (written : Written world.lockouts) {op : Call}
    (fair : Fair config user choice world memory op) :
    (tally user since world memory).Waits ((world.later choice.elapsed).count user)
      ((world.later choice.elapsed).isLocked user) where
  natural := Int.natCast_nonneg _
  fewer := by
    have counter : ¬ (Key.userAttempts user).IsLock := not_false
    exact Int.ofNat_le.mpr (attemptsAt_later written counter choice.elapsed)
  fills present := congrArg Nat.cast (fair.fills present)
  unlocks := exists_earlier
  holds := fair.holds

/-- The phases in which an attempt has been compared and still has something to do. -/
def Phase.later : List Phase := [.compared, .entered, .reached, .locked]

/-- What an attempt remembers has changed, and nothing that counts. -/
structure Attempt.Fades (attempt next : Attempt) : Prop where
  admitted : next.isAdmitted = true → attempt.isAdmitted = true
  phases : ∀ phase ∈ Phase.later, (next.phase = phase ↔ attempt.phase = phase)

theorem Attempt.Fades.refl (attempt : Attempt) : attempt.Fades attempt :=
  ⟨id, fun _ _ => Iff.rfl⟩

theorem Attempt.Fades.entered {attempt next : Attempt} (fades : attempt.Fades next)
    (outside : attempt.phase ≠ .entered) : next.phase ≠ .entered :=
  fun entered => outside ((fades.phases .entered (by decide)).mp entered)

theorem Attempt.fades_blocked (attempt : Attempt) :
    attempt.Fades { attempt with blocked := true } where
  admitted is := by
    rw [isAdmitted, decide_eq_true_eq] at is
    cases is.2
  phases _ _ := Iff.rfl

theorem Attempt.fades_leave (attempt : Attempt) : attempt.Fades attempt.leave := by
  rw [leave]
  split
  · rename_i admitted
    refine ⟨fun is => ?_, fun phase member => ?_⟩
    · rw [isAdmitted, decide_eq_true_eq] at is
      cases is.1
    · dsimp only
      rw [admitted]
      constructor
      · rintro rfl
        exact absurd member (by decide)
      · rintro rfl
        exact absurd member (by decide)
  · exact Fades.refl attempt

theorem weight_of_fades {next : Attempt} (fades : attempt.Fades next) {phase : Phase}
    (member : phase ∈ Phase.later) :
    weight (Attempt.isIn phase) next = weight (Attempt.isIn phase) attempt := by
  simp only [weight, Attempt.isIn, decide_eq_true_eq, fades.phases phase member]

theorem tally_set (remembers : memory[i]? = some attempt) (next : Attempt) (world : World) :
    tally user since world (memory.set i next) = { tally user since world memory with
      admitted := share Attempt.isAdmitted memory - weight Attempt.isAdmitted attempt +
        weight Attempt.isAdmitted next
      compared := share (Attempt.isIn .compared) memory -
        weight (Attempt.isIn .compared) attempt + weight (Attempt.isIn .compared) next
      reached := share (Attempt.isIn .reached) memory -
        weight (Attempt.isIn .reached) attempt + weight (Attempt.isIn .reached) next
      locking := share (Attempt.isIn .locked) memory -
        weight (Attempt.isIn .locked) attempt + weight (Attempt.isIn .locked) next } := by
  simp only [tally, share_set _ remembers]

theorem tally_fades (remembers : memory[i]? = some attempt) {next : Attempt}
    (fades : attempt.Fades next) {max : Int} (world : World) :
    (tally user since world memory).Step max (tally user since world (memory.set i next)) := by
  have same {phase : Phase} (member : phase ∈ Phase.later) (n : Int) :
      n - weight (Attempt.isIn phase) attempt + weight (Attempt.isIn phase) next = n := by
    rw [weight_of_fades fades member]
    omega
  rw [tally_set remembers, same (by decide), same (by decide), same (by decide)]
  by_cases was : attempt.isAdmitted = true
  · by_cases is : next.isAdmitted = true
    · rw [weight, weight, if_pos was, if_pos is, sub_add_cancel]
      exact .idle
    · rw [weight, weight, if_pos was, if_neg is, add_zero]
      exact .leave (share_pos remembers was)
  · have not : ¬ next.isAdmitted = true := fun is => was (fades.admitted is)
    rw [weight, weight, if_neg was, if_neg not, sub_zero, add_zero]
    exact .idle

theorem tally_congr {before after : World} (clock : after.clock = before.clock)
    (counter : after.lockouts.entries (.userAttempts user) =
      before.lockouts.entries (.userAttempts user))
    (lock : after.lockouts.entries (.userLock user) = before.lockouts.entries (.userLock user))
    (compared : after.guesses since user = before.guesses since user) :
    tally user since after memory = tally user since before memory := by
  have count : after.count user = before.count user := by
    rw [World.count, World.count, clock]
    exact attemptsAt_congr counter
  have locked : after.isLocked user = before.isLocked user := by
    rw [World.isLocked, World.isLocked, clock]
    exact exists_congr lock
  rw [tally, tally, count, locked, compared]

/-- A command on another key. -/
theorem tally_other {purpose : Purpose} {command : Command Key}
    (other : command.key ≠ .userAttempts user) (other' : command.key ≠ .userLock user) :
    tally user since (exec choice world (.lockouts purpose command)).2 memory =
      tally user since (world.later choice.elapsed) memory := by
  rcases exec_lockouts_cases choice world purpose command with same | same
  · rw [same]
  · rw [same]
    exact tally_congr rfl (Valkey.exec_frame command other.symm)
      (Valkey.exec_frame command other'.symm) rfl

/-- A command that only reads. -/
theorem tally_reads {purpose : Purpose} {command : Command Key}
    (reads : ∀ (store : Valkey Key) now, (store.exec now command).2 = store) :
    (exec choice world (.lockouts purpose command)).2 = world.later choice.elapsed := by
  rcases exec_lockouts_cases choice world purpose command with same | same
  · exact same
  · rw [same, reads]
    rfl

/-- What one call does to the account, the time before it apart. -/
def Refines (config : LockoutConfig) (user : String) (since : Nat) (choice : Choice)
    (world : World) (memory : List Attempt) (i : Nat) (attempt : Attempt) (op : Call) : Prop :=
  (tally user since (world.later choice.elapsed) memory).Step config.maxFailedAttempts
    (tally user since (exec choice world op).2
      (memory.set i (attempt.next config user op (exec choice world op).1))) ∧
  (attempt.next config user op (exec choice world op).1).phase ≠ .entered

theorem refines_fades (remembers : memory[i]? = some attempt) (outside : attempt.phase ≠ .entered)
    {op : Call} (same : ∀ memory, tally user since (exec choice world op).2 memory =
      tally user since (world.later choice.elapsed) memory)
    (fades : attempt.Fades (attempt.next config user op (exec choice world op).1)) :
    Refines config user since choice world memory i attempt op := by
  refine ⟨?_, fades.entered outside⟩
  rw [same]
  exact tally_fades remembers fades _

variable (choice world) in
/-- What a command answers. -/
theorem exec_lockouts_answer (purpose : Purpose) (command : Command Key) :
    (exec choice world (.lockouts purpose command)).1 =
      if choice.outcome = .performed then
        (world.lockouts.exec (world.later choice.elapsed).clock command).1
      else .error disconnected := by
  rw [exec]
  cases choice.outcome <;> rfl

variable (choice world) in
theorem exec_lockouts_state (purpose : Purpose) (command : Command Key) :
    (exec choice world (.lockouts purpose command)).2 = { world.later choice.elapsed with
      lockouts := if choice.outcome = .refused then world.lockouts
        else (world.lockouts.exec (world.later choice.elapsed).clock command).2 } := by
  rw [exec]
  cases choice.outcome <;> rfl

/-- The check of the account's lock. -/
theorem refines_check_lock (remembers : memory[i]? = some attempt)
    (outside : attempt.phase = .outside)
    (fairly : Fairly config user choice world memory
      (.lockouts .check (.exists' (.userLock user)))) :
    Refines config user since choice world memory i attempt
      (.lockouts .check (.exists' (.userLock user))) := by
  have entered : attempt.phase ≠ .entered := by
    rw [outside]
    decide
  have reads : (exec choice world (.lockouts .check (.exists' (.userLock user)))).2 =
      world.later choice.elapsed := tally_reads fun _ _ => rfl
  have still : ∀ memory, tally user since
      (exec choice world (.lockouts .check (.exists' (.userLock user)))).2 memory =
        tally user since (world.later choice.elapsed) memory := fun memory => by rw [reads]
  have answer := exec_lockouts_answer choice world .check
    (.exists' (.userLock user))
  by_cases performed : choice.outcome = .performed
  · rw [if_pos performed] at answer
    change _ = Except.ok ((world.later choice.elapsed).isLocked user) at answer
    cases locked : (world.later choice.elapsed).isLocked user with
    | true =>
      rw [locked] at answer
      refine refines_fades remembers entered still ?_
      rw [answer]
      exact Attempt.Fades.refl attempt
    | false =>
      rw [locked] at answer
      have next : attempt.next config user (.lockouts .check (.exists' (.userLock user)))
          (exec choice world (.lockouts .check (.exists' (.userLock user)))).1 =
            { attempt with phase := .admitted } := by
        rw [answer]
        exact if_pos rfl
      refine ⟨?_, fun same => by rw [next] at same; cases same⟩
      rw [next, reads, tally_set remembers]
      have absent (phase : Phase) (member : phase ∈ Phase.later) :
          weight (Attempt.isIn phase) attempt = 0 ∧
            weight (Attempt.isIn phase) { attempt with phase := .admitted } = 0 := by
        simp only [weight, Attempt.isIn, decide_eq_true_eq, outside]
        revert member
        cases phase <;> decide
      have shares : weight Attempt.isAdmitted attempt = 0 := by
        simp [weight, Attempt.isAdmitted, outside]
      simp only [absent .compared (by decide), absent .reached (by decide),
        absent .locked (by decide), shares, sub_zero, add_zero]
      cases blocked : attempt.blocked with
      | true =>
        simp only [weight, Attempt.isAdmitted, Bool.true_eq_false, and_false, decide_false,
          Bool.false_eq_true, if_false, add_zero]
        exact .idle
      | false =>
        have room := fairly rfl performed locked
        simp only [weight, Attempt.isAdmitted, and_self, decide_true, if_true]
        exact .letIn locked room
  · rw [if_neg performed] at answer
    refine refines_fades remembers entered still ?_
    rw [answer]
    exact Attempt.Fades.refl attempt

/-- An attempt past its admission goes on to another phase. -/
theorem tally_move (remembers : memory[i]? = some attempt) {phase : Phase}
    (was : attempt.phase ≠ .admitted) (is : phase ≠ .admitted) (world : World) :
    tally user since world (memory.set i { attempt with phase }) =
      { tally user since world memory with
        compared := share (Attempt.isIn .compared) memory -
          (if attempt.phase = .compared then 1 else 0) + if phase = .compared then 1 else 0
        reached := share (Attempt.isIn .reached) memory -
          (if attempt.phase = .reached then 1 else 0) + if phase = .reached then 1 else 0
        locking := share (Attempt.isIn .locked) memory -
          (if attempt.phase = .locked then 1 else 0) + if phase = .locked then 1 else 0 } := by
  rw [tally_set remembers]
  simp [weight, Attempt.isIn, Attempt.isAdmitted, was, is, tally]

/-- The account's lock is looked at again before a wrong password is counted. -/
theorem refines_record_lock (remembers : memory[i]? = some attempt)
    (compared : attempt.phase = .compared) :
    Refines config user since choice world memory i attempt
      (.lockouts .record (.exists' (.userLock user))) := by
  have entered : attempt.phase ≠ .entered := by
    rw [compared]
    decide
  have reads : (exec choice world (.lockouts .record (.exists' (.userLock user)))).2 =
      world.later choice.elapsed := tally_reads fun _ _ => rfl
  have still : ∀ memory, tally user since
      (exec choice world (.lockouts .record (.exists' (.userLock user)))).2 memory =
        tally user since (world.later choice.elapsed) memory := fun memory => by rw [reads]
  have answer := exec_lockouts_answer choice world .record
    (.exists' (.userLock user))
  by_cases performed : choice.outcome = .performed
  · rw [if_pos performed] at answer
    change _ = Except.ok ((world.later choice.elapsed).isLocked user) at answer
    cases locked : (world.later choice.elapsed).isLocked user with
    | true =>
      rw [locked] at answer
      have next : attempt.next config user (.lockouts .record (.exists' (.userLock user)))
          (exec choice world (.lockouts .record (.exists' (.userLock user)))).1 =
            { attempt with phase := .finished } := by
        rw [answer]
        exact if_pos rfl
      refine ⟨?_, fun same => by rw [next] at same; cases same⟩
      have present : 0 < share (Attempt.isIn .compared) memory :=
        share_pos remembers (by simp [Attempt.isIn, compared])
      rw [next, reads, tally_move remembers (by rw [compared]; decide) (by decide), compared]
      simp only [if_true, reduceCtorEq, if_false, add_zero, sub_zero]
      exact .spare locked present
    | false =>
      rw [locked] at answer
      refine refines_fades remembers entered still ?_
      rw [answer]
      exact Attempt.Fades.refl attempt
  · rw [if_neg performed] at answer
    refine refines_fades remembers entered still ?_
    rw [answer]
    exact Attempt.Fades.refl attempt

/-- What is written under the account's keys is what there is of it afterwards. -/
theorem tally_put {before : World} {key : Key} {entry : Option (Entry Key)} {count : Nat}
    {locked : Bool} (counts : attemptsAt (before.lockouts.put key entry) before.clock
      (.userAttempts user) = count)
    (locks : (before.lockouts.put key entry).exists' before.clock (.userLock user) = locked) :
    tally user since { before with lockouts := before.lockouts.put key entry } memory =
      { tally user since before memory with count, locked } := by
  have count' : World.count { before with lockouts := before.lockouts.put key entry } user =
      count := counts
  have locked' : World.isLocked { before with lockouts := before.lockouts.put key entry } user =
      locked := locks
  simp only [tally, count', locked', World.guesses]

/-- The attempt is counted. -/
theorem refines_incr (remembers : memory[i]? = some attempt) (written : Written world.lockouts)
    (compared : attempt.phase = .compared) (performed : choice.outcome = .performed) (ttl : Int) :
    Refines config user since choice world memory i attempt
      (.lockouts .record (.incrWithTtl (.userAttempts user) ttl)) := by
  have entered : attempt.phase ≠ .entered := by
    rw [compared]
    decide
  have counter : ¬ (Key.userAttempts user).IsLock := not_false
  have answer := exec_lockouts_answer choice world .record
    (.incrWithTtl (.userAttempts user) ttl)
  have state := exec_lockouts_state choice world .record
    (.incrWithTtl (.userAttempts user) ttl)
  have carried : ¬ choice.outcome = .refused := by
    rw [performed]
    decide
  rw [if_pos performed] at answer
  rw [if_neg carried] at state
  rcases written.incr (world.later choice.elapsed).clock counter ttl with
    ⟨e, failed⟩ | ⟨time, fresh, done⟩
  · rw [failed] at answer state
    refine refines_fades remembers entered (fun memory => ?_) ?_
    · rw [state]
      rfl
    · rw [answer]
      exact Attempt.Fades.refl attempt
  · rw [done] at answer state
    let count := (world.later choice.elapsed).count user
    have next : attempt.next config user (.lockouts .record
        (.incrWithTtl (.userAttempts user) ttl)) (exec choice world
          (.lockouts .record (.incrWithTtl (.userAttempts user) ttl))).1 =
        { attempt with phase := Attempt.counted config ((count + 1 : Nat) : Int) } := by
      rw [answer]
      exact if_pos rfl
    have past : Attempt.counted config ((count + 1 : Nat) : Int) ≠ .admitted ∧
        Attempt.counted config ((count + 1 : Nat) : Int) ≠ .entered ∧
        Attempt.counted config ((count + 1 : Nat) : Int) ≠ .compared ∧
        Attempt.counted config ((count + 1 : Nat) : Int) ≠ .locked := by
      rw [Attempt.counted]
      split <;> decide
    refine ⟨?_, fun same => past.2.1 (by rw [next] at same; exact same)⟩
    have present : 0 < share (Attempt.isIn .compared) memory :=
      share_pos remembers (by simp [Attempt.isIn, compared])
    have different : Key.userLock user ≠ .userAttempts user := by simp
    have after (memory : List Attempt) : tally user since (exec choice world
        (.lockouts .record (.incrWithTtl (.userAttempts user) ttl))).2 memory =
        { tally user since (world.later choice.elapsed) memory with
          count := ((count + 1 : Nat) : Int)
          locked := (world.later choice.elapsed).isLocked user } := by
      rw [state]
      exact tally_put (attemptsAt_incr fresh) (exists_congr (Valkey.put_entries_ne different _))
    have full : Attempt.counted config ((count + 1 : Nat) : Int) = .reached ↔
        (config.maxFailedAttempts : Int) ≤ (count : Int) + 1 := by
      rw [Attempt.counted, Nat.cast_add, Nat.cast_one]
      split <;> simp_all
    rw [next, tally_move remembers (by rw [compared]; decide) past.1, after, compared]
    simp only [past, full, if_true, reduceCtorEq, if_false, add_zero, sub_zero]
    exact .count present

/-- The account is locked. -/
theorem refines_set (remembers : memory[i]? = some attempt) (reached : attempt.phase = .reached)
    (value : Text) (ttl : Option Int) :
    Refines config user since choice world memory i attempt
      (.lockouts .record (.set (.userLock user) value ttl)) := by
  let op : Call := .lockouts .record (.set (.userLock user) value ttl)
  have answer := exec_lockouts_answer choice world .record
    (.set (.userLock user) value ttl)
  have state := exec_lockouts_state choice world .record
    (.set (.userLock user) value ttl)
  have present : 0 < share (Attempt.isIn .reached) memory :=
    share_pos remembers (by simp [Attempt.isIn, reached])
  have past : attempt.phase ≠ .admitted := by
    rw [reached]
    decide
  have different : Key.userAttempts user ≠ .userLock user := by simp
  -- the command throws, and the account may be locked all the same
  have missed {e : Failure} (threw : (exec choice world op).1 = .error e) (locked : Bool)
      (kept : (world.later choice.elapsed).isLocked user = true → locked = true)
      (after : ∀ memory, tally user since (exec choice world op).2 memory =
        { tally user since (world.later choice.elapsed) memory with locked }) :
      Refines config user since choice world memory i attempt op := by
    have next : attempt.next config user op (exec choice world op).1 =
        { attempt with phase := .finished } := by
      rw [threw]
      exact if_pos rfl
    refine ⟨?_, fun same => by rw [next] at same; cases same⟩
    rw [next, tally_move remembers past (by decide), after, reached]
    simp only [if_true, reduceCtorEq, if_false, add_zero, sub_zero]
    exact .miss locked present kept
  rcases exec_set world.lockouts (world.later choice.elapsed).clock (.userLock user) value ttl with ⟨e, failed⟩ | ⟨time, fresh, done⟩
  · have after : (exec choice world op).2 = world.later choice.elapsed := by
      rw [state, failed, ite_self]
      rfl
    have threw : ∃ e, (exec choice world op).1 = .error e := by
      rw [answer, failed]
      split <;> exact ⟨_, rfl⟩
    obtain ⟨e, threw⟩ := threw
    exact missed threw ((world.later choice.elapsed).isLocked user) id fun memory => by
      rw [after]
      rfl
  · have after (carried : choice.outcome ≠ .refused) (memory : List Attempt) :
        tally user since (exec choice world op).2 memory =
          { tally user since (world.later choice.elapsed) memory with locked := true } := by
      rw [state, if_neg carried, done]
      exact tally_put (attemptsAt_congr (Valkey.put_entries_ne different _)) (exists_put fresh)
    cases outcome : choice.outcome with
    | performed =>
      rw [if_pos outcome, done] at answer
      have next : attempt.next config user op (exec choice world op).1 =
          { attempt with phase := .locked } := by
        rw [answer]
        exact if_pos rfl
      refine ⟨?_, fun same => by rw [next] at same; cases same⟩
      rw [next, tally_move remembers past (by decide), after (by rw [outcome]; decide), reached]
      simp only [if_true, reduceCtorEq, if_false, add_zero, sub_zero]
      exact .lock present
    | refused =>
      rw [outcome, if_neg (by decide)] at answer
      refine missed answer ((world.later choice.elapsed).isLocked user) id fun memory => ?_
      rw [state, if_pos outcome]
      rfl
    | lost =>
      rw [outcome, if_neg (by decide)] at answer
      exact missed answer true (fun _ => rfl) (after (by rw [outcome]; decide))

/-- The counter is removed. -/
theorem refines_del (remembers : memory[i]? = some attempt) (locked : attempt.phase = .locked) :
    Refines config user since choice world memory i attempt
      (.lockouts .record (.del (.userAttempts user))) := by
  have state := exec_lockouts_state choice world .record
    (.del (.userAttempts user))
  have present : 0 < share (Attempt.isIn .locked) memory :=
    share_pos remembers (by simp [Attempt.isIn, locked])
  have past : attempt.phase ≠ .admitted := by
    rw [locked]
    decide
  have different : Key.userLock user ≠ .userAttempts user := by simp
  have next : attempt.next config user (.lockouts .record (.del (.userAttempts user)))
      (exec choice world (.lockouts .record (.del (.userAttempts user)))).1 =
        { attempt with phase := .finished } := by
    cases (exec choice world (.lockouts .record (.del (.userAttempts user)))).1 <;>
      exact if_pos rfl
  refine ⟨?_, fun same => by rw [next] at same; cases same⟩
  rw [next, tally_move remembers past (by decide), locked]
  simp only [if_true, reduceCtorEq, if_false, add_zero, sub_zero]
  by_cases refused : choice.outcome = .refused
  · rw [if_pos refused] at state
    rw [state]
    exact .reset _ present (Or.inr rfl)
  · rw [if_neg refused] at state
    have after (memory : List Attempt) : tally user since (exec choice world
        (.lockouts .record (.del (.userAttempts user)))).2 memory =
        { tally user since (world.later choice.elapsed) memory with
          count := ((0 : Nat) : Int)
          locked := (world.later choice.elapsed).isLocked user } := by
      rw [state]
      exact tally_put attemptsAt_del (exists_congr (Valkey.put_entries_ne different _))
    rw [after]
    exact .reset 0 present (Or.inl rfl)

variable (choice) in
theorem guesses_compare (userId : String) (valid : Bool) (past : since ≤ world.compared.length)
    (user : String) :
    (exec choice world (.compare userId valid)).2.guesses since user =
      world.guesses since user ++ if userId = user then
        [⟨userId, valid, (world.later choice.elapsed).isLocked userId⟩] else [] := by
  change ((world.compared ++ [_]).drop since).filter _ = _
  rw [List.drop_append_of_le_length past, List.filter_append, World.guesses]
  congr 1
  by_cases same : userId = user
  · simp [same]
  · simp [same]

/-- A wrong password is compared. -/
theorem refines_compare (remembers : memory[i]? = some attempt)
    (admitted : attempt.phase = .admitted) (unblocked : attempt.blocked = false)
    (past : since ≤ world.compared.length) :
    Refines config user since choice world memory i attempt (.compare user false) := by
  have next : attempt.next config user (.compare user false)
      (exec choice world (.compare user false)).1 = { attempt with phase := .compared } :=
    if_pos rfl
  refine ⟨?_, fun same => by rw [next] at same; cases same⟩
  have present : 0 < share Attempt.isAdmitted memory :=
    share_pos remembers (by simp [Attempt.isAdmitted, admitted, unblocked])
  have after (memory : List Attempt) :
      tally user since (exec choice world (.compare user false)).2 memory =
        { tally user since (world.later choice.elapsed) memory with
          guesses := (tally user since (world.later choice.elapsed) memory).guesses + 1 } := by
    have grown := guesses_compare choice user false past user
    rw [if_pos rfl] at grown
    simp only [tally, grown, List.length_append, List.length_singleton, Nat.cast_add, Nat.cast_one]
    rfl
  rw [next, tally_set remembers, after]
  simp only [weight, Attempt.isAdmitted, Attempt.isIn, admitted, unblocked, and_self, decide_true,
    if_true, reduceCtorEq, false_and, decide_false, Bool.false_eq_true, if_false, add_zero,
    sub_zero]
  exact .compare present

theorem fades_check {command : Command Key} (answer : Except Failure command.Answer)
    (other : command ≠ .exists' (.userLock user)) :
    attempt.Fades (attempt.check user command answer) := by
  rw [Attempt.check.eq_def]
  split
  · split
    · rename_i same
      exact absurd (by rw [same]) other
    · exact Attempt.Fades.refl attempt
  · split
    · exact attempt.fades_leave
    · exact Attempt.Fades.refl attempt
  · exact Attempt.Fades.refl attempt
  · exact attempt.fades_blocked
  · exact attempt.fades_blocked
  · exact Attempt.Fades.refl attempt

theorem refines_check {command : Command Key} (remembers : memory[i]? = some attempt)
    (outside : attempt.phase ≠ .entered) (allowed : attempt.allowed user (.lockouts .check command))
    (fairly : Fairly config user choice world memory (.lockouts .check command)) :
    Refines config user since choice world memory i attempt (.lockouts .check command) := by
  by_cases lock : command = .exists' (.userLock user)
  · subst lock
    exact refines_check_lock remembers (allowed rfl) fairly
  · refine refines_fades remembers outside (fun memory => ?_) (fades_check _ lock)
    have reads (only : ∀ (store : Valkey Key) now, (store.exec now command).2 = store) :
        tally user since (exec choice world (.lockouts .check command)).2 memory =
          tally user since (world.later choice.elapsed) memory := by rw [tally_reads only]
    cases command with
    | get | exists' | ttl | smembers => exact reads fun _ _ => rfl
    | set | del | sadd | srem | expire | incr | incrWithTtl =>
      exact tally_other allowed.1 allowed.2

theorem refines_record {command : Command Key} (remembers : memory[i]? = some attempt)
    (written : Written world.lockouts) (outside : attempt.phase ≠ .entered)
    (allowed : attempt.allowed user (.lockouts .record command))
    (fairly : Fairly config user choice world memory (.lockouts .record command)) :
    Refines config user since choice world memory i attempt (.lockouts .record command) := by
  have reads (only : ∀ (store : Valkey Key) now, (store.exec now command).2 = store)
      (same : ∀ answer, attempt.record config user command answer = attempt) :
      Refines config user since choice world memory i attempt (.lockouts .record command) := by
    refine refines_fades remembers outside (fun memory => by rw [tally_reads only]) ?_
    change attempt.Fades (attempt.record config user command _)
    rw [same]
    exact Attempt.Fades.refl attempt
  by_cases counter : command.key = .userAttempts user
  · cases command with
    | get | ttl => exact reads (fun _ _ => rfl) fun _ => rfl
    | incrWithTtl key ttl =>
      cases counter
      exact refines_incr remembers written (allowed rfl) (fairly rfl) ttl
    | del key =>
      cases counter
      exact refines_del remembers (allowed rfl)
    | exists' key | set key | smembers | sadd | srem | expire | incr =>
      cases counter
      exact absurd rfl allowed.1
  · by_cases lock : command.key = .userLock user
    · cases command with
      | get | ttl => exact reads (fun _ _ => rfl) fun _ => rfl
      | exists' key =>
        cases lock
        exact refines_record_lock remembers (allowed rfl)
      | set key value ttl =>
        cases lock
        exact refines_set remembers (allowed rfl) value ttl
      | incrWithTtl | del | smembers | sadd | srem | expire | incr =>
        cases lock
        exact absurd rfl allowed.2
    · refine refines_fades remembers outside (fun memory => tally_other counter lock) ?_
      change attempt.Fades (attempt.record config user command _)
      rw [record_of_ne counter lock]
      exact Attempt.Fades.refl attempt

variable (since) in
/-- Every call that a login makes is a step of the tally. -/
theorem refines {op : Call} (remembers : memory[i]? = some attempt)
    (written : Written world.lockouts) (past : since ≤ world.compared.length)
    (outside : attempt.phase ≠ .entered) (allowed : attempt.allowed user op)
    (fairly : Fairly config user choice world memory op) :
    Refines config user since choice world memory i attempt op := by
  cases op with
  | auth call =>
    refine refines_fades remembers outside (fun memory => ?_) ?_
    · exact tally_congr (exec_clock _) rfl rfl rfl
    · cases call with
      | verifyCaptcha token ip =>
        cases (exec choice world (.auth (.verifyCaptcha token ip))).1 with
        | error e => exact attempt.fades_leave
        | ok success =>
          cases success with
          | true => exact Attempt.Fades.refl attempt
          | false => exact attempt.fades_leave
      | _ => exact Attempt.Fades.refl attempt
  | lockouts purpose command =>
    cases purpose with
    | check => exact refines_check remembers outside allowed fairly
    | record => exact refines_record remembers written outside allowed fairly
    | clear =>
      refine refines_fades remembers outside (fun memory => tally_other ?_ ?_)
        (Attempt.Fades.refl attempt)
      · exact fun same => outside (allowed (Or.inl same))
      · exact fun same => outside (allowed (Or.inr same))
  | compare userId valid =>
    by_cases same : userId = user
    · subst same
      cases fairly rfl
      exact refines_compare remembers (allowed rfl).1 (allowed rfl).2 past
    · refine refines_fades remembers outside (fun memory => ?_) ?_
      · refine tally_congr rfl rfl rfl ?_
        rw [guesses_compare choice userId valid past, if_neg same, List.append_nil]
        rfl
      · change attempt.Fades (if _ then _ else _)
        rw [if_neg same]
        exact Attempt.Fades.refl attempt
  | turn =>
    exact refines_fades remembers outside (fun memory => rfl) (Attempt.Fades.refl attempt)

end Refinement

section Runs
variable {config : LockoutConfig} {user : String} {since : Nat}

/-- What holds at any moment of a run in which every call is fair. -/
structure Holds (config : LockoutConfig) (user : String) (since : Nat) (world : World)
    (memory : List Attempt) : Prop where
  written : Written world.lockouts
  past : since ≤ world.compared.length
  sound : (tally user since world memory).Sound config.maxFailedAttempts
  outside : ∀ attempt ∈ memory, attempt.phase ≠ .entered

/-- And what holds as long as neither the lock nor the counter expires. -/
structure Kept (config : LockoutConfig) (user : String) (since : Nat) (world : World)
    (memory : List Attempt) : Prop where
  holds : Holds config user since world memory
  within : (tally user since world memory).Within config.maxFailedAttempts
  unlocked : ∀ comparison ∈ world.guesses since user, comparison.locked = false

variable {choice : Choice} {world : World} {memory : List Attempt} {i : Nat} {attempt : Attempt}
variable {op : Call}

variable (choice world op) in
theorem compared_grows : ∃ more, (exec choice world op).2.compared = world.compared ++ more := by
  cases op with
  | compare userId valid => exact ⟨_, rfl⟩
  | auth | turn => exact ⟨[], (List.append_nil _).symm⟩
  | lockouts purpose command =>
    rw [exec_lockouts_state choice world]
    exact ⟨[], (List.append_nil _).symm⟩

theorem Holds.exec (holds : Holds config user since world memory)
    (remembers : memory[i]? = some attempt) (allowed : (tries config user).allowed attempt op)
    (fair : Fair config user choice world memory op) :
    Holds config user since (exec choice world op).2
      (memory.set i ((tries config user).next attempt op (exec choice world op).1)) := by
  have outside : attempt.phase ≠ .entered := holds.outside _ (List.mem_of_getElem? remembers)
  obtain ⟨step, past⟩ := refines since remembers holds.written holds.past outside
    allowed.1 fair.fairly
  refine ⟨written_exec holds.written allowed.2, ?_, ?_, Pool.forall_mem_set holds.outside past⟩
  · obtain ⟨more, grown⟩ := compared_grows choice world op
    rw [grown, List.length_append]
    exact Nat.le_add_right_of_le holds.past
  · exact (holds.sound.waits (tally_waits holds.written fair)).step step

/-- Passwords are compared of an account that was let through. -/
theorem guesses_exec (allowed : attempt.allowed user op) (past : since ≤ world.compared.length) :
    (exec choice world op).2.guesses since user = world.guesses since user ∨
      attempt.isAdmitted = true ∧ ∃ valid, (exec choice world op).2.guesses since user =
        world.guesses since user ++
          [⟨user, valid, (world.later choice.elapsed).isLocked user⟩] := by
  cases op with
  | auth | turn => exact Or.inl rfl
  | lockouts purpose command =>
    rw [exec_lockouts_state choice world]
    exact Or.inl rfl
  | compare userId valid =>
    by_cases same : userId = user
    · subst same
      refine Or.inr ⟨by simpa [Attempt.isAdmitted] using allowed rfl, valid, ?_⟩
      rw [guesses_compare choice userId valid past, if_pos rfl]
    · left
      rw [guesses_compare choice userId valid past, if_neg same, List.append_nil]

theorem Kept.exec (kept : Kept config user since world memory)
    (remembers : memory[i]? = some attempt) (allowed : (tries config user).allowed attempt op)
    (fair : Fair config user choice world memory op) (calm : Calm user choice world) :
    Kept config user since (exec choice world op).2
      (memory.set i ((tries config user).next attempt op (exec choice world op).1)) := by
  have holds := kept.holds
  have outside : attempt.phase ≠ .entered := holds.outside _ (List.mem_of_getElem? remembers)
  have step := (refines since remembers holds.written holds.past outside allowed.1
    fair.fairly).1
  have sound := holds.sound.waits (tally_waits holds.written fair)
  refine ⟨holds.exec remembers allowed fair, ?_, ?_⟩
  · have same : tally user since (world.later choice.elapsed) memory =
        tally user since world memory := by
      rw [tally, tally, calm.counts, calm.locks]
      rfl
    exact Tally.Within.step sound (same ▸ kept.within) step
  · rcases guesses_exec allowed.1 holds.past with same | ⟨admitted, valid, grown⟩
    · rw [same]
      exact kept.unlocked
    · rw [grown]
      intro comparison member
      rcases List.mem_append.mp member with before | new
      · exact kept.unlocked comparison before
      · rw [List.mem_singleton.mp new]
        dsimp only
        by_contra locked
        have none := (sound.closed (by simpa using locked)).1
        have some := share_pos remembers admitted
        exact absurd (none ▸ some : (0 : Int) < 0) (by decide)

variable {pool : Pool World Call Call.Answer (Except AuthError AuthResponseDto)}
variable {schedule : List (Nat × Choice)}

theorem holds_run (holds : Holds config user since pool.state memory)
    (follow : Pool.Follow (tries config user) memory pool)
    (fair : Pool.Orderly Lockout.exec (tries config user)
      (fun choice world memory _ op => Fair config user choice world memory op) (fun _ => True)
      schedule memory pool) :
    Holds config user since (pool.run Lockout.exec schedule).state
      (Pool.recallAll Lockout.exec (tries config user) memory pool schedule) :=
  Pool.orderly_invariant (fun _ _ _ _ _ _ remembers holds _ _ allowed fair =>
    Holds.exec holds remembers allowed fair) holds follow fair

theorem kept_run (kept : Kept config user since pool.state memory)
    (follow : Pool.Follow (tries config user) memory pool)
    (fair : Pool.Orderly Lockout.exec (tries config user) (fun choice world memory _ op =>
      Fair config user choice world memory op ∧ Calm user choice world) (fun _ => True)
      schedule memory pool) :
    Kept config user since (pool.run Lockout.exec schedule).state
      (Pool.recallAll Lockout.exec (tries config user) memory pool schedule) :=
  Pool.orderly_invariant (fun _ _ _ _ _ _ remembers kept _ _ allowed fair =>
    Kept.exec kept remembers allowed fair.1 fair.2) kept follow fair

end Runs

section Logins
variable {config : LockoutConfig} {user : String} {world : World}

theorem share_begun (p : Attempt → Bool) (none : p .begun = false) (n : Nat) :
    share p (List.replicate n .begun) = 0 := by
  simp [share, weight, none]

theorem holds_begun (written : Written world.lockouts)
    (few : world.count user ≤ config.maxFailedAttempts) (n : Nat) :
    Holds config user 0 world (List.replicate n .begun) := by
  refine ⟨written, Nat.zero_le _, ?_, fun attempt member same => ?_⟩
  · have none (p : Attempt → Bool) (is : p .begun = false) :
        share p (List.replicate n .begun) = 0 := share_begun p is n
    refine ⟨⟨Int.natCast_nonneg _, share_nonneg _ _, share_nonneg _ _⟩, ?_, ?_, ?_, ?_, ?_⟩
    all_goals simp only [tally, none Attempt.isAdmitted (by decide),
      none (Attempt.isIn .compared) (by decide), none (Attempt.isIn .reached) (by decide),
      none (Attempt.isIn .locked) (by decide)]
    · omega
    · omega
    · exact fun never => absurd never (by decide)
    · exact fun _ => ⟨trivial, trivial, le_rfl⟩
    · exact fun never => absurd never (by decide)
  · rw [List.eq_of_mem_replicate member] at same
    cases same

theorem Holds.again {before : Nat} {memory : List Attempt}
    (holds : Holds config user before world memory) :
    Kept config user world.compared.length world memory := by
  have none : world.guesses world.compared.length user = [] := by
    rw [World.guesses, List.drop_length, List.filter_nil]
  obtain ⟨written, -, ⟨natural, bounded, single, full, closed, locking⟩, outside⟩ := holds
  refine ⟨⟨written, le_rfl, ⟨natural, bounded, single, full, closed, locking⟩, outside⟩, ?_, ?_⟩
  · rw [Tally.Within]
    simp only [tally, none, List.length_nil, Nat.cast_zero]
    split
    · exact Int.natCast_nonneg _
    · exact Int.add_nonneg natural.1 natural.2.2
  · rw [none]
    exact fun comparison never => by cases never

theorem Kept.few {since : Nat} {memory : List Attempt}
    (kept : Kept config user since world memory) :
    (world.guesses since user).length ≤ config.maxFailedAttempts := by
  have within := kept.within
  have bounded := kept.holds.sound.bounded
  have natural := kept.holds.sound.natural.2.1
  rw [Tally.Within] at within
  have least : ((world.guesses since user).length : Int) ≤ config.maxFailedAttempts := by
    change (tally user since world memory).guesses ≤ _
    split at within <;> omega
  exact Int.ofNat_le.mp least

/-- Of any number of logins, interleaved in any way: where no attempt is let through beside as many
as the account may fail, counted or under way, and nothing that is counted is lost, then in any
stretch in which neither the lock nor the counter of the account expires at most so many passwords
of it are compared, and none while it is locked. -/
theorem guesses_bounded (d : Deployment) {start : World} (written : Written start.lockouts)
    (few : start.count user ≤ config.maxFailedAttempts) (logins : List (LoginDto × String))
    (early stretch : List (Nat × Choice))
    (fair : Pool.Orderly exec (tries config user)
      (fun choice world memory _ op => Fair config user choice world memory op) (fun _ => True)
      early (List.replicate logins.length .begun) (pool d config start logins))
    (calm : Pool.Orderly exec (tries config user) (fun choice world memory _ op =>
        Fair config user choice world memory op ∧ Calm user choice world) (fun _ => True)
      stretch (Pool.recallAll exec (tries config user) (List.replicate logins.length .begun)
        (pool d config start logins) early) ((pool d config start logins).run exec early)) :
    let before := ((pool d config start logins).run exec early).state
    let after := (((pool d config start logins).run exec early).run exec stretch).state
    (after.guesses before.compared.length user).length ≤ config.maxFailedAttempts ∧
      ∀ comparison ∈ after.guesses before.compared.length user, comparison.locked = false := by
  have follow := follow_pool config user d start logins
  have holds := holds_run (holds_begun written few logins.length) follow fair
  have kept := kept_run holds.again (Pool.follow_run follow early) calm
  exact ⟨kept.few, kept.unlocked⟩

end Logins

section Examples
variable (config : LockoutConfig) (user : String) (choice : Choice) (world : World)

instance (memory : List Attempt) (op : Call) :
    Decidable (Fairly config user choice world memory op) := by
  unfold Fairly
  split <;> infer_instance

instance (memory : List Attempt) (op : Call) :
    Decidable (Fair config user choice world memory op) :=
  decidable_of_iff (_ ∧ _ ∧ _)
    ⟨fun all => ⟨all.1, all.2.1, all.2.2⟩, fun fair => ⟨fair.fairly, fair.fills, fair.holds⟩⟩

instance : Decidable (Calm user choice world) :=
  decidable_of_iff (_ ∧ _) ⟨fun both => ⟨both.1, both.2⟩, fun calm => ⟨calm.counts, calm.locks⟩⟩

/-- A reader who was never mistaken. -/
def World.untried : World := ⟨Auth.signedIn, .empty, []⟩

/-- Wrong passwords for the reader, each from an address of its own. -/
def guess (ip : String) : LoginDto × String := (⟨"reader@hakawi", "guessed", none⟩, ip)

def turns (thread n : Nat) : List (Nat × Choice) := List.replicate n (thread, {})

/-- Where one failure locks the account, the second login finds it locked. -/
theorem guesses_bounded_apart :
    let before := ((pool .plain { maxFailedAttempts := 1 } .untried
      [guess "1.1.1.1", guess "2.2.2.2"]).run exec (turns 0 5)).state
    let after := (((pool .plain { maxFailedAttempts := 1 } .untried
      [guess "1.1.1.1", guess "2.2.2.2"]).run exec (turns 0 5)).run exec
        (turns 0 25 ++ turns 1 25)).state
    (after.guesses before.compared.length "reader").length ≤ 1 ∧
      ∀ comparison ∈ after.guesses before.compared.length "reader", comparison.locked = false :=
  guesses_bounded .plain written_empty (by decide) [guess "1.1.1.1", guess "2.2.2.2"]
    (turns 0 5) (turns 0 25 ++ turns 1 25) (by decide) (by decide)

/-- Six logins find the account unlocked, five of them fail and lock it, and the sixth goes on. -/
def overlapping : List (Nat × Choice) :=
  (List.range 6).flatMap (fun thread => turns thread 9) ++
    (List.range 6).flatMap fun thread => turns thread 20

def six : List (LoginDto × String) :=
  [guess "1.1.1.1", guess "2.2.2.2", guess "3.3.3.3", guess "4.4.4.4", guess "5.5.5.5",
    guess "6.6.6.6"]

/-- With five failures to a lock, six passwords are compared in less than a second, the last of
them while the account is locked. -/
theorem guesses_overlap :
    let after := ((pool .plain {} .untried six).run exec overlapping).state
    Pool.EachCall exec (fun choice world _ => Calm "reader" choice world) overlapping
      (pool .plain {} .untried six) ∧ after.clock < 1000 ∧
    (after.guesses 0 "reader").length = 6 ∧
    (after.guesses 0 "reader").getLast? = some ⟨"reader", false, true⟩ := by
  decide +kernel

end Examples
end Lockout
