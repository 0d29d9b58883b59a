import Hakawi.Auth.Footprint
import Hakawi.Lockout.Service

/-!
# Counters and locks

What the commands of the lockout do to a counter and to a lock, and what time does to them.
-/

namespace Lockout
open Common Effects

section Store
variable {store store' : Valkey Key} {now : Int} {key : Key}

/-- The failed attempts that a check would find. -/
def attemptsAt (store : Valkey Key) (now : Int) (key : Key) : Nat :=
  match store.get now key with
  | .ok found => AccountLockoutService.attemptsOf found
  | .error _ => 0

/-- A counter holds what was counted there. -/
def Written (store : Valkey Key) : Prop :=
  ∀ key, ¬ key.IsLock → ∀ entry, store.entries key = some entry →
    ∃ n : Nat, entry.content = .text (.integer n)

theorem written_empty : Written .empty := fun _ _ _ never => by cases never

theorem live_congr (same : store'.entries key = store.entries key) :
    store'.live now key = store.live now key := by
  rw [Valkey.live, Valkey.live, same]

theorem attemptsAt_congr (same : store'.entries key = store.entries key) :
    attemptsAt store' now key = attemptsAt store now key := by
  rw [attemptsAt, attemptsAt, Valkey.get, Valkey.get, live_congr same]

theorem exists_congr (same : store'.entries key = store.entries key) :
    store'.exists' now key = store.exists' now key := by
  rw [Valkey.exists', Valkey.exists', live_congr same]

theorem attemptsAt_of_live {n : Nat} {time : Option Int}
    (found : store.live now key = some ⟨.text (.integer n), time⟩) :
    attemptsAt store now key = n := by
  rw [attemptsAt, Valkey.get, found]
  rfl

theorem attemptsAt_of_not_live (absent : store.live now key = none) :
    attemptsAt store now key = 0 := by
  rw [attemptsAt, Valkey.get, absent]
  rfl

theorem Written.live (written : Written store) (counter : ¬ key.IsLock) {entry : Entry Key}
    (found : store.live now key = some entry) :
    ∃ (n : Nat) (time : Option Int), entry = ⟨.text (.integer n), time⟩ := by
  obtain ⟨n, content⟩ := written key counter entry (Valkey.live_eq_some.mp found).1
  obtain ⟨content', time⟩ := entry
  exact ⟨n, time, by rw [← content]⟩

variable (now) in
theorem Written.get (written : Written store) (counter : ¬ key.IsLock) :
    ∃ found, store.get now key = .ok found ∧
      AccountLockoutService.attemptsOf found = attemptsAt store now key := by
  cases alive : store.live now key with
  | none =>
    have read : store.get now key = .ok none := by rw [Valkey.get, alive]
    exact ⟨none, read, by rw [attemptsAt, read]⟩
  | some entry =>
    obtain ⟨n, time, rfl⟩ := written.live counter alive
    have read : store.get now key = .ok (some (.integer n)) := by rw [Valkey.get, alive]
    exact ⟨_, read, by rw [attemptsAt, read]⟩

/-- What is found later was there before. -/
theorem live_earlier {entry : Entry Key} {elapsed : Nat}
    (found : store.live (now + elapsed) key = some entry) : store.live now key = some entry := by
  obtain ⟨present, unexpired⟩ := Valkey.live_eq_some.mp found
  refine Valkey.live_eq_some.mpr ⟨present, fun time limit => ?_⟩
  have := unexpired time limit
  omega

theorem exists_earlier {elapsed : Nat} (found : store.exists' (now + elapsed) key = true) :
    store.exists' now key = true := by
  obtain ⟨entry, alive⟩ := Option.isSome_iff_exists.mp found
  exact Option.isSome_iff_exists.mpr ⟨entry, live_earlier alive⟩

/-- A counter does not grow by itself. -/
theorem attemptsAt_later (written : Written store) (counter : ¬ key.IsLock) (elapsed : Nat) :
    attemptsAt store (now + elapsed) key ≤ attemptsAt store now key := by
  cases alive : store.live (now + elapsed) key with
  | none =>
    rw [attemptsAt_of_not_live alive]
    exact Nat.zero_le _
  | some entry =>
    obtain ⟨n, time, rfl⟩ := written.live counter alive
    rw [attemptsAt_of_live alive, attemptsAt_of_live (live_earlier alive)]

theorem attemptsAt_del : attemptsAt (store.del key) now key = 0 := by
  refine attemptsAt_of_not_live ?_
  rw [Valkey.live, Valkey.del, Valkey.put_entries_self]
  rfl

theorem live_put {entry : Entry Key} (unexpired : ∀ time ∈ entry.expiresAt, now < time) :
    (store.put key (some entry)).live now key = some entry :=
  Valkey.live_eq_some.mpr ⟨Valkey.put_entries_self _, unexpired⟩

variable (now) in
theorem Written.incr_counts (written : Written store) (counter : ¬ key.IsLock) (ttlSeconds : Int)
    (positive : 0 < ttlSeconds) : ∃ time, (∀ limit ∈ time, now < limit) ∧
      store.exec now (.incrWithTtl key ttlSeconds) =
        (.ok ((attemptsAt store now key + 1 : Nat) : Int), store.put key
          (some ⟨.text (.integer ((attemptsAt store now key + 1 : Nat) : Int)), time⟩)) := by
  have enough : ¬ ttlSeconds ≤ 0 := by omega
  cases alive : store.live now key with
  | none =>
    have unexpired : ∀ limit ∈ some (now + ttlSeconds * 1000), now < limit := by
      intro limit same
      cases same
      omega
    refine ⟨some (now + ttlSeconds * 1000), unexpired, ?_⟩
    have begun : (store.put key (some ⟨.text (.integer 0),
        some (now + ttlSeconds * 1000)⟩)).live now key =
        some ⟨.text (.integer 0), some (now + ttlSeconds * 1000)⟩ :=
      Valkey.live_eq_some.mpr ⟨Valkey.put_entries_self _, unexpired⟩
    rw [attemptsAt_of_not_live alive]
    simp only [Valkey.exec, Valkey.counted, Valkey.incrWithTtl, enough, alive, Valkey.incr, begun,
      Valkey.put_put, if_false]
    rfl
  | some entry =>
    obtain ⟨n, time, rfl⟩ := written.live counter alive
    refine ⟨time, (Valkey.live_eq_some.mp alive).2, ?_⟩
    rw [attemptsAt_of_live alive]
    simp only [Valkey.exec, Valkey.counted, Valkey.incrWithTtl, enough, alive, Valkey.incr,
      if_false, Int.natCast_add, Int.natCast_one]
    rfl

variable (now) in
/-- Counting up, unless the command throws. -/
theorem Written.incr (written : Written store) (counter : ¬ key.IsLock) (ttlSeconds : Int) :
    (∃ e, store.exec now (.incrWithTtl key ttlSeconds) = (.error e, store)) ∨
    ∃ time, (∀ limit ∈ time, now < limit) ∧
      store.exec now (.incrWithTtl key ttlSeconds) =
        (.ok ((attemptsAt store now key + 1 : Nat) : Int), store.put key
          (some ⟨.text (.integer ((attemptsAt store now key + 1 : Nat) : Int)), time⟩)) := by
  by_cases positive : 0 < ttlSeconds
  · exact Or.inr (written.incr_counts now counter ttlSeconds positive)
  · left
    rw [Valkey.exec, Valkey.incrWithTtl, if_pos (by omega)]
    exact ⟨_, rfl⟩

theorem attemptsAt_incr {n : Nat} {time : Option Int} (unexpired : ∀ limit ∈ time, now < limit) :
    attemptsAt (store.put key (some ⟨.text (.integer n), time⟩)) now key = n :=
  attemptsAt_of_live (live_put unexpired)

variable (store now key) in
/-- A lock is set, unless the command throws. -/
theorem exec_set (value : Text) (ttl : Option Int) :
    (∃ e, store.exec now (.set key value ttl) = (.error e, store)) ∨
    ∃ time, (∀ limit ∈ time, now < limit) ∧ store.exec now (.set key value ttl) =
      (.ok (), store.put key (some ⟨.text value, time⟩)) := by
  cases ttl with
  | none =>
    refine Or.inr ⟨none, ?_, rfl⟩
    intro limit never
    cases never
  | some seconds =>
    rw [Valkey.exec, Valkey.set]
    split
    · refine Or.inr ⟨none, ?_, rfl⟩
      intro limit never
      cases never
    · split
      · exact Or.inl ⟨_, rfl⟩
      · refine Or.inr ⟨_, ?_, rfl⟩
        intro limit same
        cases same
        omega

theorem exec_set_done (value : Text) {ttlSeconds : Int} (proper : 0 ≤ ttlSeconds) :
    (store.exec now (.set key value (some ttlSeconds))).1 = .ok () := by
  rw [Valkey.exec, Valkey.set]
  split
  · rfl
  · rw [if_neg (by omega)]
    rfl

theorem exists_put {entry : Entry Key} (unexpired : ∀ time ∈ entry.expiresAt, now < time) :
    (store.put key (some entry)).exists' now key = true := by
  rw [Valkey.exists', live_put unexpired]
  rfl

theorem Written.put (written : Written store) {entry : Option (Entry Key)}
    (kept : ¬ key.IsLock → ∀ found ∈ entry, ∃ n : Nat, found.content = .text (.integer n)) :
    Written (store.put key entry) := by
  intro other counter found present
  by_cases same : other = key
  · subst same
    rw [Valkey.put_entries_self] at present
    exact kept counter found present
  · rw [Valkey.put_entries_ne same] at present
    exact written other counter found present

/-- Counters stay counters. -/
theorem Written.exec (written : Written store) {command : Command Key} (sends : Sends command) :
    Written (store.exec now command).2 := by
  cases command with
  | get | exists' | ttl => exact written
  | smembers | sadd | srem | expire | incr => exact sends.elim
  | del key =>
    refine written.put fun _ found never => ?_
    cases never
  | set key value ttl =>
    rcases exec_set store now key value ttl with ⟨e, failed⟩ | ⟨time, -, done⟩
    · rw [failed]
      exact written
    · rw [done]
      exact written.put fun counter => absurd sends.1 counter
  | incrWithTtl key ttlSeconds =>
    rcases written.incr now sends ttlSeconds with ⟨e, failed⟩ | ⟨time, -, done⟩
    · rw [failed]
      exact written
    · rw [done]
      refine written.put fun _ found same => ?_
      cases same
      exact ⟨_, rfl⟩

end Store

namespace World

/-- The failed attempts on an account that a check would find. -/
def count (world : World) (user : String) : Nat :=
  attemptsAt world.lockouts world.clock (.userAttempts user)

end World

section Calls
variable {choice : Choice} {world : World}

theorem exec_clock (op : Call) : (exec choice world op).2.clock = world.clock + choice.elapsed := by
  cases op with
  | auth call => exact Auth.exec_clock call
  | lockouts purpose command =>
    rw [exec]
    cases choice.outcome <;> rfl
  | compare | turn => rfl

variable (choice world) in
theorem exec_lockouts_cases (purpose : Purpose) (command : Command Key) :
    (exec choice world (.lockouts purpose command)).2 = world.later choice.elapsed ∨
      (exec choice world (.lockouts purpose command)).2 = { world.later choice.elapsed with
        lockouts := (world.lockouts.exec (world.later choice.elapsed).clock command).2 } := by
  rw [exec]
  cases choice.outcome with
  | performed | lost => exact Or.inr rfl
  | refused => exact Or.inl rfl

theorem written_exec (written : Written world.lockouts) {op : Call} (tries : op.Tries) :
    Written (exec choice world op).2.lockouts := by
  cases op with
  | lockouts purpose command =>
    rcases exec_lockouts_cases choice world purpose command with same | same
    · rw [same]
      exact written
    · rw [same]
      exact written.exec tries
  | auth | compare | turn => exact written

end Calls
end Lockout
