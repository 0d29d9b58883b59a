import Hakawi.Lockout.Guesses

/-!
# How long a lock lasts

A lock and a counter are written with a time to live. A time to live of zero would be none.
-/

namespace Lockout
open Common Effects
open Auth (LoginDto Deployment)

/-- How long a key is kept, in milliseconds. -/
def LockoutConfig.span (config : LockoutConfig) : Key → Int
  | .userLock _ | .ipLock _ => config.lockoutDurationMinutes * 60 * 1000
  | .userAttempts _ | .ipAttempts _ => config.resetWindowMinutes * 60 * 1000

variable {config : LockoutConfig}

variable (config) in
/-- Every lock and every counter ends, and no later than one that was written just now. -/
def Ends (world : World) : Prop :=
  ∀ key entry, world.lockouts.entries key = some entry →
    ∃ time, entry.expiresAt = some time ∧ time ≤ world.clock + config.span key

variable (config) in
/-- A key is written for its time. -/
def Call.Lasts : Call → Prop
  | .lockouts _ command => match command with
    | .get _ | .exists' _ | .ttl _ | .del _ => True
    | .set key _ ttl => ∃ seconds > 0, ttl = some seconds ∧ seconds * 1000 = config.span key
    | .incrWithTtl key seconds => 0 < seconds ∧ seconds * 1000 = config.span key
    | _ => False
  | _ => True

theorem ends_exec (choice : Choice) (world : World) (op : Call) (ends : Ends config world)
    (lasts : op.Lasts config) : Ends config (exec choice world op).2 := by
  intro key entry present
  rw [exec_clock]
  have kept (before : world.lockouts.entries key = some entry) :
      ∃ time, entry.expiresAt = some time ∧
        time ≤ world.clock + choice.elapsed + config.span key := by
    obtain ⟨time, same, bound⟩ := ends key entry before
    exact ⟨time, same, by omega⟩
  cases op with
  | auth | compare | turn => exact kept present
  | lockouts purpose command =>
    rcases exec_lockouts_cases choice world purpose command with same | same
    all_goals rw [same] at present
    · exact kept present
    by_cases other : key ≠ command.key
    · exact kept ((Valkey.exec_frame command other).symm.trans present)
    obtain rfl := not_not.mp other
    cases command with
    | get | exists' | ttl => exact kept present
    | smembers | sadd | srem | expire | incr => exact lasts.elim
    | del key => exact absurd ((Valkey.put_entries_self none).symm.trans present) (by simp)
    | set key value ttl =>
      obtain ⟨seconds, positive, rfl, span⟩ := lasts
      simp only [Valkey.exec, Valkey.set, if_neg (Int.ne_of_gt positive),
        if_neg (Int.not_lt.mpr positive.le)] at present
      cases (Valkey.put_entries_self _).symm.trans present
      exact ⟨_, rfl, by rw [Command.key, ← span]; exact le_rfl⟩
    | incrWithTtl key seconds =>
      rcases Valkey.exec_incrWithTtl world.lockouts (world.later choice.elapsed).clock key
        lasts.1 with ⟨value, time, counted, begun⟩ | ⟨e, failed⟩
      · rw [counted] at present
        cases (Valkey.put_entries_self _).symm.trans present
        rcases begun with ⟨-, -, rfl⟩ | alive
        · exact ⟨_, rfl, by rw [Command.key, ← lasts.2]; exact le_rfl⟩
        · obtain ⟨time, same, bound⟩ := ends key _ (Valkey.live_eq_some.mp alive).1
          exact ⟨time, same, by rw [Command.key]; omega⟩
      · rw [failed] at present
        exact kept present

section Logins
open AccountLockoutService

theorem lasts_checkStatus (userId : Option String) (ip : String) :
    OnlyE (Call.Lasts config) (checkStatus config userId ip) := by
  have checks (attemptsKey lockKey : Key) :
      OnlyE (Call.Lasts config) (checkKeys config attemptsKey lockKey) := by
    refine OnlyE.bind (onlyE_ask trivial) fun isLocked => ?_
    split
    · exact OnlyE.bind (onlyE_ask trivial) fun _ =>
        OnlyE.bind (onlyE_dateNow trivial) fun _ => onlyE_pure _
    · exact OnlyE.bind (onlyE_ask trivial) fun _ => onlyE_pure _
  cases userId with
  | none => exact OnlyE.bind (checks _ _) fun _ => onlyE_pure _
  | some userId =>
    exact OnlyE.bind ((checks _ _).both (checks _ _) trivial) fun _ => onlyE_pure _

theorem lasts_recordFailedAttempt (lasts : 0 < config.lockoutDurationMinutes)
    (userId : Option String) (ip : String) :
    OnlyE (Call.Lasts config) (recordFailedAttempt config userId ip) := by
  have records (attemptsKey lockKey : Key)
      (counts : config.span attemptsKey = config.resetWindowMinutes * 60 * 1000)
      (locks : config.span lockKey = config.lockoutDurationMinutes * 60 * 1000) :
      OnlyE (Call.Lasts config) (recordAttempt config attemptsKey lockKey) := by
    have window := config.window
    refine OnlyE.bind (onlyE_ask trivial) fun isLocked => ?_
    split
    · exact OnlyE.bind (onlyE_ask trivial) fun _ =>
        OnlyE.bind (onlyE_dateNow trivial) fun _ => onlyE_pure _
    refine OnlyE.bind (onlyE_ask ⟨by omega, counts.symm⟩) fun attempts => ?_
    split
    · refine OnlyE.bind (onlyE_ask ⟨_, by omega, rfl, locks.symm⟩) fun _ => ?_
      exact OnlyE.bind (onlyE_ask trivial) fun _ =>
        OnlyE.bind (onlyE_dateNow trivial) fun _ => onlyE_pure _
    · exact onlyE_pure _
  cases userId with
  | none => exact OnlyE.bind (records _ _ rfl rfl) fun _ => onlyE_pure _
  | some userId =>
    exact OnlyE.bind ((records _ _ rfl rfl).both (records _ _ rfl rfl) trivial)
      fun _ => onlyE_pure _

theorem lasts_login (lasts : 0 < config.lockoutDurationMinutes) (d : Deployment) (dto : LoginDto)
    (clientIp : String) : OnlyE (Call.Lasts config) (AuthService.login d config dto clientIp) := by
  have plain {γ : Type} (p : Auth.Method γ) : OnlyE (Call.Lasts config) (asIs p) :=
    onlyE_asIs p fun _ => trivial
  have records (userId : Option String) {γ : Type} {p : Method γ}
      (only : OnlyE (Call.Lasts config) p) :=
    OnlyE.bind (onlyE_served (lasts_recordFailedAttempt lasts userId clientIp)) fun _ => only
  have clears (counter lock : Key) : OnlyE (Call.Lasts config) (clearKeys counter lock) :=
    OnlyE.bind (OnlyE.both (onlyE_ask trivial) (onlyE_ask trivial) trivial) fun _ => onlyE_pure _
  refine OnlyE.bind (onlyE_served (lasts_checkStatus none clientIp)) fun status => ?_
  split
  · exact OnlyE.bind (plain _) fun _ => onlyE_throw _
  refine OnlyE.bind (onlyE_call trivial) fun found => ?_
  split
  · exact records none (onlyE_throw _)
  refine OnlyE.bind (onlyE_served (lasts_checkStatus _ clientIp)) fun status => ?_
  split
  · exact OnlyE.bind (plain _) fun _ => onlyE_throw _
  refine OnlyE.bind (plain _) fun _ => OnlyE.bind (onlyE_call trivial) fun valid => ?_
  split
  · exact records _ (onlyE_throw _)
  unfold AuthService.enter
  split
  · exact onlyE_throw _
  refine OnlyE.bind (plain _) fun banned => ?_
  split
  · exact onlyE_throw _
  refine OnlyE.bind (onlyE_served (OnlyE.bind ((clears _ _).both (clears _ _) trivial)
    fun _ => onlyE_pure _)) fun _ => ?_
  exact OnlyE.bind (plain _) fun _ => onlyE_pure _

/-- Where a lock lasts some time, whatever logins overlap and whichever commands fail or are lost,
no lock and no counter outlasts its time from now. -/
theorem locks_end (d : Deployment) (lasts : 0 < config.lockoutDurationMinutes) {start : World}
    (ends : Ends config start) (logins : List (LoginDto × String))
    (schedule : List (Nat × Choice)) :
    Ends config ((pool d config start logins).run exec schedule).state := by
  refine Pool.eachCall_invariant exec ends_exec ends
    (Pool.eachCall_of_only exec (fun _ _ _ kept => kept) ?_ schedule)
  simp only [pool, List.mem_map, forall_exists_index, and_imp]
  rintro _ login - rfl
  exact (lasts_login lasts d login.1 login.2).only

/-- A failed attempt that locks its account and its address. -/
theorem locks_end_guessed : Ends { maxFailedAttempts := 1 }
    ((pool .plain { maxFailedAttempts := 1 } .untried [guess "1.1.1.1"]).run exec
      (turns 0 25)).state :=
  locks_end .plain (by decide) (fun _ _ never => by cases never) _ _

end Logins
end Lockout
