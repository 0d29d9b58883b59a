import Hakawi.Lockout.Counters

/-!
# Whether an account exists

Wrong passwords for an email are answered alike with and without the account, as long as neither
the lock of the account nor a captcha stops them: these two are only ever met by an account that
exists. Each attempt is served at one moment, and the store answers.
-/

namespace Lockout
open Common Effects
open Auth (LoginDto AuthResponseDto AuthError Deployment LockoutStatus)

/-- One attempt on an email. -/
structure Try where
  password : String
  captchaToken : Option String
  ip : String
  /-- Milliseconds since the attempt before. -/
  elapsed : Nat
  /-- Whether the captcha would be verified. -/
  captcha : Bool
  left : Nat → Bool

namespace Try

def dto (email : String) (attempt : Try) : LoginDto :=
  ⟨email, attempt.password, attempt.captchaToken⟩

def choices (attempt : Try) (n : Nat) : Choice :=
  { elapsed := 0, captcha := attempt.captcha, left := attempt.left n }

end Try

/-- No time passes, nothing fails, and the captcha is verified or not. -/
structure Still (captcha : Bool) (choice : Choice) : Prop where
  elapsed : choice.elapsed = 0
  performed : choice.outcome = .performed
  captcha : choice.captcha = captcha

section Moments
variable {captcha captcha' : Bool} {choice choice' : Choice} {world : World}

theorem later_zero (world : World) : world.later 0 = world := by
  simp [World.later]

theorem exec_lockouts_still (still : Still captcha choice) (purpose : Purpose)
    (command : Command Key) : exec choice world (.lockouts purpose command) =
      ((world.lockouts.exec world.clock command).1,
        { world with lockouts := (world.lockouts.exec world.clock command).2 }) := by
  rw [exec, still.elapsed, later_zero, still.performed]

theorem exec_auth_still (still : Still captcha choice) (call : Auth.Call) :
    exec choice world (.auth call) = ((world.auth.perform choice.toChoice call).1,
      { world with auth := (world.auth.perform choice.toChoice call).2 }) := by
  have same : ({ world.auth with clock := world.auth.clock + choice.elapsed } : Auth.World) =
      world.auth := by
    rw [still.elapsed]
    simp
  rw [exec, Auth.exec, same]
  cases call <;> simp only [Auth.Call.mayFail, still.performed]

/-- Every execution at one moment. -/
abbrev moment (captcha : Bool) : Program.OpSpec Call Call.Answer World :=
  Program.execSpec exec (Still captcha)

theorem moment_monotone : (moment captcha).Monotone := Program.execSpec_monotone _ _

variable {α β : Type} {mine others : World → World → Prop}

theorem wpE_together {p : Service α} {q : Service β} {Q : Except Failure α → World → Prop}
    {Q' : Except Failure β → World → Prop}
    (still : ∀ x, mine x x) (still' : ∀ x, others x x)
    (trans : ∀ x y z, mine x y → mine y z → mine x z)
    (trans' : ∀ x y z, others x y → others y z → others x z)
    (stable : ∀ a x y, Q a x → others x y → Q a y)
    (stable' : ∀ b x y, Q' b x → mine x y → Q' b y)
    (first : wpE (Program.among (moment captcha) mine others) p Q world)
    (second : wpE (Program.among (moment captcha) others mine) q Q' world) :
    wpE (moment captcha) (all p q) (fun r y => ∃ a b, r = zip a b ∧ Q a y ∧ Q' b y) world := by
  have turns (Q : Call.Answer .turn → World → Prop) (x : World) (always : ∀ r, Q r x) :
      moment captcha .turn Q x := by
    intro choice calm
    rw [exec, calm.elapsed, later_zero]
    exact always _
  exact wpE_both moment_monotone turns still still' trans trans' stable stable' first second

/-- The store after a command. -/
def World.sent (world : World) (command : Command Key) : World :=
  { world with lockouts := (world.lockouts.exec world.clock command).2 }

theorem wpE_asked {purpose : Purpose} {command : Command Key} {next : command.Answer → Service α}
    {Q : Except Failure α → World → Prop}
    (each : ∀ y, others world y → mine y (y.sent command) ∧
      match (y.lockouts.exec y.clock command).1 with
      | .ok value => wpE (Program.among (moment captcha) mine others) (next value) Q
          (y.sent command)
      | .error e => Q (.error e) (y.sent command)) :
    wpE (Program.among (moment captcha) mine others) (ask purpose command >>= next) Q world := by
  rw [wpE_bind]
  intro y moved choice still
  obtain ⟨moves, leads⟩ := each y moved
  rw [exec_lockouts_still still]
  refine ⟨moves, ?_⟩
  simp only [Program.wp_done]
  generalize (y.lockouts.exec y.clock command).1 = answer at leads ⊢
  cases answer <;> exact leads

theorem wpE_clock {next : Int → Service α} {Q : Except Failure α → World → Prop}
    (each : ∀ y, others world y → mine y y ∧
      wpE (Program.among (moment captcha) mine others) (next y.clock) Q y) :
    wpE (Program.among (moment captcha) mine others) (dateNow >>= next) Q world := by
  rw [wpE_bind]
  intro y moved choice still
  rw [exec_auth_still still]
  exact each y moved

namespace AccountLockoutService
variable (config : LockoutConfig)

/-- What a check finds. -/
def found (world : World) (attemptsKey lockKey : Key) : LockoutStatus :=
  if world.lockouts.exists' world.clock lockKey then
    ⟨true, config.maxFailedAttempts, some (world.clock +
      if 0 < world.lockouts.ttl world.clock lockKey then
        world.lockouts.ttl world.clock lockKey * 1000 else 0)⟩
  else ⟨false, attemptsAt world.lockouts world.clock attemptsKey, none⟩

variable {config}

theorem checkKeys_finds (written : Written world.lockouts) {attemptsKey lockKey : Key}
    (counter : ¬ attemptsKey.IsLock) :
    wpE (Program.among (moment captcha) Eq Eq) (checkKeys config attemptsKey lockKey)
      (fun r y => r = .ok (found config world attemptsKey lockKey) ∧ y = world) world := by
  refine wpE_asked fun y same => ?_
  subst same
  refine ⟨rfl, ?_⟩
  rw [found]
  dsimp only [Valkey.exec, World.sent]
  cases world.lockouts.exists' world.clock lockKey with
  | true =>
    refine wpE_asked fun y same => ?_
    subst same
    refine ⟨rfl, wpE_clock fun y same => ?_⟩
    subst same
    exact ⟨rfl, rfl, rfl⟩
  | false =>
    refine wpE_asked fun y same => ?_
    subst same
    refine ⟨rfl, ?_⟩
    obtain ⟨text, read, counts⟩ := written.get world.clock counter
    dsimp only [Valkey.exec]
    rw [read]
    refine ⟨?_, rfl⟩
    rw [← counts]
    rfl

theorem checkStatus_none_finds (written : Written world.lockouts) (ip : String) :
    wpE (moment captcha) (checkStatus config none ip)
      (fun r y => r = .ok (found config world (.ipAttempts ip) (.ipLock ip)) ∧ y = world)
      world := by
  have counter : ¬ (Key.ipAttempts ip).IsLock := not_false
  have address : wpE (Program.among (moment captcha) Eq Eq) (checkIpStatus config ip)
      (fun r y => r = .ok (found config world (.ipAttempts ip) (.ipLock ip)) ∧ y = world) world :=
    checkKeys_finds written counter
  have alone := Program.wp_of_among (P := fun _ => True) moment_monotone (fun _ => rfl)
    (fun _ _ _ holds same => same ▸ holds) (fun _ _ _ _ => trivial) rfl trivial address
  rw [checkStatus, wpE_bind]
  refine wpE_mono moment_monotone (fun r y ended => ?_) alone
  obtain ⟨⟨rfl, same⟩, -⟩ := ended
  exact ⟨congrArg Except.ok (mergeStatus_singleton _), same⟩

theorem checkStatus_some_finds (written : Written world.lockouts) (userId ip : String) :
    wpE (moment captcha) (checkStatus config (some userId) ip)
      (fun r y => r = .ok (mergeStatus
        [found config world (.userAttempts userId) (.userLock userId),
          found config world (.ipAttempts ip) (.ipLock ip)]) ∧ y = world) world := by
  have counter : ¬ (Key.ipAttempts ip).IsLock := not_false
  have counter' : ¬ (Key.userAttempts userId).IsLock := not_false
  have address : wpE (Program.among (moment captcha) Eq Eq) (checkIpStatus config ip)
      (fun r y => r = .ok (found config world (.ipAttempts ip) (.ipLock ip)) ∧ y = world) world :=
    checkKeys_finds written counter
  have account : wpE (Program.among (moment captcha) Eq Eq) (checkUserStatus config userId)
      (fun r y => r = .ok (found config world (.userAttempts userId) (.userLock userId)) ∧
        y = world) world :=
    checkKeys_finds written counter'
  have together := wpE_together (fun _ => rfl) (fun _ => rfl) (fun _ _ _ => Eq.trans)
    (fun _ _ _ => Eq.trans) (fun _ _ _ holds same => same ▸ holds)
    (fun _ _ _ holds same => same ▸ holds) account address
  rw [checkStatus, wpE_bind]
  refine wpE_mono moment_monotone (fun r y ended => ?_) together
  obtain ⟨a, b, rfl, ⟨rfl, same⟩, rfl, -⟩ := ended
  exact ⟨rfl, same⟩

end AccountLockoutService

/-- The keys of an account. -/
def Key.Of (userId : String) (key : Key) : Prop :=
  key = .userAttempts userId ∨ key = .userLock userId

instance (userId : String) (key : Key) : Decidable (key.Of userId) :=
  inferInstanceAs (Decidable (_ ∨ _))

/-- What the account's part of a method leaves as it is, or the address's part: whatever is under
the keys. -/
structure Spares (keys : Key → Prop) (before after : World) : Prop where
  auth : after.auth = before.auth
  entries : ∀ key, keys key → after.lockouts.entries key = before.lockouts.entries key
  written : Written before.lockouts → Written after.lockouts

namespace Spares
variable {keys : Key → Prop}

theorem refl (world : World) : Spares keys world world := ⟨rfl, fun _ _ => rfl, id⟩

theorem trans (x y z : World) (first : Spares keys x y) (second : Spares keys y z) :
    Spares keys x z where
  auth := second.auth.trans first.auth
  entries key spared := (second.entries key spared).trans (first.entries key spared)
  written := second.written ∘ first.written

/-- A command on another key. -/
theorem sent {command : Command Key} (sends : Sends command) (other : ¬ keys command.key) :
    Spares keys world (world.sent command) where
  auth := rfl
  entries _ spared := Valkey.exec_frame command fun same => other (same ▸ spared)
  written written := written.exec sends

end Spares

namespace AccountLockoutService
variable {config : LockoutConfig} {attemptsKey lockKey : Key}

/-- A failed attempt is counted, whatever becomes of other keys meanwhile. -/
theorem recordAttempt_returns (refl : ∀ x, mine x x)
    (keeps : ∀ x y, others x y → Written x.lockouts → Written y.lockouts)
    (moves : ∀ x command, Sends command → On attemptsKey lockKey command →
      mine x (x.sent command))
    (counter : ¬ attemptsKey.IsLock) (lock : lockKey.IsLock) (written : Written world.lockouts) :
    wpE (Program.among (moment captcha) mine others) (recordAttempt config attemptsKey lockKey)
      (fun r _ => ∃ status, r = .ok status) world := by
  have returns {x : World} {next : Int → LockoutStatus} :
      wpE (Program.among (moment captcha) mine others) (dateNow >>= fun now => pure (next now))
        (fun r _ => ∃ status, r = .ok status) x :=
    wpE_clock fun y _ => ⟨refl y, _, rfl⟩
  refine wpE_asked fun y moved => ⟨moves y _ trivial (Or.inr rfl), ?_⟩
  have writtenY : Written (y.sent (.exists' lockKey)).lockouts :=
    (keeps world y moved written).exec trivial
  dsimp only [Valkey.exec]
  cases y.lockouts.exists' y.clock lockKey with
  | true => exact wpE_asked fun z _ => ⟨moves z _ trivial (Or.inr rfl), returns⟩
  | false =>
    refine wpE_asked fun z moved' => ⟨moves z _ counter (Or.inl rfl), ?_⟩
    have window := config.window
    have writtenZ := keeps _ z moved' writtenY
    obtain ⟨time, -, counted⟩ :=
      writtenZ.incr_counts z.clock counter (config.resetWindowMinutes * 60) (by omega)
    rw [counted]
    dsimp only
    split
    · refine wpE_asked fun u _ => ⟨moves u _ ⟨lock, rfl⟩ (Or.inr rfl), ?_⟩
      rw [exec_set_done _ (by omega)]
      exact wpE_asked fun v _ => ⟨moves v _ trivial (Or.inl rfl), returns⟩
    · exact ⟨_, rfl⟩

end AccountLockoutService

/-- What is asked beside the account. -/
def Beside (userId : String) : Call → Prop
  | .lockouts _ command => Sends command ∧ ¬ command.key.Of userId
  | .auth .now => True
  | _ => False

/-- At one time, two stores that differ at most under the keys of the account. -/
structure Apart (userId : String) (before after : World) : Prop where
  clock : after.clock = before.clock
  entries : ∀ key, ¬ key.Of userId → after.lockouts.entries key = before.lockouts.entries key

section Beside
variable {userId : String} {s x y : World} {op : Call}

theorem Apart.symm (apart : Apart userId s x) : Apart userId x s :=
  ⟨apart.clock.symm, fun key other => (apart.entries key other).symm⟩

theorem Apart.trans (first : Apart userId s x) (second : Apart userId x y) : Apart userId s y where
  clock := second.clock.trans first.clock
  entries key other := (second.entries key other).trans (first.entries key other)

theorem Apart.stays (apart : Apart userId s x) (spares : Spares (¬ ·.Of userId) x y) :
    Apart userId s y where
  clock := (congrArg Auth.World.clock spares.auth).trans apart.clock
  entries key other := (spares.entries key other).trans (apart.entries key other)

theorem spares_beside (still : Still captcha choice) (beside : Beside userId op) :
    Spares (·.Of userId) x (exec choice x op).2 := by
  cases op with
  | lockouts purpose command =>
    rw [exec_lockouts_still still]
    exact Spares.sent beside.1 beside.2
  | auth call =>
    cases call with
    | now =>
      rw [exec_auth_still still]
      exact Spares.refl x
    | _ => exact beside.elim
  | compare | turn => exact beside.elim

theorem alike_beside (still : Still captcha choice) (still' : Still captcha' choice')
    (beside : Beside userId op) (apart : Apart userId s x) :
    (exec choice x op).1 = (exec choice' s op).1 ∧
      Apart userId (exec choice' s op).2 (exec choice x op).2 := by
  cases op with
  | lockouts purpose command =>
    rw [exec_lockouts_still still, exec_lockouts_still still', apart.clock]
    have leads : (x.lockouts.exec s.clock command).1 = (s.lockouts.exec s.clock command).1 ∧ _ :=
      Valkey.exec_congr command (apart.entries command.key beside.2)
    refine ⟨leads.1, apart.clock, fun key other => ?_⟩
    by_cases same : key = command.key
    · rw [same]
      exact leads.2
    · dsimp only
      rw [Valkey.exec_frame command same, Valkey.exec_frame command same]
      exact apart.entries key other
  | auth call =>
    cases call with
    | now =>
      rw [exec_auth_still still, exec_auth_still still']
      exact ⟨congrArg Except.ok apart.clock, apart⟩
    | _ => exact beside.elim
  | compare | turn => exact beside.elim

end Beside

/-- A choice at one moment. -/
def calm : Choice := { elapsed := 0 }

theorem still_calm : Still true calm := ⟨rfl, rfl, rfl⟩

namespace AccountLockoutService
variable {config : LockoutConfig} {userId ip : String} {s x : World}

variable (config) in
/-- After the failed attempt of an address. -/
def recorded (world : World) (ip : String) : World :=
  ((recordIpFailedAttempt config ip).run.eval exec (fun _ => calm) world).2

theorem beside_recordIpFailedAttempt : OnlyE (Beside userId) (recordIpFailedAttempt config ip) := by
  refine onlyE_recordAttempt not_false trivial trivial fun command sends on => ⟨sends, ?_⟩
  rcases on with same | same <;> rw [same] <;> rintro (never | never) <;> cases never

theorem recordIpFailedAttempt_returns
    (keeps : ∀ x y, others x y → Written x.lockouts → Written y.lockouts)
    (written : Written world.lockouts) :
    wpE (Program.among (moment captcha) (fun _ _ => True) others)
      (recordIpFailedAttempt config ip) (fun r _ => ∃ status, r = .ok status) world :=
  recordAttempt_returns (fun _ => trivial) keeps (fun _ _ _ _ => trivial) not_false trivial written

variable (captcha config ip) in
/-- Whatever becomes of the account meanwhile, the address is counted as without it. -/
theorem recordIpFailedAttempt_alike (written : Written s.lockouts) (apart : Apart userId s x) :
    wpE (Program.among (moment captcha) (Spares (·.Of userId)) (Spares (¬ ·.Of userId)))
      (recordIpFailedAttempt config ip)
      (fun r y => (∃ status, r = .ok status) ∧ Apart userId (recorded config s ip) y) x := by
  let run := (recordIpFailedAttempt config ip).run.eval exec (fun _ => calm) s
  have alike : wpE (Program.among (moment captcha) (Spares (·.Of userId))
      (Spares (¬ ·.Of userId))) (recordIpFailedAttempt config ip)
      (fun r y => r = run.1 ∧ Apart userId run.2 y) x := by
    have beside : OnlyE (Beside userId) (recordIpFailedAttempt config ip) :=
      beside_recordIpFailedAttempt
    refine Program.Only.wp_among beside.only calm ?_ ?_ ?_ apart
    · intro c s x op still beside apart
      exact alike_beside still still_calm beside apart
    · intro c x op still beside
      exact spares_beside still beside
    · intro s x y apart spares
      exact apart.stays spares
  have among : wpE (Program.among (moment true) (fun _ _ => True) Eq)
      (recordIpFailedAttempt config ip) (fun r _ => ∃ status, r = .ok status) s := by
    refine recordIpFailedAttempt_returns (fun x y same kept => ?_) written
    rw [← same]
    exact kept
  have returns : wpE (moment true) (recordIpFailedAttempt config ip)
      (fun r _ => (∃ status, r = .ok status) ∧ True) s :=
    Program.wp_of_among (P := fun _ => True) moment_monotone (fun _ => rfl)
      (fun _ _ _ holds _ => holds) (fun _ _ _ _ => trivial) rfl trivial among
  obtain ⟨ended, -⟩ := Program.eval_of_wp returns fun _ => still_calm
  refine wpE_mono (Program.among_monotone moment_monotone _ _) (fun r y both => ?_) alike
  obtain ⟨rfl, apart⟩ := both
  exact ⟨ended, apart⟩

variable (captcha config ip) in
theorem recordFailedAttempt_none_alike (written : Written s.lockouts) (apart : Apart userId s x) :
    wpE (moment captcha) (recordFailedAttempt config none ip)
      (fun r y => (∃ status, r = .ok status) ∧ Apart userId (recorded config s ip) y) x := by
  have alone := Program.wp_of_among (P := fun _ => True) moment_monotone Spares.refl
    (fun r x y ended spares => ⟨ended.1, ended.2.stays spares⟩) (fun _ _ _ _ => trivial)
    (Spares.refl x) trivial (recordIpFailedAttempt_alike captcha config ip written apart)
  rw [recordFailedAttempt, wpE_bind]
  refine wpE_mono moment_monotone (fun r y ended => ?_) alone
  obtain ⟨⟨⟨status, rfl⟩, leaves⟩, -⟩ := ended
  exact ⟨⟨_, rfl⟩, leaves⟩

variable (captcha config ip) in
theorem recordFailedAttempt_some_alike (written : Written s.lockouts)
    (written' : Written x.lockouts) (apart : Apart userId s x) :
    wpE (moment captcha) (recordFailedAttempt config (some userId) ip)
      (fun r y => (∃ status, r = .ok status) ∧ Apart userId (recorded config s ip) y) x := by
  have account : wpE (Program.among (moment captcha) (Spares (¬ ·.Of userId))
      (Spares (·.Of userId))) (recordUserFailedAttempt config userId)
      (fun r _ => ∃ status, r = .ok status) x :=
    recordAttempt_returns Spares.refl (fun _ _ => Spares.written)
      (fun _ _ sends on => Spares.sent sends (not_not_intro on)) not_false trivial written'
  have together := wpE_together Spares.refl Spares.refl Spares.trans Spares.trans
    (fun _ _ _ ended _ => ended) (fun r x y ended spares => ⟨ended.1, ended.2.stays spares⟩)
    account (recordIpFailedAttempt_alike captcha config ip written apart)
  rw [recordFailedAttempt, wpE_bind]
  refine wpE_mono moment_monotone (fun r y ended => ?_) together
  obtain ⟨a, b, rfl, ⟨first, rfl⟩, ⟨second, rfl⟩, leaves⟩ := ended
  exact ⟨⟨_, rfl⟩, leaves⟩

variable (captcha config ip) in
theorem recordFailedAttempt_keeps (user : Option String) (written : Written x.lockouts) :
    wpE (moment captcha) (recordFailedAttempt config user ip)
      (fun _ y => y.auth.users = x.auth.users ∧ Written y.lockouts) x := by
  refine (onlyE_recordFailedAttempt user ip).only.wp_inv ?_ ⟨rfl, written⟩
  intro choice y op serves kept
  refine ⟨?_, written_exec kept.2 serves.tries⟩
  rw [← kept.1]
  cases op with
  | lockouts purpose command =>
    rcases exec_lockouts_cases choice y purpose command with same | same <;> rw [same] <;> rfl
  | auth call =>
    cases call with
    | now => rfl
    | _ => exact serves.elim
  | compare => exact serves.elim
  | turn => rfl

end AccountLockoutService

section Steps
open Auth.AuthService
variable {d : Deployment} {config : LockoutConfig} {γ : Type}
variable {Q : Except AuthError γ → World → Prop}

theorem wpE_checkStatus_none {next : LockoutStatus → Method γ} (written : Written world.lockouts)
    (ip : String) (goes : wpE (moment captcha)
      (next (AccountLockoutService.found config world (.ipAttempts ip) (.ipLock ip))) Q world) :
    wpE (moment captcha) (served (AccountLockoutService.checkStatus config none ip) >>= next) Q
      world := by
  rw [wpE_bind, wpE_served]
  refine wpE_mono moment_monotone (fun r y ended => ?_)
    (AccountLockoutService.checkStatus_none_finds written ip)
  obtain ⟨rfl, rfl⟩ := ended
  exact goes

theorem wpE_checkStatus_some {next : LockoutStatus → Method γ} (written : Written world.lockouts)
    (userId ip : String) (goes : wpE (moment captcha) (next (AccountLockoutService.mergeStatus
      [AccountLockoutService.found config world (.userAttempts userId) (.userLock userId),
        AccountLockoutService.found config world (.ipAttempts ip) (.ipLock ip)])) Q world) :
    wpE (moment captcha)
      (served (AccountLockoutService.checkStatus config (some userId) ip) >>= next) Q world := by
  rw [wpE_bind, wpE_served]
  refine wpE_mono moment_monotone (fun r y ended => ?_)
    (AccountLockoutService.checkStatus_some_finds written userId ip)
  obtain ⟨rfl, rfl⟩ := ended
  exact goes

theorem wpE_findByEmail {next : Option Auth.User → Method γ} (email : String)
    (goes : wpE (moment captcha) (next (world.auth.users.find? (·.email = email))) Q world) :
    wpE (moment captcha) (call (.auth (.findByEmail email)) >>= next) Q world := by
  rw [wpE_bind]
  intro choice still
  rw [exec_auth_still still]
  exact goes

theorem wpE_compare {next : Bool → Method γ} (userId : String) (valid : Bool)
    (goes : ∀ compared, wpE (moment captcha) (next valid) Q { world with compared }) :
    wpE (moment captcha) (call (.compare userId valid) >>= next) Q world := by
  rw [wpE_bind]
  intro choice still
  rw [exec, still.elapsed, later_zero]
  exact goes _

/-- What a refusal tells of the time of a lock. -/
def minutes (lockoutExpiresAt : Option Int) (now : Int) : Int :=
  match lockoutExpiresAt with
  | none => 0
  | some time => (time - now + 59999) / 60000

theorem wpE_lockoutRemainingMinutes {next : Int → Method γ} (time : Option Int)
    (goes : wpE (moment captcha) (next (minutes time world.clock)) Q world) :
    wpE (moment captcha) (asIs (lockoutRemainingMinutes time) >>= next) Q world := by
  rw [wpE_bind]
  cases time with
  | none => exact goes
  | some time =>
    intro choice still
    rw [exec_auth_still still]
    exact goes

theorem wpE_passCaptcha {next : Unit → Method γ} (attempts : Nat) (token : Option String)
    (ip : String)
    (passes : (shouldRequireCaptcha d attempts = true → captcha = true) →
      wpE (moment captcha) (next ()) Q world)
    (stops : shouldRequireCaptcha d attempts = true → captcha = false →
      Q (.error (.captchaRequired "CAPTCHA verification required" "CAPTCHA_REQUIRED"
        d.captchaProvider d.captchaSiteKey)) world) :
    wpE (moment captcha) (asIs (passCaptcha d attempts token ip) >>= next) Q world := by
  rw [wpE_bind, passCaptcha]
  cases requires : shouldRequireCaptcha d attempts with
  | false => exact passes fun required => absurd (requires.symm.trans required) (by decide)
  | true =>
    intro choice still
    have verified : (world.auth.perform choice.toChoice (.verifyCaptcha token ip)).1 =
        .ok captcha := congrArg Except.ok still.captcha
    rw [exec_auth_still still, verified]
    cases captcha with
    | false => exact stops requires rfl
    | true => exact passes fun _ => rfl

end Steps

section Logins
open Auth.AuthService
variable (d : Deployment) (config : LockoutConfig)

def World.isAddressLocked (world : World) (ip : String) : Bool :=
  world.lockouts.exists' world.clock (.ipLock ip)

/-- What is answered without an account. -/
def refusal (world : World) (ip : String) : AuthError :=
  if world.isAddressLocked ip then
    let status := AccountLockoutService.found config world (.ipAttempts ip) (.ipLock ip)
    let minutes := minutes status.lockoutExpiresAt world.clock
    .unauthorized s!"Too many failed attempts. Please try again after {minutes} minutes."
  else .unauthorized "Invalid email or password"

/-- And what it leads to. -/
def refused (world : World) (ip : String) : World :=
  if world.isAddressLocked ip then world else AccountLockoutService.recorded config world ip

/-- The address is locked, or neither the account is nor a captcha stops the attempt. -/
def Lets (userId : String) (world : World) (ip : String) (captcha : Bool) : Prop :=
  world.isAddressLocked ip = true ∨ world.isLocked userId = false ∧
    (shouldRequireCaptcha d (max (attemptsAt world.lockouts world.clock (.ipAttempts ip))
      (world.count userId)) = true → captcha = true)

instance (userId : String) (world : World) (ip : String) (captcha : Bool) :
    Decidable (Lets d userId world ip captcha) := inferInstanceAs (Decidable (_ ∨ _ ∧ (_ → _)))

variable {d config} {userId ip : String} {s x y : World}

namespace AccountLockoutService

theorem found_isLocked (attemptsKey lockKey : Key) :
    (found config world attemptsKey lockKey).isLocked =
      world.lockouts.exists' world.clock lockKey := by
  rw [found]
  split
  · rename_i locked
    exact locked.symm
  · rename_i unlocked
    exact (Bool.eq_false_of_not_eq_true unlocked).symm

theorem found_unlocked {attemptsKey lockKey : Key}
    (unlocked : world.lockouts.exists' world.clock lockKey = false) :
    found config world attemptsKey lockKey =
      ⟨false, attemptsAt world.lockouts world.clock attemptsKey, none⟩ := by
  rw [found, unlocked]
  rfl

theorem found_address : (found config world (.ipAttempts ip) (.ipLock ip)).isLocked =
    world.isAddressLocked ip := found_isLocked _ _

theorem found_account : (found config world (.userAttempts userId) (.userLock userId)).isLocked =
    world.isLocked userId := found_isLocked _ _

theorem mergeStatus_locked {first : LockoutStatus} (locked : first.isLocked = true)
    (rest : List LockoutStatus) : mergeStatus (first :: rest) = first := by
  rw [mergeStatus, List.find?_cons_of_pos locked]
  rfl

/-- Where nothing is locked, the attempts of the account and of the address are merged. -/
theorem mergeStatus_unlocked (first second : Nat) :
    mergeStatus [⟨false, first, none⟩, ⟨false, second, none⟩] =
      ⟨false, max second first, none⟩ := by
  rw [mergeStatus, List.find?_cons_of_neg Bool.false_ne_true,
    List.find?_cons_of_neg Bool.false_ne_true]
  simp only [List.find?_nil, Option.getD_none, List.foldl_cons, List.foldl_nil]
  split <;> congr 1 <;> omega

end AccountLockoutService

/-- What the address is answered does not depend on the account. -/
theorem Apart.found (apart : Apart userId s x) : AccountLockoutService.found config x
    (.ipAttempts ip) (.ipLock ip) =
      AccountLockoutService.found config s (.ipAttempts ip) (.ipLock ip) := by
  have counter := apart.entries (.ipAttempts ip) (by rintro (never | never) <;> cases never)
  have lock := apart.entries (.ipLock ip) (by rintro (never | never) <;> cases never)
  have seconds : x.lockouts.ttl s.clock (.ipLock ip) = s.lockouts.ttl s.clock (.ipLock ip) := by
    rw [Valkey.ttl, Valkey.ttl, live_congr lock]
  simp only [AccountLockoutService.found, apart.clock, exists_congr lock, attemptsAt_congr counter,
    seconds]

theorem Apart.isAddressLocked (apart : Apart userId s x) :
    x.isAddressLocked ip = s.isAddressLocked ip := by
  have lock := apart.entries (.ipLock ip) (by rintro (never | never) <;> cases never)
  rw [World.isAddressLocked, World.isAddressLocked, apart.clock, exists_congr lock]

theorem Apart.refusal (apart : Apart userId s x) : refusal config x ip = refusal config s ip := by
  rw [Lockout.refusal, Lockout.refusal, apart.isAddressLocked, apart.found, apart.clock]

/-- The address is counted as without the account, and nothing happens to the accounts. -/
structure Leaves (config : LockoutConfig) (userId ip : String) (s x y : World) : Prop where
  users : y.auth.users = x.auth.users
  written : Written y.lockouts
  apart : Apart userId (refused config s ip) y

/-- What both kinds of refused login record. -/
theorem wpE_recordFailedAttempt (user : Option String) (written' : Written x.lockouts)
    (unlocked : s.isAddressLocked ip = false)
    (alike : wpE (moment captcha) (AccountLockoutService.recordFailedAttempt config user ip)
      (fun r y => (∃ status, r = .ok status) ∧
        Apart userId (AccountLockoutService.recorded config s ip) y) x) (e : AuthError) :
    wpE (moment captcha) (served (AccountLockoutService.recordFailedAttempt config user ip) >>=
        fun _ => (throw e : Method AuthResponseDto))
      (fun r y => r = .error e ∧ Leaves config userId ip s x y) x := by
  have keeps := AccountLockoutService.recordFailedAttempt_keeps captcha config ip user written'
  rw [wpE_bind, wpE_served]
  refine wpE_mono moment_monotone (fun r y ended => ?_) (Program.wp_and alike keeps)
  obtain ⟨⟨⟨status, rfl⟩, apart⟩, users, written⟩ := ended
  refine ⟨rfl, users, written, ?_⟩
  rw [refused, unlocked]
  exact apart

theorem login_unregistered (dto : LoginDto) (written : Written s.lockouts)
    (absent : credentials (s.auth.users.find? (·.email = dto.email)) = none) (userId : String) :
    wpE (moment captcha) (AuthService.login d config dto ip)
      (fun r y => r = .error (refusal config s ip) ∧ Leaves config userId ip s s y) s := by
  rw [AuthService.login]
  refine wpE_checkStatus_none written ip ?_
  rw [AccountLockoutService.found_address]
  cases locked : s.isAddressLocked ip with
  | true =>
    rw [if_pos rfl]
    refine wpE_lockoutRemainingMinutes _ ⟨?_, rfl, written, ?_⟩
    · rw [refusal, if_pos locked]
    · rw [refused, if_pos locked]
      exact ⟨rfl, fun _ _ => rfl⟩
  | false =>
    rw [if_neg Bool.false_ne_true]
    refine wpE_findByEmail dto.email ?_
    rw [absent]
    have apart : Apart userId s s := ⟨rfl, fun _ _ => rfl⟩
    rw [refusal, locked]
    exact wpE_recordFailedAttempt none written locked
      (AccountLockoutService.recordFailedAttempt_none_alike captcha config ip written apart) _

theorem locked_ne (minutes : Int) : AuthError.unauthorized
    ("Account temporarily locked due to too many failed attempts. " ++
      s!"Please try again after {minutes} minutes.") ≠
        .unauthorized "Invalid email or password" := by
  intro same
  have heads := congrArg (fun e => match e with
    | AuthError.unauthorized message => message.toList.head?
    | _ => none) same
  simp [String.toList_append] at heads

theorem login_registered (dto : LoginDto) {user : Auth.User} {passwordHash : String}
    (written : Written s.lockouts) (written' : Written x.lockouts) (apart : Apart user.id s x)
    (account : credentials (x.auth.users.find? (·.email = dto.email)) = some (user, passwordHash))
    (wrong : d.compare dto.password passwordHash = false) :
    wpE (moment captcha) (AuthService.login d config dto ip)
      (fun r y => (Lets d user.id x ip captcha →
          r = .error (refusal config s ip) ∧ Leaves config user.id ip s x y) ∧
        (¬ Lets d user.id x ip captcha → r ≠ .error (refusal config s ip))) x := by
  rw [AuthService.login]
  refine wpE_checkStatus_none written' ip ?_
  rw [AccountLockoutService.found_address]
  have same : x.isAddressLocked ip = s.isAddressLocked ip := apart.isAddressLocked
  cases locked : x.isAddressLocked ip with
  | true =>
    have lets : Lets d user.id x ip captcha := Or.inl locked
    have alike : refusal config x ip = refusal config s ip := apart.refusal
    rw [if_pos rfl]
    refine wpE_lockoutRemainingMinutes _ ⟨fun _ => ⟨?_, rfl, written', ?_⟩, absurd lets⟩
    · rw [← alike, refusal, if_pos locked]
    · rw [refused, if_pos (same.symm.trans locked)]
      exact apart
  | false =>
    rw [if_neg Bool.false_ne_true]
    have unlocked : s.isAddressLocked ip = false := same.symm.trans locked
    have plain : refusal config s ip = .unauthorized "Invalid email or password" := by
      rw [refusal, unlocked]
      rfl
    have lets : Lets d user.id x ip captcha ↔ x.isLocked user.id = false ∧ (shouldRequireCaptcha d
        (max (attemptsAt x.lockouts x.clock (.ipAttempts ip)) (x.count user.id)) = true →
          captcha = true) := by
      rw [Lets, locked]
      exact or_iff_right Bool.false_ne_true
    refine wpE_findByEmail dto.email ?_
    rw [account]
    refine wpE_checkStatus_some written' user.id ip ?_
    rw [plain, lets]
    cases closed : x.isLocked user.id with
    | true =>
      have found : (AccountLockoutService.found config x (.userAttempts user.id)
          (.userLock user.id)).isLocked = true := AccountLockoutService.found_account.trans closed
      rw [AccountLockoutService.mergeStatus_locked found, if_pos found]
      refine wpE_lockoutRemainingMinutes _ ⟨fun never => absurd never.1 (by decide), ?_⟩
      exact fun _ same => locked_ne _ (Except.error.inj same)
    | false =>
      rw [AccountLockoutService.found_unlocked closed, AccountLockoutService.found_unlocked locked,
        AccountLockoutService.mergeStatus_unlocked, if_neg Bool.false_ne_true]
      have attempts (address account : Nat) :
          max address (max address account) = max address account := by omega
      dsimp only
      rw [attempts]
      refine wpE_passCaptcha _ _ _ (fun passes => ?_) fun requires refused => ⟨fun met => ?_, ?_⟩
      · refine wpE_compare user.id _ fun compared => ?_
        rw [wrong]
        have apart' : Apart user.id s { x with compared } := ⟨apart.clock, apart.entries⟩
        have written'' : Written ({ x with compared } : World).lockouts := written'
        have recorded := wpE_recordFailedAttempt (some user.id) written'' unlocked
          (AccountLockoutService.recordFailedAttempt_some_alike captcha config ip written written''
            apart') (.unauthorized "Invalid email or password")
        refine wpE_mono moment_monotone (fun r y ended => ?_) recorded
        have met : false = false ∧ _ := ⟨rfl, passes⟩
        exact ⟨fun _ => ⟨ended.1, ended.2.users, ended.2.written, ended.2.apart⟩, absurd met⟩
      · exact absurd (refused.symm.trans (met.2 requires)) (by decide)
      · intro _ same
        cases same

end Logins

section Runs
open Auth.AuthService
variable (d : Deployment) (config : LockoutConfig) (email : String)

/-- Time passes, and the attempt is served. -/
def tried (world : World) (attempt : Try) : Except AuthError AuthResponseDto × World :=
  (AuthService.login d config (attempt.dto email) attempt.ip).run.eval exec attempt.choices
    (world.later attempt.elapsed)

def step (world : World) (attempt : Try) : World := (tried d config email world attempt).2

def answers (world : World) : List Try → List (Except AuthError AuthResponseDto)
  | [] => []
  | attempt :: rest =>
    (tried d config email world attempt).1 :: answers (step d config email world attempt) rest

/-- One of the two states has an account with the email, and counters are what they are. -/
structure Differ (user : Auth.User) (passwordHash : String) (unregistered registered : World) :
    Prop where
  absent : unregistered.auth.users.find? (·.email = email) = none
  account : credentials (registered.auth.users.find? (·.email = email)) = some (user, passwordHash)
  apart : Apart user.id unregistered registered
  written : Written unregistered.lockouts
  written' : Written registered.lockouts

/-- Nothing that only an account meets stops the attempt. -/
def Unnoticed (userId : String) (world : World) (attempt : Try) : Prop :=
  Lets d userId (world.later attempt.elapsed) attempt.ip attempt.captcha

instance (userId : String) (world : World) (attempt : Try) :
    Decidable (Unnoticed d userId world attempt) := inferInstanceAs (Decidable (Lets _ _ _ _ _))

variable {d config email} {user : Auth.User} {passwordHash : String}
variable {unregistered registered : World}

theorem Differ.later (differ : Differ email user passwordHash unregistered registered)
    (elapsed : Nat) : Differ email user passwordHash (unregistered.later elapsed)
      (registered.later elapsed) :=
  ⟨differ.absent, differ.account,
    ⟨congrArg (· + (elapsed : Int)) differ.apart.clock, differ.apart.entries⟩, differ.written,
    differ.written'⟩

theorem still_choices (attempt : Try) (n : Nat) : Still attempt.captcha (attempt.choices n) :=
  ⟨rfl, rfl, rfl⟩

variable (config) in
/-- One attempt: it is answered alike exactly if nothing stops it that only an account meets, and
then the two states differ as before. -/
theorem tried_alike_iff (differ : Differ email user passwordHash unregistered registered)
    (attempt : Try) (wrong : d.compare attempt.password passwordHash = false) :
    ((tried d config email registered attempt).1 = (tried d config email unregistered attempt).1 ↔
      Unnoticed d user.id registered attempt) ∧
    (Unnoticed d user.id registered attempt → Differ email user passwordHash
      (step d config email unregistered attempt) (step d config email registered attempt)) := by
  have later := differ.later attempt.elapsed
  have absent : credentials (List.find? _ _) = none := congrArg credentials later.absent
  have without : wpE (moment attempt.captcha)
      (AuthService.login d config (attempt.dto email) attempt.ip) _ _ :=
    login_unregistered (attempt.dto email) later.written absent user.id
  have with' : wpE (moment attempt.captcha)
      (AuthService.login d config (attempt.dto email) attempt.ip) _ _ :=
    login_registered (attempt.dto email) later.written later.written' later.apart
      later.account wrong
  obtain ⟨answer, leaves⟩ := Program.eval_of_wp without (still_choices attempt)
  obtain ⟨alike, unlike⟩ := Program.eval_of_wp with' (still_choices attempt)
  refine ⟨⟨fun same => ?_, fun passes => ?_⟩, fun passes => ?_⟩
  · by_contra stopped
    exact unlike stopped (same.trans answer)
  · exact (alike passes).1.trans answer.symm
  · obtain ⟨-, leaves'⟩ := alike passes
    refine ⟨?_, ?_, leaves.apart.symm.trans leaves'.apart, leaves.written, leaves'.written⟩
    · exact leaves.users ▸ differ.absent
    · exact leaves'.users ▸ differ.account

/-- Wrong passwords tell whether there is an account exactly if one of the attempts meets the lock
of the account, or is asked for a captcha, while its address is not locked. -/
theorem answers_alike_iff (differ : Differ email user passwordHash unregistered registered)
    (tries : List Try)
    (wrong : ∀ attempt ∈ tries, d.compare attempt.password passwordHash = false) :
    answers d config email registered tries = answers d config email unregistered tries ↔
      Trace.Meets (step d config email) (Unnoticed d user.id) registered tries := by
  induction tries generalizing unregistered registered with
  | nil => exact iff_of_true rfl trivial
  | cons attempt rest ih =>
    obtain ⟨first, differs⟩ :=
      tried_alike_iff config differ attempt (wrong attempt List.mem_cons_self)
    have wrong' : ∀ attempt ∈ rest, d.compare attempt.password passwordHash = false :=
      fun attempt member => wrong attempt (List.mem_cons_of_mem _ member)
    rw [answers, answers, Trace.Meets, List.cons.injEq, first]
    constructor
    · rintro ⟨passes, same⟩
      exact ⟨passes, (ih (differs passes) wrong').mp same⟩
    · rintro ⟨passes, meets⟩
      exact ⟨passes, (ih (differs passes) wrong').mpr meets⟩

end Runs

section Examples

/-- With the reader's account, and without it. -/
def withReader : World := ⟨Auth.signedIn, .empty, []⟩

def withoutReader : World := ⟨{ Auth.signedIn with users := [] }, .empty, []⟩

theorem differ_reader : Differ "reader@hakawi" Auth.reader "secret" withoutReader withReader :=
  ⟨rfl, by decide, ⟨rfl, fun _ _ => rfl⟩, written_empty, written_empty⟩

def guessFrom (ip : String) : Try := ⟨"guessed", none, ip, 1000, true, fun _ => true⟩

theorem answers_alike_iff_once :
    answers .plain {} "reader@hakawi" withReader [guessFrom "1.1.1.1"] =
      answers .plain {} "reader@hakawi" withoutReader [guessFrom "1.1.1.1"] ↔
    Trace.Meets (step .plain {} "reader@hakawi") (Unnoticed .plain "reader") withReader
      [guessFrom "1.1.1.1"] :=
  answers_alike_iff differ_reader [guessFrom "1.1.1.1"] (by decide)

/-- Five wrong passwords from five addresses lock the account, and the sixth address is told. -/
theorem sixth_answer_differs :
    let tries := ["1.1.1.1", "2.2.2.2", "3.3.3.3", "4.4.4.4", "5.5.5.5", "6.6.6.6"].map guessFrom
    Differ "reader@hakawi" Auth.reader "secret" withoutReader withReader ∧
    (∀ attempt ∈ tries, Auth.Deployment.plain.compare attempt.password "secret" = false) ∧
    answers .plain {} "reader@hakawi" withReader tries ≠
      answers .plain {} "reader@hakawi" withoutReader tries ∧
    (answers .plain {} "reader@hakawi" withoutReader tries).getLast? =
      some (.error (.unauthorized "Invalid email or password")) ∧
    (answers .plain {} "reader@hakawi" withReader tries).getLast? =
      some (.error (.unauthorized ("Account temporarily locked due to too many failed attempts. " ++
        "Please try again after 15 minutes."))) :=
  ⟨differ_reader, by decide, by decide, by decide, by decide⟩

end Examples

end Moments
end Lockout
