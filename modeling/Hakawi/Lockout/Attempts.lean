import Hakawi.Lockout.Counters

/-!
# What a login asks of one account

The phases of an attempt on an account, as far as its calls and their answers tell. A login asks
for the comparison only where it found the account unlocked, for the count only after a wrong
password, and for the lock only when the count is full. The checks of the account and of the
address go on at once, and so do the counts: each is taken by itself, while the other tells of its
own.
-/

namespace Lockout
open Common Effects
open Auth (LoginDto AuthResponseDto AuthError Deployment LockoutStatus)

/-- How far an attempt has come with the account. -/
inductive Phase where
  | outside
  /-- The account was not locked. -/
  | admitted
  /-- The password was wrong, and that is not counted yet. -/
  | compared
  /-- The password was right. -/
  | entered
  /-- The attempt was counted, and the account is to be locked. -/
  | reached
  /-- The account is locked, and the counter is to be removed. -/
  | locked
  | finished
  deriving DecidableEq

/-- What a login has seen of the account. -/
structure Attempt where
  phase : Phase
  /-- The address is locked, or could not be checked. -/
  blocked : Bool
  deriving DecidableEq

namespace Attempt

def begun : Attempt := ⟨.outside, false⟩

/-- An attempt that was let through and comes to nothing. -/
def leave (attempt : Attempt) : Attempt :=
  if attempt.phase = .admitted then { attempt with phase := .finished } else attempt

theorem leave_blocked (attempt : Attempt) : attempt.leave.blocked = attempt.blocked := by
  rw [leave]
  split <;> rfl

variable (config : LockoutConfig) (user : String) (attempt : Attempt)

def check : (command : Command Key) → Except Failure command.Answer → Attempt
  | .exists' (.userLock userId), .ok false =>
    if userId = user then { attempt with phase := .admitted } else attempt
  | .get (.userAttempts userId), .error _ =>
    if userId = user then attempt.leave else attempt
  | .exists' (.ipLock _), .ok false => attempt
  | .exists' (.ipLock _), _ => { attempt with blocked := true }
  | .get (.ipAttempts _), .error _ => { attempt with blocked := true }
  | _, _ => attempt

/-- After an attempt was counted. -/
def counted (attempts : Int) : Phase :=
  if config.maxFailedAttempts ≤ attempts then .reached else .finished

def record : (command : Command Key) → Except Failure command.Answer → Attempt
  | .exists' (.userLock userId), .ok true =>
    if userId = user then { attempt with phase := .finished } else attempt
  | .incrWithTtl (.userAttempts userId) _, .ok attempts =>
    if userId = user then
      { attempt with phase := counted config attempts }
    else attempt
  | .set (.userLock userId) _ _, .ok _ =>
    if userId = user then { attempt with phase := .locked } else attempt
  | .set (.userLock userId) _ _, .error _ =>
    if userId = user then { attempt with phase := .finished } else attempt
  | .del (.userAttempts userId), _ =>
    if userId = user then { attempt with phase := .finished } else attempt
  | _, _ => attempt

def next : (op : Call) → op.Answer → Attempt
  | .lockouts .check command, answer => attempt.check user command answer
  | .lockouts .record command, answer => attempt.record config user command answer
  | .compare userId _, .ok valid =>
    if userId = user then { attempt with phase := if valid then .entered else .compared }
    else attempt
  | .auth (.verifyCaptcha _ _), .ok true => attempt
  | .auth (.verifyCaptcha _ _), _ => attempt.leave
  | _, _ => attempt

/-- What may be asked about the account, and when. -/
def allowed : Call → Prop
  | .lockouts .check (.exists' (.userLock userId)) => userId = user → attempt.phase = .outside
  | .lockouts .record (.exists' (.userLock userId))
  | .lockouts .record (.incrWithTtl (.userAttempts userId) _) =>
    userId = user → attempt.phase = .compared
  | .lockouts .record (.set (.userLock userId) _ _) => userId = user → attempt.phase = .reached
  | .lockouts .record (.del (.userAttempts userId)) => userId = user → attempt.phase = .locked
  | .lockouts .clear command =>
    command.key = .userAttempts user ∨ command.key = .userLock user → attempt.phase = .entered
  | .lockouts _ (.get _) | .lockouts _ (.ttl _) => True
  | .lockouts _ command => command.key ≠ .userAttempts user ∧ command.key ≠ .userLock user
  | .compare userId _ => userId = user → attempt.phase = .admitted ∧ attempt.blocked = false
  | .auth _ | .turn => True

end Attempt

/-- What a login asks, and when. -/
def attempts (config : LockoutConfig) (user : String) : Protocol Call Call.Answer Attempt where
  allowed attempt op := attempt.allowed user op
  next attempt op answer := attempt.next config user op answer

/-- And nothing but what a login sends. -/
def tries (config : LockoutConfig) (user : String) : Protocol Call Call.Answer Attempt :=
  (attempts config user).within Call.Tries

section Following
variable {config : LockoutConfig} {user : String} {attempt : Attempt} {α β : Type}

/-- A call that may be made at any time. -/
def Free (user : String) (op : Call) : Prop := ∀ attempt : Attempt, attempt.allowed user op

/-- What the account's part of a method leaves as it is, and what the address's part does. -/
def KeepsBlocked (before after : Attempt) : Prop := after.blocked = before.blocked
def KeepsPhase (before after : Attempt) : Prop := after.phase = before.phase

theorem KeepsBlocked.refl (attempt : Attempt) : KeepsBlocked attempt attempt := rfl
theorem KeepsPhase.refl (attempt : Attempt) : KeepsPhase attempt attempt := rfl

theorem KeepsBlocked.trans (x y z : Attempt) (first : KeepsBlocked x y)
    (second : KeepsBlocked y z) : KeepsBlocked x z := Eq.trans second first

theorem KeepsPhase.trans (x y z : Attempt) (first : KeepsPhase x y) (second : KeepsPhase y z) :
    KeepsPhase x z := Eq.trans second first

abbrev accountPart (config : LockoutConfig) (user : String) :
    Program.OpSpec Call Call.Answer Attempt :=
  Program.among (attempts config user).spec KeepsBlocked KeepsPhase

abbrev addressPart (config : LockoutConfig) (user : String) :
    Program.OpSpec Call Call.Answer Attempt :=
  Program.among (attempts config user).spec KeepsPhase KeepsBlocked

theorem wpE_all {p : Service α} {q : Service β} {Q : Except Failure α → Attempt → Prop}
    {Q' : Except Failure β → Attempt → Prop}
    (stable : ∀ a x y, Q a x → KeepsPhase x y → Q a y)
    (stable' : ∀ b x y, Q' b x → KeepsBlocked x y → Q' b y)
    (first : wpE (accountPart config user) p Q attempt)
    (second : wpE (addressPart config user) q Q' attempt) :
    wpE (attempts config user).spec (all p q)
      (fun r y => ∃ a b, r = zip a b ∧ Q a y ∧ Q' b y) attempt := by
  have turns (Q : Call.Answer .turn → Attempt → Prop) (x : Attempt) (always : ∀ r, Q r x) :
      (attempts config user).spec .turn Q x := ⟨trivial, always⟩
  exact wpE_both (Protocol.spec_monotone _) turns KeepsBlocked.refl KeepsPhase.refl
    KeepsBlocked.trans KeepsPhase.trans stable stable' first second

/-- A call among others: it is allowed whatever they did, and what it leads to. -/
theorem wpE_ask {mine others : Attempt → Attempt → Prop} {purpose : Purpose}
    {command : Command Key} {next : command.Answer → Service α}
    {Q : Except Failure α → Attempt → Prop}
    (each : ∀ y, others attempt y → y.allowed user (.lockouts purpose command) ∧
      ∀ answer, mine y (y.next config user (.lockouts purpose command) answer) ∧
        match answer with
        | .ok value => wpE (Program.among (attempts config user).spec mine others) (next value) Q
            (y.next config user (.lockouts purpose command) answer)
        | .error e => Q (.error e) (y.next config user (.lockouts purpose command) answer)) :
    wpE (Program.among (attempts config user).spec mine others)
      (ask purpose command >>= next) Q attempt := by
  rw [wpE_bind]
  intro y moved
  obtain ⟨allowed, leads⟩ := each y moved
  refine ⟨allowed, fun answer => ?_⟩
  have led := leads answer
  cases answer <;> exact led

variable {mine others : Attempt → Attempt → Prop}

theorem blocked_ite (c : Prop) [Decidable c] (phase : Phase) :
    (if c then { attempt with phase } else attempt).blocked = attempt.blocked := by
  split <;> rfl

open AccountLockoutService in
theorem wpE_lockedStatus (refl : ∀ x, mine x x) {purpose : Purpose} (looks : purpose ≠ .clear)
    (lockKey : Key) : wpE (Program.among (attempts config user).spec mine others)
      (lockedStatus config purpose lockKey)
      (fun r _ => ∀ status, r = .ok status → status.isLocked = true) attempt := by
  refine wpE_ask fun y moved => ?_
  have allowed : y.allowed user (.lockouts purpose (.ttl lockKey)) := by
    cases purpose with
    | check | record => trivial
    | clear => exact absurd rfl looks
  have same (answer : Call.Answer (.lockouts purpose (.ttl lockKey))) :
      y.next config user (.lockouts purpose (.ttl lockKey)) answer = y := by
    cases purpose <;> rfl
  refine ⟨allowed, fun answer => ?_⟩
  rw [same]
  refine ⟨refl y, ?_⟩
  cases answer with
  | error e => exact fun _ never => by cases never
  | ok ttl =>
    change wpE _ (dateNow >>= _) _ y
    rw [wpE_bind]
    refine fun z moved => ⟨trivial, fun now => ⟨refl z, ?_⟩⟩
    cases now with
    | error e => exact fun _ never => by cases never
    | ok time =>
      intro status returned
      cases returned
      rfl

/-- An account that is found unlocked lets the attempt through. -/
def Admits (user userId : String) (r : Except Failure LockoutStatus) (after : Attempt) : Prop :=
  ∀ status, r = .ok status → status.isLocked = false →
    after.phase = if userId = user then .admitted else .outside

/-- An address that is found unlocked blocks nothing. -/
def Passes (blocked : Bool) (r : Except Failure LockoutStatus) (after : Attempt) : Prop :=
  ∀ status, r = .ok status → status.isLocked = false → after.blocked = blocked

theorem Admits.stable (userId : String) (r : Except Failure LockoutStatus) (x y : Attempt)
    (admits : Admits user userId r x) (kept : KeepsPhase x y) : Admits user userId r y :=
  fun status returned unlocked => Eq.trans kept (admits status returned unlocked)

theorem Passes.stable (blocked : Bool) (r : Except Failure LockoutStatus) (x y : Attempt)
    (passes : Passes blocked r x) (kept : KeepsBlocked x y) : Passes blocked r y :=
  fun status returned unlocked => Eq.trans kept (passes status returned unlocked)

theorem checkUserStatus_admits (userId : String) (outside : attempt.phase = .outside) :
    wpE (accountPart config user) (AccountLockoutService.checkUserStatus config userId)
      (Admits user userId) attempt := by
  refine wpE_ask fun y moved => ?_
  have outside' : y.phase = .outside := Eq.trans moved outside
  refine ⟨fun _ => outside', fun answer => ?_⟩
  cases answer with
  | error e => exact ⟨KeepsBlocked.refl y, fun _ never => by cases never⟩
  | ok isLocked =>
    cases isLocked with
    | true =>
      refine ⟨KeepsBlocked.refl y, wpE_mono ?_ ?_ (wpE_lockedStatus KeepsBlocked.refl ?_ _)⟩
      · exact Program.among_monotone (Protocol.spec_monotone _) _ _
      · intro r after locked status returned unlocked
        exact absurd (locked status returned) (by rw [unlocked]; decide)
      · decide
    | false =>
      let admitted := y.check user (.exists' (.userLock userId)) (.ok false)
      have kept : KeepsBlocked y admitted := blocked_ite _ _
      have through : admitted.phase = if userId = user then .admitted else .outside := by
        change (if _ then _ else _ : Attempt).phase = _
        split
        · rfl
        · exact outside'
      refine ⟨kept, wpE_ask fun z moved => ⟨trivial, fun found => ?_⟩⟩
      cases found with
      | error e =>
        refine ⟨?_, fun _ never => by cases never⟩
        change (if _ then _ else _ : Attempt).blocked = z.blocked
        split
        · exact z.leave_blocked
        · rfl
      | ok found => exact ⟨KeepsBlocked.refl z, fun _ _ _ => Eq.trans moved through⟩

theorem checkIpStatus_blocks (ip : String) :
    wpE (addressPart config user) (AccountLockoutService.checkIpStatus config ip)
      (Passes attempt.blocked) attempt := by
  refine wpE_ask fun y moved => ?_
  refine ⟨⟨by simp [Command.key], by simp [Command.key]⟩, fun answer => ?_⟩
  cases answer with
  | error e => exact ⟨KeepsPhase.refl y, fun _ never => by cases never⟩
  | ok isLocked =>
    cases isLocked with
    | true =>
      refine ⟨KeepsPhase.refl y, wpE_mono ?_ ?_ (wpE_lockedStatus KeepsPhase.refl ?_ _)⟩
      · exact Program.among_monotone (Protocol.spec_monotone _) _ _
      · intro r after locked status returned unlocked
        exact absurd (locked status returned) (by rw [unlocked]; decide)
      · decide
    | false =>
      refine ⟨KeepsPhase.refl y, wpE_ask fun z moved' => ⟨trivial, fun found => ?_⟩⟩
      cases found with
      | error e => exact ⟨KeepsPhase.refl z, fun _ never => by cases never⟩
      | ok found =>
        refine ⟨KeepsPhase.refl z, fun _ _ _ => ?_⟩
        exact Eq.trans moved' moved

theorem checkStatus_none (ip : String) :
    wpE (attempts config user).spec (AccountLockoutService.checkStatus config none ip)
      (fun r after => Passes attempt.blocked r after ∧ KeepsPhase attempt after) attempt := by
  have address : wpE (addressPart config user) (AccountLockoutService.checkIpStatus config ip)
      (Passes attempt.blocked) attempt := checkIpStatus_blocks ip
  have alone := Program.wp_of_among (P := KeepsPhase attempt) (Protocol.spec_monotone _)
    KeepsBlocked.refl (Passes.stable attempt.blocked) (KeepsPhase.trans attempt)
    (KeepsBlocked.refl attempt) (KeepsPhase.refl attempt) address
  rw [AccountLockoutService.checkStatus, wpE_bind]
  refine wpE_mono (Protocol.spec_monotone _) (fun r after ended => ?_) alone
  cases r with
  | error e => exact ⟨(fun _ never => by cases never), ended.2⟩
  | ok status =>
    refine ⟨fun status' returned unlocked => ended.1 status rfl ?_, ended.2⟩
    cases returned
    rwa [mergeStatus_singleton] at unlocked

theorem checkStatus_some (userId ip : String) (begun : attempt = .begun) :
    wpE (attempts config user).spec (AccountLockoutService.checkStatus config (some userId) ip)
      (fun r after => ∀ status, r = .ok status → status.isLocked = false →
        after = ⟨if userId = user then .admitted else .outside, false⟩) attempt := by
  subst begun
  have account : wpE (accountPart config user)
      (AccountLockoutService.checkUserStatus config userId) (Admits user userId) .begun :=
    checkUserStatus_admits userId rfl
  have address : wpE (addressPart config user) (AccountLockoutService.checkIpStatus config ip)
      (Passes false) .begun := checkIpStatus_blocks ip
  have checked := wpE_all (Admits.stable userId) (Passes.stable false) account address
  rw [AccountLockoutService.checkStatus, wpE_bind]
  refine wpE_mono (Protocol.spec_monotone _) (fun r after ended => ?_) checked
  obtain ⟨account, address, rfl, admitted, unblocked⟩ := ended
  cases account with
  | error e => exact fun _ never => by cases never
  | ok account =>
    cases address with
    | error e => exact fun _ never => by cases never
    | ok address =>
      intro status returned unlocked
      cases returned
      obtain ⟨first, second⟩ := unlocked_of_merge unlocked
      have phase := admitted account rfl first
      have blocked := unblocked address rfl second
      obtain ⟨phase', blocked'⟩ := after
      cases phase
      cases blocked
      rfl

theorem wpE_dateNow (refl : ∀ x, mine x x) (next : Int → LockoutStatus) :
    wpE (Program.among (attempts config user).spec mine others)
      (dateNow >>= fun now => pure (next now)) (fun _ _ => True) attempt := by
  rw [wpE_bind]
  refine fun y moved => ⟨trivial, fun now => ⟨refl y, ?_⟩⟩
  cases now <;> trivial

/-- Locking the account, and removing its counter. -/
theorem lock_follows (userId : String) (ttl : Option Int) (next : Int → LockoutStatus)
    (reached : userId = user → attempt.phase = .reached) :
    wpE (accountPart config user) (do
      ask .record (.set (.userLock userId) (.other "locked") ttl)
      ask .record (.del (.userAttempts userId))
      let now ← dateNow
      return next now) (fun _ _ => True) attempt := by
  refine wpE_ask fun y moved => ?_
  refine ⟨fun same => Eq.trans moved (reached same), fun answer => ?_⟩
  cases answer with
  | error e => exact ⟨blocked_ite _ _, trivial⟩
  | ok _ =>
    refine ⟨blocked_ite _ _, wpE_ask fun z moved => ?_⟩
    refine ⟨fun same => Eq.trans moved ?_, fun answer => ?_⟩
    · change (if _ then _ else _ : Attempt).phase = _
      rw [if_pos same]
    · cases answer with
      | error e => exact ⟨blocked_ite _ _, trivial⟩
      | ok _ => exact ⟨blocked_ite _ _, wpE_dateNow KeepsBlocked.refl next⟩

/-- The attempt on the account is counted after the comparison. -/
theorem recordUserFailedAttempt_follows (userId : String)
    (compared : userId = user → attempt.phase = .compared) :
    wpE (accountPart config user) (AccountLockoutService.recordUserFailedAttempt config userId)
      (fun _ _ => True) attempt := by
  refine wpE_ask fun y moved => ?_
  have compared' (same : userId = user) : y.phase = .compared := Eq.trans moved (compared same)
  refine ⟨compared', fun answer => ?_⟩
  cases answer with
  | error e => exact ⟨KeepsBlocked.refl y, trivial⟩
  | ok isLocked =>
    cases isLocked with
    | true =>
      refine ⟨?_, wpE_mono ?_ (fun _ _ _ => trivial)
        (wpE_lockedStatus KeepsBlocked.refl (by decide) _)⟩
      · exact blocked_ite _ _
      · exact Program.among_monotone (Protocol.spec_monotone _) _ _
    | false =>
      refine ⟨KeepsBlocked.refl y, wpE_ask fun z moved => ?_⟩
      refine ⟨fun same => Eq.trans moved (compared' same), fun answer => ?_⟩
      cases answer with
      | error e => exact ⟨KeepsBlocked.refl z, trivial⟩
      | ok attempts =>
        refine ⟨blocked_ite _ _, ?_⟩
        dsimp only
        rw [wpE_ite]
        split
        · rename_i full
          refine lock_follows userId _ _ fun same => ?_
          change (if _ then _ else _ : Attempt).phase = _
          rw [if_pos same]
          exact if_pos full
        · trivial

/-- What is on other keys may be asked at any time, and tells nothing. -/
theorem allowed_of_ne {purpose : Purpose} {command : Command Key}
    (other : command.key ≠ .userAttempts user) (other' : command.key ≠ .userLock user) :
    attempt.allowed user (.lockouts purpose command) := by
  unfold Attempt.allowed
  split <;> simp_all [Command.key]

theorem record_of_ne {command : Command Key} (other : command.key ≠ .userAttempts user)
    (other' : command.key ≠ .userLock user)
    (answer : Except Failure command.Answer) :
    attempt.record config user command answer = attempt := by
  unfold Attempt.record
  split <;> simp_all [Command.key]

theorem free_on_ip {purpose : Purpose} {ip : String} (command : Command Key)
    (_ : Sends command) (on : AccountLockoutService.On (.ipAttempts ip) (.ipLock ip) command) :
    Free user (.lockouts purpose command) := by
  intro attempt
  refine allowed_of_ne ?_ ?_
  all_goals rcases on with same | same
  all_goals simp [same]

theorem recordIpFailedAttempt_follows (ip : String) :
    wpE (addressPart config user) (AccountLockoutService.recordIpFailedAttempt config ip)
      (fun _ _ => True) attempt := by
  have only : OnlyE (fun op => Free user op ∧ ∀ (y : Attempt) r,
      KeepsPhase y (y.next config user op r))
      (AccountLockoutService.recordIpFailedAttempt config ip) := by
    refine AccountLockoutService.onlyE_recordAttempt not_false trivial
      ⟨fun _ => trivial, fun _ _ => rfl⟩ fun command sends on => ?_
    refine ⟨free_on_ip command sends on, fun y r => ?_⟩
    have same : y.record config user command r = y := by
      refine record_of_ne ?_ ?_ r
      all_goals rcases on with key | key
      all_goals simp [key]
    exact congrArg Attempt.phase same
  obtain ⟨only⟩ := only
  change Program.wp _ _ _ _
  generalize (AccountLockoutService.recordIpFailedAttempt config ip).run = program at only
  induction program generalizing attempt with
  | done a => trivial
  | call op next ih =>
    exact fun y _ => ⟨only.1.1 y, fun r => ⟨only.1.2 y r, ih r (only.2 r)⟩⟩

theorem recordFailedAttempt_follows (userId ip : String)
    (compared : userId = user → attempt.phase = .compared) :
    wpE (attempts config user).spec
      (AccountLockoutService.recordFailedAttempt config (some userId) ip)
      (fun _ _ => True) attempt := by
  rw [AccountLockoutService.recordFailedAttempt, wpE_bind]
  refine wpE_mono (Protocol.spec_monotone _) (fun r after _ => ?_)
    (wpE_all (fun _ _ _ _ _ => trivial) (fun _ _ _ _ _ => trivial)
      (recordUserFailedAttempt_follows userId compared) (recordIpFailedAttempt_follows ip))
  cases r <;> trivial

/-- What only reads elsewhere tells nothing. -/
theorem wpE_plain {p : Auth.Method α} (only : OnlyE Plain p)
    {Q : Except AuthError α → Attempt → Prop} (ends : ∀ r, Q r attempt) :
    wpE (attempts config user).spec (asIs p) Q attempt := by
  have told : OnlyE (fun op => ∃ op', op = .auth op' ∧ Plain op') (asIs p) :=
    only.interpretE fun op plain => ⟨⟨op, rfl, plain⟩, fun _ => trivial⟩
  refine told.wpE (fun op only Q always => ?_) ends
  obtain ⟨op, rfl, plain⟩ := only
  refine ⟨trivial, fun r => ?_⟩
  have same : attempt.next config user (.auth op) r = attempt := by
    cases op with
    | verifyCaptcha _ _ => exact plain.elim
    | _ => rfl
  change Q r (attempt.next config user (.auth op) r)
  rw [same]
  exact always r

/-- Who passes the captcha goes on as before. -/
theorem passCaptcha_follows (d : Deployment) (failed : Nat) (token : Option String) (ip : String) :
    wpE (attempts config user).spec (asIs (Auth.AuthService.passCaptcha d failed token ip))
      (fun r after => ∀ u, r = .ok u → after = attempt) attempt := by
  rw [asIs, Auth.AuthService.passCaptcha, interpretE_ite, wpE_ite]
  split
  · rw [interpretE_bind, wpE_bind]
    refine ⟨trivial, fun answer => ?_⟩
    cases answer with
    | error e => exact fun _ never => by cases never
    | ok success =>
      cases success with
      | true => exact fun _ _ => rfl
      | false => exact fun _ never => by cases never
  · exact fun _ _ => rfl

theorem clearOnSuccess_follows (userId ip : String)
    (entered : userId = user → attempt.phase = .entered) :
    wpE (attempts config user).spec (AccountLockoutService.clearOnSuccess userId ip)
      (fun _ after => after = attempt) attempt := by
  have only : OnlyE (fun op => attempt.allowed user op ∧
      ∀ r, attempt.next config user op r = attempt)
      (AccountLockoutService.clearOnSuccess userId ip) := by
    refine AccountLockoutService.onlyE_clearOnSuccess ⟨trivial, fun _ => rfl⟩ ?_
    intro command _ on
    refine ⟨fun mine => entered ?_, fun _ => rfl⟩
    rcases on with (key | key) | key | key
    all_goals simp only [key, reduceCtorEq, or_self, Key.userAttempts.injEq, or_false,
      Key.userLock.injEq, false_or] at mine
    all_goals exact mine
  refine only.wpE (fun op both Q always => ⟨both.1, fun r => ?_⟩) fun _ => rfl
  change Q r (attempt.next config user op r)
  rw [both.2 r]
  exact always r

theorem enter_follows (d : Deployment) (account : Auth.User) (ip : String)
    (entered : account.id = user → attempt.phase = .entered) :
    wpE (attempts config user).spec (AuthService.enter d account ip) (fun _ _ => True)
      attempt := by
  rw [AuthService.enter, wpE_ite]
  split
  · trivial
  · rw [wpE_bind]
    refine wpE_plain (plain_hasActiveBan account.id) fun answer => ?_
    cases answer with
    | error e => trivial
    | ok banned =>
      dsimp only
      rw [wpE_ite]
      split
      · trivial
      · rw [wpE_bind, wpE_served]
        refine wpE_mono (Protocol.spec_monotone _) (fun r after same => ?_)
          (clearOnSuccess_follows account.id ip entered)
        cases r with
        | error e => trivial
        | ok _ =>
          change wpE _ (asIs _ >>= _) _ _
          rw [wpE_bind]
          refine wpE_plain (plain_generateTokens d account) fun tokens => ?_
          cases tokens <;> trivial

theorem recordFailedAttempt_none_follows (ip : String) :
    wpE (attempts config user).spec (AccountLockoutService.recordFailedAttempt config none ip)
      (fun _ _ => True) attempt := by
  have address : wpE (addressPart config user)
      (AccountLockoutService.recordIpFailedAttempt config ip) (fun _ _ => True) attempt :=
    recordIpFailedAttempt_follows ip
  have alone := Program.wp_of_among (P := fun _ => True) (Protocol.spec_monotone _)
    KeepsBlocked.refl (fun _ _ _ _ _ => trivial) (fun _ _ _ _ => trivial)
    (KeepsBlocked.refl attempt) trivial address
  rw [AccountLockoutService.recordFailedAttempt, wpE_bind]
  refine wpE_mono (Protocol.spec_monotone _) (fun r after _ => ?_) alone
  cases r <;> trivial

/-- What comes after a wrong password, or after none. -/
theorem refused_follows (userId : Option String) (ip : String)
    (compared : userId = some user → attempt.phase = .compared) :
    wpE (attempts config user).spec (do
      let _ ← served (AccountLockoutService.recordFailedAttempt config userId ip)
      throw (.unauthorized "Invalid email or password") : Method AuthResponseDto)
      (fun _ _ => True) attempt := by
  have recorded : wpE (attempts config user).spec
      (AccountLockoutService.recordFailedAttempt config userId ip) (fun _ _ => True) attempt := by
    cases userId with
    | none => exact recordFailedAttempt_none_follows ip
    | some userId => exact recordFailedAttempt_follows userId ip fun same => compared (by rw [same])
  rw [wpE_bind, wpE_served]
  refine wpE_mono (Protocol.spec_monotone _) (fun r after _ => ?_) recorded
  cases r <;> trivial

/-- What comes after the check of the account. -/
theorem admitted_follows (d : Deployment) (dto : LoginDto) (ip : String) (account : Auth.User)
    (passwordHash : String) (failed : Nat)
    (admitted : account.id = user → attempt = ⟨.admitted, false⟩) :
    wpE (attempts config user).spec (do
      asIs (Auth.AuthService.passCaptcha d failed dto.captchaToken ip)
      let isPasswordValid : Bool ←
        call (.compare account.id (d.compare dto.password passwordHash))
      match isPasswordValid with
      | false => do
        let _ ← served
          (AccountLockoutService.recordFailedAttempt config (some account.id) ip)
        throw (.unauthorized "Invalid email or password")
      | true => AuthService.enter d account ip)
      (fun _ _ => True) attempt := by
  rw [wpE_bind]
  refine wpE_mono (Protocol.spec_monotone _) (fun r after passed => ?_)
    (passCaptcha_follows d failed dto.captchaToken ip)
  cases r with
  | error e => trivial
  | ok u =>
    cases passed u rfl
    change wpE _ (call _ >>= _) _ _
    rw [wpE_bind]
    refine ⟨fun same => ?_, fun answer => ?_⟩
    · rw [admitted same]
      exact ⟨rfl, rfl⟩
    · cases answer with
      | error e => trivial
      | ok valid =>
        cases valid with
        | false =>
          refine refused_follows (some account.id) ip fun same => ?_
          change (if _ then _ else _ : Attempt).phase = _
          rw [if_pos (Option.some.inj same)]
          rfl
        | true =>
          refine enter_follows d account ip fun same => ?_
          change (if _ then _ else _ : Attempt).phase = _
          rw [if_pos same]
          rfl

theorem login_follows (d : Deployment) (dto : LoginDto) (ip : String) :
    (attempts config user).Follows .begun (AuthService.login d config dto ip).run := by
  change wpE (attempts config user).spec (AuthService.login d config dto ip) (fun _ _ => True)
    .begun
  rw [AuthService.login, wpE_bind, wpE_served]
  refine wpE_mono (Protocol.spec_monotone _) (fun r after checked => ?_) (checkStatus_none ip)
  cases r with
  | error e => trivial
  | ok lockoutStatus =>
    change wpE _ (if lockoutStatus.isLocked = true then _ else _) _ _
    rw [wpE_ite]
    split
    · rw [wpE_bind]
      refine wpE_plain (plain_lockoutRemainingMinutes _) fun minutes => ?_
      cases minutes <;> trivial
    · rename_i unlocked
      have begun : after = .begun := by
        obtain ⟨phase, blocked⟩ := after
        cases checked.2
        cases checked.1 lockoutStatus rfl (by simpa using unlocked)
        rfl
      subst begun
      rw [wpE_bind]
      refine ⟨trivial, fun found => ?_⟩
      cases found with
      | error e => trivial
      | ok found =>
        dsimp only [Program.wp_done, Except.mapError]
        cases Auth.AuthService.credentials found with
        | none => exact refused_follows none ip fun never => by cases never
        | some found =>
          obtain ⟨account, passwordHash⟩ := found
          dsimp only
          rw [wpE_bind, wpE_served]
          refine wpE_mono (Protocol.spec_monotone _) (fun r after checked => ?_)
            (checkStatus_some account.id ip rfl)
          cases r with
          | error e => trivial
          | ok status =>
            change wpE _ (if status.isLocked = true then _ else _) _ _
            rw [wpE_ite]
            split
            · rw [wpE_bind]
              refine wpE_plain (plain_lockoutRemainingMinutes _) fun minutes => ?_
              cases minutes <;> trivial
            · rename_i unlocked
              refine admitted_follows d dto ip account passwordHash _ fun same => ?_
              rw [checked status rfl (by simpa using unlocked), if_pos same]

variable (config user) in
/-- Logins that are not begun. -/
theorem follow_pool (d : Deployment) (world : World) (logins : List (LoginDto × String)) :
    Pool.Follow (tries config user) (List.replicate logins.length .begun)
      (pool d config world logins) := by
  have each : ∀ p ∈ logins.map fun login => (AuthService.login d config login.1 login.2).run,
      (tries config user).Follows .begun p := by
    intro p member
    obtain ⟨login, -, rfl⟩ := List.mem_map.mp member
    exact Protocol.follows_within (login_follows d login.1 login.2)
      (onlyE_login d login.1 login.2).only
  have follow := Pool.follow_replicate each world
  rwa [List.length_map] at follow

end Following

end Lockout
