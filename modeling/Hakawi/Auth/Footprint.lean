import Hakawi.Auth.Service

/-!
# What the operations call

An operation burns at most the token it was presented with, and only a reset and
an upgrade write under the key of an account. Whatever else they do, the account
keeps its row.
-/

namespace Auth

open Common Effects Program
open Moderation.Restrictions (restrictionCacheKey)

/-- Nothing is written. -/
def Call.Reads : Call → Prop
  | .valkey (.get _) | .valkey (.exists' _) => True
  | .valkey _ | .update _ _ | .emit _ => False
  | _ => True

variable (d : Deployment)

def burn (token : String) : Call :=
  .valkey (.set (tokenKey d token) (.other "revoked") (some (refreshBlacklistTtlSeconds d)))

def revokeAll (userId : String) : Call :=
  .valkey (.set (userKey userId) (.other "revoked") (some (refreshBlacklistTtlSeconds d)))

/-- The calls an operation may make. -/
def Operation.May : Operation → Call → Prop
  | login _ _, call => call.Reads
  | refreshTokens candidate, call | logout candidate, call =>
    call.Reads ∨ ∃ token ∈ AuthService.readPresentedRefreshToken candidate, call = burn d token
  | forgotPassword _, call => call.Reads ∨ (∃ id data, call = .update id data) ∨
    (∃ token id, call = .valkey (.set (resetKey token) (.other id) (some 3600))) ∨
    ∃ id email, call = .emit (.passwordResetRequested id email)
  | resetPassword token _, call => call.Reads ∨ (∃ id data, call = .update id data) ∨
    call = .valkey (.del (resetKey token)) ∨ (∃ id, call = revokeAll d id) ∨
    ∃ id, call = .emit (.passwordResetCompleted id)
  | upgradeAccount id target _, call => call.Reads ∨ (∃ data, call = .update id data) ∨
    call = revokeAll d id ∨ ∃ oldType, call = .emit (.userUpgraded id oldType target)

section Execution
variable {choice : Choice} {world : World}

theorem exec_valkey (command : Command String) :
    exec choice world (.valkey command) = match choice.outcome with
      | .performed => World.perform choice
          { world with clock := world.clock + choice.elapsed } (.valkey command)
      | .refused => (.error disconnected, { world with clock := world.clock + choice.elapsed })
      | .lost => (.error disconnected, (World.perform choice
          { world with clock := world.clock + choice.elapsed } (.valkey command)).2) := by
  cases performed : choice.outcome <;> simp only [exec, Call.mayFail, performed]

variable (choice world) in
/-- The store is as it was, or one command was performed. -/
theorem store_cases (call : Call) :
    (exec choice world call).2.store = world.store ∨ ∃ command, call = .valkey command ∧
      (exec choice world call).2.store =
        (world.store.exec (world.clock + choice.elapsed) command).2 := by
  cases call with
  | valkey command =>
    rw [exec_valkey]
    cases choice.outcome with
    | performed => exact Or.inr ⟨command, rfl, rfl⟩
    | refused => exact Or.inl rfl
    | lost => exact Or.inr ⟨command, rfl, rfl⟩
  | _ =>
    left
    cases performed : choice.outcome <;> simp only [exec, Call.mayFail, performed, World.perform]

theorem exec_clock (call : Call) :
    (exec choice world call).2.clock = world.clock + choice.elapsed := by
  cases call <;> cases performed : choice.outcome <;>
    simp only [exec, Call.mayFail, performed, World.perform]

variable (choice world) in
/-- The events are as they were, or one was emitted. -/
theorem events_cases (call : Call) :
    (exec choice world call).2.events = world.events ∨ ∃ event, call = .emit event ∧
      (exec choice world call).2.events = world.events ++ [event] := by
  cases call with
  | emit event =>
    cases performed : choice.outcome <;> simp [exec, Call.mayFail, performed, World.perform]
  | _ =>
    left
    cases performed : choice.outcome <;> simp only [exec, Call.mayFail, performed, World.perform]

variable (choice world) in
/-- The users are as they were, or one row was updated. -/
theorem users_cases (call : Call) :
    (exec choice world call).2.users = world.users ∨ ∃ id data,
      (exec choice world call).2.users =
        world.users.map fun user => if user.id = id then user.update data else user := by
  cases call with
  | update id data =>
    cases performed : choice.outcome <;> simp only [exec, Call.mayFail, performed, World.perform]
    · exact Or.inr ⟨id, data, rfl⟩
    · exact Or.inl trivial
    · exact Or.inr ⟨id, data, rfl⟩
  | _ =>
    left
    cases performed : choice.outcome <;> simp only [exec, Call.mayFail, performed, World.perform]

end Execution

section Calls
variable {A : Call → Prop}

theorem onlyE_call {op : Call} (within : A op) : OnlyE A (call op) :=
  ⟨⟨within, fun _ => trivial⟩⟩

theorem onlyE_next {β : Type} {op : Call} {next : op.Value → Method β} (within : A op)
    (rest : ∀ value, OnlyE A (next value)) : OnlyE A (call op >>= next) :=
  (onlyE_call within).bind rest

set_option maxRecDepth 4000 in
unseal trim parseDurationToMs in
/-- The two services keep their entries for the same time. -/
theorem upgrade_ttl : ((parseDurationToMs d.refreshExpiry).getD 604800000 + 999) / 1000 =
    refreshBlacklistTtlSeconds d := by
  have default : parseDurationToMs DEFAULT_REFRESH_EXPIRY = some 604800000 := by decide
  rw [refreshBlacklistTtlSeconds]
  generalize parseDurationToMs d.refreshExpiry = parsed
  cases parsed with
  | none => rw [default, Option.getD_none, Option.getD_some]
  | some lifetimeMs => rw [Option.getD_some]

theorem timed_only (expiresIn : String) (claims : Claims) :
    OnlyE (· = .now) (timed d expiresIn claims) := by
  rw [timed]
  refine onlyE_next (by rfl) fun now => ?_
  split
  · exact onlyE_throw _
  · exact onlyE_pure _

theorem generateTokens_only (user : User) : OnlyE (· = .now) (AuthService.generateTokens d user) :=
  ((timed_only d _ _).bind fun _ => onlyE_pure _).bind fun _ =>
    ((timed_only d _ _).bind fun _ => onlyE_pure _).bind fun _ => onlyE_pure _

theorem verifyPresented_only (token : String) :
    OnlyE (· = .now) (AuthService.verifyPresented d token) := by
  rw [AuthService.verifyPresented, verifyRefreshToken]
  refine OnlyE.tryCatch ?_ fun _ => onlyE_throw _
  refine OnlyE.bind ?_ fun token => onlyE_next (by rfl) fun now => ?_
  · rw [assertUsableToken]
    split
    · exact onlyE_throw _
    · exact onlyE_pure _
  · split
    · exact onlyE_throw _
    · split
      · exact onlyE_throw _
      · exact onlyE_pure _

theorem hasActiveBan_only (userId : String) :
    OnlyE (· = .valkey (.get (restrictionCacheKey userId))) (hasActiveBan userId) :=
  OnlyE.tryCatch (onlyE_next (by rfl) fun _ => onlyE_pure _) fun _ => onlyE_pure _

end Calls

section Operations

theorem reads_of_now : ∀ call, call = Call.now → call.Reads := by
  rintro _ rfl
  trivial

theorem generateTokens_reads (user : User) : OnlyE Call.Reads (AuthService.generateTokens d user) :=
  (generateTokens_only d user).mono reads_of_now

theorem verifyPresented_reads (token : String) :
    OnlyE Call.Reads (AuthService.verifyPresented d token) :=
  (verifyPresented_only d token).mono reads_of_now

theorem hasActiveBan_reads (userId : String) : OnlyE Call.Reads (hasActiveBan userId) :=
  (hasActiveBan_only userId).mono (by rintro _ rfl; trivial)

theorem lockoutRemainingMinutes_reads (time : Option Int) :
    OnlyE Call.Reads (AuthService.lockoutRemainingMinutes time) := by
  cases time with
  | none => exact onlyE_pure _
  | some time => exact onlyE_next (by trivial) fun _ => onlyE_pure _

theorem passCaptcha_reads (attempts : Nat) (captchaToken : Option String) (clientIp : String) :
    OnlyE Call.Reads (AuthService.passCaptcha d attempts captchaToken clientIp) := by
  rw [AuthService.passCaptcha]
  split
  · refine onlyE_next (by trivial) fun success => ?_
    split
    · exact onlyE_pure _
    · exact onlyE_throw _
  · exact onlyE_pure _

theorem login_only (dto : LoginDto) (clientIp : String) :
    OnlyE Call.Reads (AuthService.login d dto clientIp) := by
  rw [AuthService.login]
  refine onlyE_next (by trivial) fun lockoutStatus => ?_
  split
  · exact (lockoutRemainingMinutes_reads _).bind fun _ => onlyE_throw _
  refine onlyE_next (by trivial) fun found => ?_
  split
  · exact onlyE_next (by trivial) fun _ => onlyE_throw _
  rename_i user passwordHash _
  refine onlyE_next (by trivial) fun userLockoutStatus => ?_
  split
  · exact (lockoutRemainingMinutes_reads _).bind fun _ => onlyE_throw _
  refine (passCaptcha_reads d _ _ _).bind fun _ => ?_
  split
  · exact onlyE_next (by trivial) fun _ => onlyE_throw _
  split
  · exact onlyE_throw _
  refine (hasActiveBan_reads _).bind fun banned => ?_
  split
  · exact onlyE_throw _
  exact onlyE_next (by trivial) fun _ => (generateTokens_reads d user).bind fun _ => onlyE_pure _

theorem rotate_only (token : String) (user : User) :
    OnlyE (fun call => call.Reads ∨ call = burn d token) (AuthService.rotate d token user) :=
  (onlyE_call (Or.inr rfl)).bind fun _ =>
    ((generateTokens_reads d user).mono fun _ => Or.inl).bind fun _ => onlyE_pure _

theorem refreshTokens_only (candidate : Option String) :
    OnlyE ((Operation.refreshTokens candidate).May d) (AuthService.refreshTokens d candidate) := by
  rw [AuthService.refreshTokens]
  split
  · exact onlyE_throw _
  rename_i token presented
  have reads {α : Type} {p : Method α} (only : OnlyE Call.Reads p) :
      OnlyE ((Operation.refreshTokens candidate).May d) p := only.mono fun _ => Or.inl
  have burns : (Operation.refreshTokens candidate).May d (burn d token) :=
    Or.inr ⟨token, presented, rfl⟩
  refine (reads (verifyPresented_reads d token)).bind fun payload => ?_
  refine onlyE_next (Or.inl (by trivial)) fun reused => ?_
  split
  · exact onlyE_throw _
  refine onlyE_next (Or.inl (by trivial)) fun revoked => ?_
  split
  · exact onlyE_throw _
  refine onlyE_next (Or.inl (by trivial)) fun found => ?_
  split
  · exact onlyE_throw _
  rename_i user
  split
  · exact (onlyE_call burns).bind fun _ => onlyE_throw _
  refine (reads (hasActiveBan_reads _)).bind fun banned => ?_
  split
  · exact (onlyE_call burns).bind fun _ => onlyE_throw _
  refine (rotate_only d token user).mono fun call within => ?_
  rcases within with read | rfl
  · exact Or.inl read
  · exact burns

theorem logout_only (candidate : Option String) :
    OnlyE ((Operation.logout candidate).May d) (AuthService.logout d candidate) := by
  rw [AuthService.logout]
  split
  · exact onlyE_pure _
  rename_i token presented
  refine ((verifyPresented_reads d token).mono fun _ => Or.inl).bind fun payload => ?_
  split
  · exact onlyE_throw _
  · exact (onlyE_call (Or.inr ⟨token, presented, rfl⟩)).bind fun _ => onlyE_pure _

theorem forgotPassword_only (email : String) :
    OnlyE ((Operation.forgotPassword email).May d) (AuthService.forgotPassword email) := by
  rw [AuthService.forgotPassword]
  refine onlyE_next (Or.inl (by trivial)) fun found => ?_
  split
  · exact onlyE_pure _
  refine onlyE_next (Or.inl (by trivial)) fun resetToken => ?_
  refine onlyE_next (Or.inl (by trivial)) fun encryptedToken => ?_
  refine onlyE_next (Or.inr (Or.inl ⟨_, _, rfl⟩)) fun _ => ?_
  refine onlyE_next (Or.inr (Or.inr (Or.inl ⟨resetToken, _, rfl⟩))) fun _ => ?_
  exact onlyE_call (Or.inr (Or.inr (Or.inr ⟨_, _, rfl⟩)))

theorem resetPassword_only (token newPassword : String) :
    OnlyE ((Operation.resetPassword token newPassword).May d)
      (AuthService.resetPassword d token newPassword) := by
  rw [AuthService.resetPassword]
  refine onlyE_next (Or.inl (by trivial)) fun stored => ?_
  split
  · exact onlyE_throw _
  refine onlyE_next (Or.inl (by trivial)) fun found => ?_
  split
  · exact onlyE_throw _
  split
  · refine onlyE_next (Or.inl (by trivial)) fun passwordHash => ?_
    refine onlyE_next (Or.inr (Or.inl ⟨_, _, rfl⟩)) fun _ => ?_
    refine onlyE_next (Or.inr (Or.inr (Or.inl rfl))) fun _ => ?_
    refine onlyE_next (Or.inr (Or.inr (Or.inr (Or.inl ⟨_, rfl⟩)))) fun _ => ?_
    exact onlyE_call (Or.inr (Or.inr (Or.inr (Or.inr ⟨_, rfl⟩))))
  · exact onlyE_throw _

theorem passEligibility_reads (id target : String) :
    OnlyE Call.Reads (UsersService.passEligibility id target) := by
  rw [UsersService.passEligibility]
  split
  · refine OnlyE.bind ?_ fun reasons => ?_
    · rw [UsersService.checkProfessionalEligibility]
      refine onlyE_next (by trivial) fun found => ?_
      split
      · exact onlyE_pure _
      · exact onlyE_next (by trivial) fun _ => onlyE_next (by trivial) fun _ =>
          onlyE_next (by trivial) fun _ => onlyE_next (by trivial) fun _ => onlyE_pure _
    · split
      · exact onlyE_pure _
      · exact onlyE_throw _
  · exact onlyE_pure _

theorem revokeRefreshTokens_eq (userId : String) :
    UsersService.revokeRefreshTokens d userId = call (revokeAll d userId) := by
  have writes (ttlSeconds : Nat) (same : ttlSeconds = refreshBlacklistTtlSeconds d) :
      (call (.valkey (.set (userKey userId) (.other "revoked") (some ttlSeconds))) : Method Unit) =
        call (revokeAll d userId) := by
    subst same
    rfl
  exact writes _ (upgrade_ttl d)

theorem upgradeAccount_only (id target : String) (approvedByAdmin : Bool) :
    OnlyE ((Operation.upgradeAccount id target approvedByAdmin).May d)
      (UsersService.upgradeAccount d id target approvedByAdmin) := by
  rw [UsersService.upgradeAccount]
  refine onlyE_next (Or.inl (by trivial)) fun found => ?_
  split
  · exact onlyE_throw _
  split
  · exact onlyE_pure _
  split
  · exact onlyE_throw _
  split
  · exact onlyE_throw _
  split
  · exact onlyE_throw _
  refine ((passEligibility_reads id target).mono fun _ => Or.inl).bind fun _ => ?_
  refine onlyE_next (Or.inr (Or.inl ⟨_, rfl⟩)) fun _ => ?_
  rw [revokeRefreshTokens_eq]
  refine onlyE_next (Or.inr (Or.inr (Or.inl rfl))) fun _ => ?_
  refine onlyE_next (Or.inr (Or.inr (Or.inr ⟨_, rfl⟩))) fun _ => ?_
  refine onlyE_next (Or.inl (by trivial)) fun found => ?_
  split
  · exact onlyE_throw _
  · exact onlyE_pure _

/-- An operation calls what it may. -/
theorem program_only (op : Operation) : OnlyE (op.May d) (op.program d) := by
  cases op with
  | login dto clientIp => exact (login_only d dto clientIp).bind fun _ => onlyE_pure _
  | refreshTokens candidate => exact (refreshTokens_only d candidate).bind fun _ => onlyE_pure _
  | logout candidate => exact (logout_only d candidate).bind fun _ => onlyE_pure _
  | forgotPassword email => exact (forgotPassword_only d email).bind fun _ => onlyE_pure _
  | resetPassword token newPassword =>
    exact (resetPassword_only d token newPassword).bind fun _ => onlyE_pure _
  | upgradeAccount id target approvedByAdmin =>
    exact (upgradeAccount_only d id target approvedByAdmin).bind fun _ => onlyE_pure _

/-- The token that is presented to be exchanged or logged out. -/
def Operation.presented : Operation → Option String
  | refreshTokens candidate | logout candidate => AuthService.readPresentedRefreshToken candidate
  | _ => none

variable {d}

/-- An operation leaves a key that none of its writes can be under. -/
theorem may_entries {op : Operation} {call : Call} (may : op.May d call) {key : String}
    (burns : ∀ token ∈ op.presented, key ≠ tokenKey d token)
    (accounts : ∀ userId, key ≠ userKey userId) (resets : ∀ token, key ≠ resetKey token)
    (choice : Choice) (world : World) :
    (exec choice world call).2.store.entries key = world.store.entries key := by
  rcases store_cases choice world call with same | ⟨command, rfl, performed⟩
  · rw [same]
  rw [performed]
  have reads (read : (Call.valkey command).Reads) :
      (world.store.exec (world.clock + choice.elapsed) command).2 = world.store := by
    cases command with
    | get | exists' => rfl
    | _ => cases read
  have other (differs : key ≠ command.key) :
      (world.store.exec (world.clock + choice.elapsed) command).2.entries key =
        world.store.entries key := Valkey.exec_frame command differs
  cases op with
  | login => rw [reads may]
  | refreshTokens | logout =>
    rcases may with read | ⟨token, presented, same⟩
    · rw [reads read]
    · cases same
      exact other (burns token presented)
  | forgotPassword =>
    rcases may with read | ⟨_, _, same⟩ | ⟨token, _, same⟩ | ⟨_, _, same⟩
    · rw [reads read]
    · cases same
    · cases same
      exact other (resets token)
    · cases same
  | resetPassword token =>
    rcases may with read | ⟨_, _, same⟩ | same | ⟨userId, same⟩ | ⟨_, same⟩
    · rw [reads read]
    · cases same
    · cases same
      exact other (resets token)
    · cases same
      exact other (accounts userId)
    · cases same
  | upgradeAccount userId =>
    rcases may with read | ⟨_, same⟩ | same | ⟨_, same⟩
    · rw [reads read]
    · cases same
    · cases same
      exact other (accounts userId)
    · cases same

end Operations
end Auth
