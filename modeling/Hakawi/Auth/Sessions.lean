import Hakawi.Auth.Footprint

/-!
# The sessions of an account

The operations of the two services one after the other, the store answering, and
a history of one account beside them: which refresh tokens were handed out before
and after its last reset or upgrade, and which of them came to an end. The entry
under the key of the account is what the last reset or upgrade left there.
-/

namespace Auth

open Common Effects Program
open Moderation.Restrictions (restrictionCacheKey)

variable (d : Deployment) (userId : String)

/-- An operation, and what the environment decides while it runs. -/
structure Request where
  operation : Operation
  choices : Nat → Choice
  /-- The store and the database answer. -/
  available : ∀ n, (choices n).outcome = .performed

def World.serve (world : World) (request : Request) : Except AuthError Reply × World :=
  (request.operation.program d).run.eval exec request.choices world

/-- Every session of the account is to end. -/
def Event.Revokes : Event → Prop
  | passwordResetCompleted id | userUpgraded id _ _ => id = userId
  | passwordResetRequested _ _ => False

instance (event : Event) : Decidable (event.Revokes userId) := by
  cases event <;> unfold Event.Revokes <;> infer_instance

structure Sessions where
  /-- The refresh tokens handed out since the last reset or upgrade. -/
  current : List String := []
  /-- Those handed out before it. -/
  earlier : List String := []
  /-- Those that were exchanged or logged out. -/
  ended : List String := []
  /-- When the last reset or upgrade began, and when it was over. -/
  revoked : Option (Int × Int) := none

def handedOut : Except AuthError Reply → Option String
  | .ok (.session response) =>
    if response.id = userId then some response.tokens.refreshToken else none
  | _ => none

def endedBy : Operation → Except AuthError Reply → Option String
  | .refreshTokens candidate, .ok _ | .logout candidate, .ok _ =>
    AuthService.readPresentedRefreshToken candidate
  | _, _ => none

def Sessions.revoke (sessions : Sessions) (before after : World) : Sessions :=
  if ∃ event ∈ after.events.drop before.events.length, event.Revokes userId then
    { sessions with
      current := [], earlier := sessions.current ++ sessions.earlier
      revoked := some (before.clock, after.clock) }
  else sessions

structure System where
  world : World
  sessions : Sessions

def System.step (system : System) (request : Request) : System :=
  let (reply, after) := system.world.serve d request
  let sessions := system.sessions.revoke userId system.world after
  { world := after
    sessions := { sessions with
      current := (handedOut userId reply).toList ++ sessions.current
      ended := (endedBy request.operation reply).toList ++ sessions.ended } }

section Rules
variable {β : Type} {inv : World → Prop} {Q : Except AuthError β → World → Prop} {world : World}

/-- The store and the database answer. -/
def performs : OpSpec Call Call.Answer World := execSpec exec (·.outcome = .performed)

theorem performs_monotone : performs.Monotone := execSpec_monotone _ _

theorem wpE_keep {op : Call} {next : op.Value → Method β} (holds : inv world)
    (keeps : ∀ choice w, inv w → inv (exec choice w op).2)
    (goes : ∀ value w, inv w → wpE performs (next value) Q w)
    (thrown : ∀ e w, inv w → Q (.error e) w) : wpE performs (call op >>= next) Q world := by
  rw [wpE_bind, call, wpE_mk_call]
  intro choice _
  have kept := keeps choice world holds
  cases (exec choice world op).1 with
  | ok value => exact goes value _ kept
  | error e => exact thrown _ _ kept

theorem wpE_keep_only {α : Type} {A : Call → Prop} {p : Method α} {f : α → Method β}
    (only : OnlyE A p) (holds : inv world)
    (keeps : ∀ op, A op → ∀ choice w, inv w → inv (exec choice w op).2)
    (goes : ∀ a w, inv w → wpE performs (f a) Q w)
    (thrown : ∀ e w, inv w → Q (.error e) w) : wpE performs (p >>= f) Q world := by
  rw [wpE_bind]
  refine wpE_mono performs_monotone (fun result w kept => ?_)
    (only.only.wp_inv (fun c s op within => keeps op within c s) holds)
  cases result with
  | ok a => exact goes a w kept
  | error e => exact thrown e w kept

end Rules

section Writes
variable {d : Deployment} {userId : String} {before world : World}

variable (userId) in
/-- Nothing has happened to the sessions of the account. -/
structure Quiet (before world : World) : Prop where
  clock : before.clock ≤ world.clock
  entry : world.store.entries (userKey userId) = before.store.entries (userKey userId)
  events : ∃ news, world.events = before.events ++ news ∧
    ∀ event ∈ news, ¬ event.Revokes userId

variable (d) in
/-- What revokes every token of an account from a time on. -/
def listed (time : Int) : Entry String :=
  ⟨.text (.other "revoked"), if refreshBlacklistTtlSeconds d = 0 then none
    else some (time + refreshBlacklistTtlSeconds d * 1000)⟩

variable (d userId) in
/-- All sessions of the account were revoked, at one time, and that was announced. -/
structure Revoked (before world : World) : Prop where
  entry : ∃ time, before.clock ≤ time ∧ time ≤ world.clock ∧
    world.store.entries (userKey userId) = some (listed d time)
  events : ∃ news, world.events = before.events ++ news ∧ ∃ event ∈ news, event.Revokes userId

variable (userId) in
def Call.Spares : Call → Prop
  | .valkey (.get _) | .valkey (.exists' _) => True
  | .valkey command => userKey userId ≠ command.key
  | .emit event => ¬ event.Revokes userId
  | _ => True

theorem Call.Reads.spares {call : Call} (reads : call.Reads) : call.Spares userId := by
  cases call with
  | valkey command => cases command with
    | get | exists' => trivial
    | _ => cases reads
  | emit => cases reads
  | _ => trivial

theorem Quiet.refl : Quiet userId world world :=
  ⟨le_rfl, rfl, [], (List.append_nil _).symm, by simp⟩

theorem entries_spared {call : Call} (spares : call.Spares userId) (choice : Choice) :
    (exec choice world call).2.store.entries (userKey userId) =
      world.store.entries (userKey userId) := by
  rcases store_cases choice world call with same | ⟨command, rfl, performed⟩
  · rw [same]
  rw [performed]
  cases command with
  | get | exists' => rfl
  | _ => exact Valkey.exec_frame _ spares

theorem Quiet.call {call : Call} (spares : call.Spares userId) (choice : Choice) (world : World)
    (quiet : Quiet userId before world) : Quiet userId before (exec choice world call).2 := by
  obtain ⟨clock, entry, news, events, silent⟩ := quiet
  refine ⟨?_, (entries_spared spares choice).trans entry, ?_⟩
  · rw [exec_clock]
    omega
  · rcases events_cases choice world call with same | ⟨event, rfl, emitted⟩
    · exact ⟨news, same.trans events, silent⟩
    · refine ⟨news ++ [event], by rw [emitted, events, List.append_assoc], ?_⟩
      intro e member
      rcases List.mem_append.mp member with old | new
      · exact silent e old
      · rw [List.mem_singleton.mp new]
        exact spares

theorem Revoked.read {call : Call} (reads : call.Reads) (choice : Choice) (world : World)
    (revoked : Revoked d userId before world) :
    Revoked d userId before (exec choice world call).2 := by
  obtain ⟨⟨time, after, until', entry⟩, news, events, announced⟩ := revoked
  refine ⟨⟨time, after, ?_, (entries_spared reads.spares choice).trans entry⟩, news, ?_, announced⟩
  · rw [exec_clock]
    omega
  · rcases events_cases choice world call with same | ⟨event, rfl, -⟩
    · exact same.trans events
    · cases reads

variable (d userId) in
/-- The entry was written, and is not announced yet. -/
structure Written (before world : World) : Prop where
  entry : ∃ time, before.clock ≤ time ∧ time ≤ world.clock ∧
    world.store.entries (userKey userId) = some (listed d time)
  events : ∃ news, world.events = before.events ++ news

theorem wpE_revokeAll {β : Type} {next : (revokeAll d userId).Value → Method β}
    {Q : Except AuthError β → World → Prop} (quiet : Quiet userId before world)
    (goes : ∀ value w, Written d userId before w → wpE performs (next value) Q w) :
    wpE performs (call (revokeAll d userId) >>= next) Q world := by
  have written (now : Int) : world.store.exec now (.set (userKey userId) (.other "revoked")
      (some (refreshBlacklistTtlSeconds d))) =
        (.ok (), world.store.put (userKey userId) (some (listed d now))) := by
    simp only [Valkey.exec, Valkey.set, listed]
    by_cases zero : refreshBlacklistTtlSeconds d = 0
    · simp only [zero, Nat.cast_zero, if_true, Valkey.written]
      rfl
    · have positive : ¬ (refreshBlacklistTtlSeconds d : Int) < 0 := by omega
      have nonzero : ¬ (refreshBlacklistTtlSeconds d : Int) = 0 := by omega
      simp only [zero, nonzero, positive, if_false, Valkey.written]
      rfl
  rw [wpE_bind, call, wpE_mk_call]
  intro choice performed
  simp only [exec, Call.mayFail, performed, World.perform, revokeAll, written]
  refine goes _ _ ⟨⟨world.clock + choice.elapsed, ?_, le_rfl, Valkey.put_entries_self _⟩, ?_⟩
  · have := quiet.clock
    omega
  · obtain ⟨news, events, -⟩ := quiet.events
    exact ⟨news, events⟩

theorem Written.announce {event : Event} (revokes : event.Revokes userId) {choice : Choice}
    (performed : choice.outcome = .performed) (written : Written d userId before world) :
    Revoked d userId before (exec choice world (.emit event)).2 := by
  obtain ⟨⟨time, after, until', entry⟩, news, events⟩ := written
  simp only [exec, Call.mayFail, performed, World.perform]
  refine ⟨⟨time, after, ?_, entry⟩, news ++ [event], by simp [events], event, by simp, revokes⟩
  dsimp only
  omega

theorem wpE_announce {β : Type} {event : Event} {next : Unit → Method β}
    {Q : Except AuthError β → World → Prop} (revokes : event.Revokes userId)
    (written : Written d userId before world)
    (goes : ∀ w, Revoked d userId before w → wpE performs (next ()) Q w) :
    wpE performs (call (.emit event) >>= next) Q world := by
  rw [wpE_bind, call, wpE_mk_call]
  intro choice performed
  have revoked := written.announce revokes performed
  simp only [exec, Call.mayFail, performed, World.perform] at revoked ⊢
  exact goes _ revoked

variable (d userId) in
/-- The sessions of the account are as they were, or all of them were revoked. -/
def Served (before after : World) : Prop :=
  Quiet userId before after ∨ Revoked d userId before after

theorem spares_revokeAll {id : String} (other : id ≠ userId) :
    (revokeAll d id).Spares userId := fun same => other (userKey_injective same).symm

variable (d userId before) in
theorem resetPassword_serves (token newPassword : String) :
    wpE performs (AuthService.resetPassword d token newPassword) (fun _ => Served d userId before)
      before := by
  have spared {op : Call} (spares : op.Spares userId) (choice : Choice) (w : World) :
      Quiet userId before w → Quiet userId before (exec choice w op).2 :=
    Quiet.call spares choice w
  rw [AuthService.resetPassword]
  refine wpE_keep Quiet.refl (spared (by trivial)) (fun stored w quiet => ?_)
    fun _ _ quiet => Or.inl quiet
  split
  · exact Or.inl quiet
  rename_i id _
  refine wpE_keep quiet (spared (by trivial)) (fun found w quiet => ?_)
    fun _ _ quiet => Or.inl quiet
  split
  · exact Or.inl quiet
  rw [wpE_ite]
  split
  · refine wpE_keep quiet (spared (by trivial)) (fun passwordHash w quiet => ?_)
      fun _ _ quiet => Or.inl quiet
    refine wpE_keep quiet (spared (by trivial)) (fun _ w quiet => ?_)
      fun _ _ quiet => Or.inl quiet
    refine wpE_keep quiet (spared (resetKey_ne_userKey _ _).symm) (fun _ w quiet => ?_)
      fun _ _ quiet => Or.inl quiet
    by_cases own : id = userId
    · subst own
      have announced : (Event.passwordResetCompleted id).Revokes id := rfl
      exact wpE_revokeAll quiet fun _ w written choice performed =>
        Or.inr (written.announce announced performed)
    · refine wpE_keep quiet (spared (spares_revokeAll own)) (fun _ w quiet => ?_)
        fun _ _ quiet => Or.inl quiet
      have silent : (Call.emit (.passwordResetCompleted id)).Spares userId := own
      exact fun choice _ => Or.inl (spared silent choice w quiet)
  · exact Or.inl quiet

variable (d userId before) in
theorem upgradeAccount_serves (id target : String) (approvedByAdmin : Bool) :
    wpE performs (UsersService.upgradeAccount d id target approvedByAdmin) (fun _ => Served d userId before)
      before := by
  have spared {op : Call} (spares : op.Spares userId) (choice : Choice) (w : World) :
      Quiet userId before w → Quiet userId before (exec choice w op).2 :=
    Quiet.call spares choice w
  rw [UsersService.upgradeAccount]
  refine wpE_keep Quiet.refl (spared (by trivial)) (fun found w quiet => ?_)
    fun _ _ quiet => Or.inl quiet
  split
  · exact Or.inl quiet
  simp only [wpE_ite]
  split
  · exact Or.inl quiet
  split
  · exact Or.inl quiet
  split
  · exact Or.inl quiet
  split
  · exact Or.inl quiet
  refine wpE_keep_only (passEligibility_reads id target) quiet
    (fun _ reads => spared reads.spares) (fun _ w quiet => ?_) fun _ _ quiet => Or.inl quiet
  refine wpE_keep quiet (spared (by trivial)) (fun _ w quiet => ?_) fun _ _ quiet => Or.inl quiet
  rw [revokeRefreshTokens_eq]
  by_cases own : id = userId
  · subst own
    refine wpE_revokeAll quiet fun _ w written => ?_
    refine wpE_announce rfl written fun w revoked => ?_
    refine wpE_keep revoked (fun choice w => Revoked.read (by trivial) choice w)
      (fun found w revoked => ?_) fun _ _ revoked => Or.inr revoked
    split
    · exact Or.inr revoked
    · exact Or.inr revoked
  · refine wpE_keep quiet (spared (spares_revokeAll own)) (fun _ w quiet => ?_)
      fun _ _ quiet => Or.inl quiet
    refine wpE_keep quiet (spared own) (fun _ w quiet => ?_) fun _ _ quiet => Or.inl quiet
    refine wpE_keep quiet (spared (by trivial)) (fun found w quiet => ?_)
      fun _ _ quiet => Or.inl quiet
    split
    · exact Or.inl quiet
    · exact Or.inl quiet

/-- The other operations have nothing to do with the sessions of an account as a whole. -/
theorem may_spares {op : Operation} {call : Call} (may : op.May d call)
    (other : ∀ token newPassword, op ≠ .resetPassword token newPassword)
    (other' : ∀ id target approvedByAdmin, op ≠ .upgradeAccount id target approvedByAdmin) :
    call.Spares userId := by
  cases op with
  | login => exact Call.Reads.spares may
  | refreshTokens | logout =>
    rcases may with reads | ⟨token, -, rfl⟩
    · exact reads.spares
    · exact (tokenKey_ne_userKey d token userId).symm
  | forgotPassword =>
    rcases may with reads | ⟨_, _, rfl⟩ | ⟨token, _, rfl⟩ | ⟨_, _, rfl⟩
    · exact reads.spares
    · trivial
    · exact (resetKey_ne_userKey token userId).symm
    · exact id
  | resetPassword token newPassword => exact absurd rfl (other token newPassword)
  | upgradeAccount id target approvedByAdmin => exact absurd rfl (other' id target approvedByAdmin)

theorem program_serves (op : Operation) :
    wpE performs (op.program d) (fun _ => Served d userId before) before := by
  have quiet (other : ∀ token newPassword, op ≠ .resetPassword token newPassword)
      (other' : ∀ id target approvedByAdmin, op ≠ .upgradeAccount id target approvedByAdmin) :
      wpE performs (op.program d) (fun _ => Served d userId before) before :=
    wpE_mono performs_monotone (fun _ _ => Or.inl)
      ((program_only d op).only.wp_inv
        (fun c s _ may => Quiet.call (may_spares may other other') c s) Quiet.refl)
  cases op with
  | resetPassword token newPassword =>
    rw [Operation.program, wpE_bind]
    refine wpE_mono performs_monotone (fun result w served => ?_)
      (resetPassword_serves d userId before token newPassword)
    cases result <;> exact served
  | upgradeAccount id target approvedByAdmin =>
    rw [Operation.program, wpE_bind]
    refine wpE_mono performs_monotone (fun result w served => ?_)
      (upgradeAccount_serves d userId before id target approvedByAdmin)
    cases result <;> exact served
  | _ => exact quiet (by simp) (by simp)

variable (d userId) in
/-- What a request leaves of the sessions of an account. -/
theorem serve_cases (world : World) (request : Request) :
    Quiet userId world (world.serve d request).2 ∨ Revoked d userId world (world.serve d request).2 :=
  eval_of_wp (program_serves request.operation) request.available

end Writes

section Tokens
variable {d : Deployment} {userId : String}

/-- A token says what was signed. -/
def Deployment.Verifies (d : Deployment) : Prop :=
  ∀ claims, d.decodeRefresh (d.signRefresh claims) = some claims

/-- The configured durations are durations to the token library. -/
def Deployment.Signs (d : Deployment) : Prop :=
  (d.ms d.expiry).isSome ∧ (d.ms d.refreshExpiry).isSome

variable (d userId) in
/-- A refresh token of the account, from a deployment that can sign. -/
structure IsOf (token : String) : Prop where
  decodes : ∃ claims, d.decodeRefresh token = some claims ∧ claims.sub = userId
  signs : d.Signs

theorem timed_returns (expiresIn : String) (claims : Claims) :
    Returns (fun signed => signed.sub = claims.sub ∧ (d.ms expiresIn).isSome)
      (timed d expiresIn claims) := by
  rw [timed]
  refine returns_bind fun now => ?_
  split
  · exact returns_throw _
  · rename_i exp expires
    refine returns_pure ⟨rfl, ?_⟩
    rw [expiresAt] at expires
    cases given : d.ms expiresIn with
    | none =>
      rw [given] at expires
      cases expires
    | some lifetimeMs => rfl

theorem generateTokens_returns (verifies : d.Verifies) (user : User) :
    Returns (fun tokens => IsOf d user.id tokens.refreshToken)
      (AuthService.generateTokens d user) := by
  rw [AuthService.generateTokens]
  have access (claims : Claims) :
      Returns (fun _ => (d.ms d.expiry).isSome) (generateAccessToken d claims) :=
    (timed_returns d.expiry claims).bind fun _ signed => returns_pure signed.2
  have refresh (claims : Claims) : Returns (fun token => (d.ms d.refreshExpiry).isSome ∧
      ∃ said, d.decodeRefresh token = some said ∧ said.sub = claims.sub)
      (generateRefreshToken d claims) :=
    (timed_returns d.refreshExpiry _).bind fun signed same =>
      returns_pure ⟨same.2, signed, verifies signed, same.1⟩
  refine (access _).bind fun accessToken signs => ?_
  refine (refresh _).bind fun refreshToken decodes => ?_
  exact returns_pure ⟨decodes.2, signs, decodes.1⟩

variable (d) in
/-- The refresh token of a response is one of its account. -/
def Genuine (response : AuthResponseDto) : Prop := IsOf d response.id response.tokens.refreshToken

theorem response_genuine (verifies : d.Verifies) (user : User) :
    Returns (Genuine d) (do
      return AuthService.response user (← AuthService.generateTokens d user)) :=
  (generateTokens_returns verifies user).bind fun _ isOf => returns_pure isOf

theorem login_genuine (verifies : d.Verifies) (dto : LoginDto) (clientIp : String) :
    Returns (Genuine d) (AuthService.login d dto clientIp) := by
  rw [AuthService.login]
  refine returns_bind fun lockoutStatus => ?_
  split
  · exact returns_bind fun _ => returns_throw _
  refine returns_bind fun found => ?_
  split
  · exact returns_bind fun _ => returns_throw _
  rename_i user passwordHash _
  refine returns_bind fun userLockoutStatus => ?_
  split
  · exact returns_bind fun _ => returns_throw _
  refine returns_bind fun _ => ?_
  split
  · exact returns_bind fun _ => returns_throw _
  split
  · exact returns_throw _
  refine returns_bind fun banned => ?_
  split
  · exact returns_throw _
  exact returns_bind fun _ => response_genuine verifies user

theorem refreshTokens_genuine (verifies : d.Verifies) (candidate : Option String) :
    Returns (Genuine d) (AuthService.refreshTokens d candidate) := by
  rw [AuthService.refreshTokens]
  split
  · exact returns_throw _
  refine returns_bind fun payload => ?_
  refine returns_bind fun reused => ?_
  split
  · exact returns_throw _
  refine returns_bind fun revoked => ?_
  split
  · exact returns_throw _
  refine returns_bind fun found => ?_
  split
  · exact returns_throw _
  rename_i user
  split
  · exact returns_bind fun _ => returns_throw _
  refine returns_bind fun banned => ?_
  split
  · exact returns_bind fun _ => returns_throw _
  exact returns_bind fun _ => response_genuine verifies user

/-- What is handed out to an account is a refresh token of the account. -/
theorem program_genuine (verifies : d.Verifies) (op : Operation) :
    Returns (fun reply => ∀ token ∈ handedOut userId (.ok reply), IsOf d userId token)
      (op.program d) := by
  have session {p : Method AuthResponseDto} (genuine : Returns (Genuine d) p) :
      Returns (fun reply => ∀ token ∈ handedOut userId (.ok reply), IsOf d userId token)
        (do return .session (← p)) := by
    refine genuine.bind fun response isOf => returns_pure fun token given => ?_
    simp only [handedOut] at given
    split at given
    · rename_i own
      cases given
      exact own ▸ isOf
    · cases given
  cases op with
  | login dto clientIp => exact session (login_genuine verifies dto clientIp)
  | refreshTokens candidate => exact session (refreshTokens_genuine verifies candidate)
  | _ => exact returns_bind fun _ => returns_pure fun token given => by cases given

end Tokens

section Runs
variable {d : Deployment} {userId : String}

/-- The account is there, and not blocked by hand. -/
def World.Open (world : World) (userId : String) : Prop :=
  ∃ user, world.findById userId = some user ∧ user.accessBlocked = false

theorem open_call {world : World} (open' : world.Open userId) (choice : Choice) (call : Call) :
    (exec choice world call).2.Open userId := by
  obtain ⟨user, found, unblocked⟩ := open'
  rcases users_cases choice world call with same | ⟨id, data, updated⟩
  · exact ⟨user, by rw [World.findById, same]; exact found, unblocked⟩
  · have ids : ((fun row : User => decide (row.id = userId)) ∘
        fun row => if row.id = id then row.update data else row) =
        fun row => decide (row.id = userId) := by
      funext row
      simp only [Function.comp_apply]
      split <;> rfl
    refine ⟨if user.id = id then user.update data else user, ?_, ?_⟩
    · rw [World.findById, updated, List.find?_map, ids]
      rw [World.findById] at found
      rw [found]
      rfl
    · split
      · exact unblocked
      · exact unblocked

/-- Nothing restricts the account. -/
def World.Unrestricted (world : World) (userId : String) : Prop :=
  world.store.entries (restrictionCacheKey userId) = none

theorem restrictionCacheKey_ne (userId : String) :
    (∀ token, restrictionCacheKey userId ≠ tokenKey d token) ∧
      (∀ id, restrictionCacheKey userId ≠ userKey id) ∧
        ∀ token, restrictionCacheKey userId ≠ resetKey token := by
  refine ⟨fun token => ?_, fun id => ?_, fun token => ?_⟩
  · exact Valkey.append_ne_append (n := 3) (by decide) (by decide) (by decide) _ _
  · exact Valkey.append_ne_append (n := 3) (by decide) (by decide) (by decide) _ _
  · exact Valkey.append_ne_append (n := 1) (by decide) (by decide) (by decide) _ _

/-- The time of a revocation lies within the request that made it. -/
def Within (window : Int × Int) (time : Int) : Prop := window.1 ≤ time ∧ time ≤ window.2

variable (d userId) in
/-- The entry of the account is the one of its last reset or upgrade, and its tokens are its. -/
structure Kept (system : System) : Prop where
  account : system.world.Open userId
  unrestricted : system.world.Unrestricted userId
  entry : ∃ revokedAt, Option.Rel Within system.sessions.revoked revokedAt ∧
    system.world.store.entries (userKey userId) = revokedAt.map (listed d)
  issued : ∀ token ∈ system.sessions.current ++ system.sessions.earlier, IsOf d userId token

theorem serve_open {world : World} (open' : world.Open userId) (request : Request) :
    (world.serve d request).2.Open userId := by
  have keeps (choice : Choice) (w : World) (call : Call) (_ : request.operation.May d call)
      (kept : w.Open userId) : (exec choice w call).2.Open userId := open_call kept choice call
  exact (program_only d request.operation).only.eval keeps request.choices open'

theorem serve_unrestricted {world : World} (unrestricted : world.Unrestricted userId)
    (request : Request) : (world.serve d request).2.Unrestricted userId := by
  obtain ⟨tokens, accounts, resets⟩ := restrictionCacheKey_ne (d := d) userId
  exact (program_only d request.operation).only.eval
    (fun choice w call may kept => (may_entries may (fun token _ => tokens token) accounts resets
      choice w).trans kept) request.choices unrestricted

theorem Quiet.revoke_eq {before after : World} (quiet : Quiet userId before after)
    (sessions : Sessions) : sessions.revoke userId before after = sessions := by
  obtain ⟨news, events, silent⟩ := quiet.events
  rw [Sessions.revoke, if_neg]
  rintro ⟨event, member, revokes⟩
  rw [events, List.drop_left] at member
  exact silent event member revokes

theorem Revoked.revoke_eq {before after : World} (revoked : Revoked d userId before after)
    (sessions : Sessions) : sessions.revoke userId before after = { sessions with
      current := [], earlier := sessions.current ++ sessions.earlier
      revoked := some (before.clock, after.clock) } := by
  obtain ⟨news, events, event, member, revokes⟩ := revoked.events
  rw [Sessions.revoke, if_pos]
  exact ⟨event, by rwa [events, List.drop_left], revokes⟩

theorem kept_step (verifies : d.Verifies) {system : System} (kept : Kept d userId system)
    (request : Request) : Kept d userId (system.step d userId request) := by
  have handed : ∀ token ∈ (handedOut userId (system.world.serve d request).1).toList,
      IsOf d userId token := by
    intro token member
    cases ended : (system.world.serve d request).1 with
    | error e =>
      rw [ended] at member
      cases member
    | ok reply =>
      rw [ended, Option.mem_toList] at member
      exact (program_genuine verifies request.operation).eval ended token member
  refine ⟨serve_open kept.account request, serve_unrestricted kept.unrestricted request, ?_, ?_⟩
  · simp only [System.step]
    rcases serve_cases d userId system.world request with quiet | revoked
    · rw [quiet.revoke_eq, quiet.entry]
      exact kept.entry
    · rw [revoked.revoke_eq]
      obtain ⟨time, after, until', entry⟩ := revoked.entry
      exact ⟨some time, .some ⟨after, until'⟩, entry⟩
  · have issued := kept.issued
    simp only [System.step, List.append_assoc]
    intro token member
    rcases List.mem_append.mp member with new | old
    · exact handed token new
    rcases serve_cases d userId system.world request with quiet | revoked
    · rw [quiet.revoke_eq] at old
      exact issued token old
    · rw [revoked.revoke_eq] at old
      exact issued token old

end Runs
end Auth
