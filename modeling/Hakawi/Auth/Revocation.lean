import Hakawi.Auth.Sessions

/-!
# Which sessions a reset or an upgrade ends

A refresh token that is neither exchanged nor logged out is accepted if and only
if the entry of the account is not on the list: never written, or lapsed. The
entry does not say which tokens it was written against. It refuses the sessions
opened before the reset or the upgrade, and those opened afterwards as well.
-/

namespace Auth

open Common Effects Program
open Moderation.Restrictions (restrictionCacheKey)
open Moderation.Restrictions.AccountRestrictionService (isBan)

variable {d : Deployment} {userId : String}

section Along
variable {choices : Nat → Choice} {world : World} {n : Nat} {β : Type}

/-- The world when the next call is made. -/
def World.later (world : World) (choice : Choice) : World :=
  { world with clock := world.clock + choice.elapsed }

theorem wpE_answered {op : Call} {next : op.Value → Method β}
    {Q : Except AuthError β → World × Nat → Prop} (performed : (choices n).outcome = .performed)
    {value : op.Value} {after : World}
    (answer : (world.later (choices n)).perform (choices n) op = (.ok value, after))
    (rest : wpE (along exec choices) (next value) Q (after, n + 1)) :
    wpE (along exec choices) (call op >>= next) Q (world, n) := by
  have answered : exec (choices n) world op = (.ok value, after) := by
    rw [← answer, World.later, exec, performed]
    cases op.mayFail <;> rfl
  rw [wpE_bind, call, wpE_mk_call, along]
  simp only [answered]
  exact rest

theorem perform_exists (choice : Choice) (world : World) (key : String) :
    world.perform choice (.valkey (.exists' key)) = (.ok (world.store.exists' world.clock key), world) :=
  rfl

theorem perform_get_absent {choice : Choice} {world : World} {key : String}
    (absent : world.store.live world.clock key = none) :
    world.perform choice (.valkey (.get key)) = (.ok none, world) := by
  rw [World.perform, Valkey.exec, Valkey.get, absent]
  rfl

theorem timed_along (expiresIn : String) (claims : Claims) (given : (d.ms expiresIn).isSome)
    (performs : ∀ n, (choices n).outcome = .performed) (x : World × Nat) :
    wpE (along exec choices) (timed d expiresIn claims) (fun result _ => ∃ signed,
      result = .ok signed) x := by
  rw [timed]
  refine wpE_answered (performs _) rfl ?_
  obtain ⟨lifetimeMs, given⟩ := Option.isSome_iff_exists.mp given
  simp only [expiresAt, given, Option.map_some]
  exact ⟨_, rfl⟩

/-- A deployment that can sign mints. -/
theorem generateTokens_along (signs : d.Signs) (user : User)
    (performs : ∀ n, (choices n).outcome = .performed) (x : World × Nat) :
    wpE (along exec choices) (AuthService.generateTokens d user) (fun result _ => ∃ tokens,
      result = .ok tokens) x := by
  rw [AuthService.generateTokens, generateAccessToken, generateRefreshToken]
  simp only [wpE_bind]
  refine wpE_mono (along_monotone exec choices) ?_ (timed_along _ _ signs.1 performs x)
  rintro _ y ⟨signed, rfl⟩
  simp only [wpE_pure]
  refine wpE_mono (along_monotone exec choices) ?_ (timed_along _ _ signs.2 performs y)
  rintro _ z ⟨signed', rfl⟩
  exact ⟨_, rfl⟩

theorem verifyPresented_along {token : String} {claims : Claims}
    {Q : Except AuthError Claims → World × Nat → Prop} (usable : trim token ≠ "")
    (decodes : d.decodeRefresh token = some claims)
    (performed : (choices n).outcome = .performed)
    (ends : Q (if claims.exp ≤ (world.later (choices n)).clock / 1000 then
      .error (.unauthorized "Invalid refresh token") else .ok claims)
      (world.later (choices n), n + 1)) :
    wpE (along exec choices) (AuthService.verifyPresented d token) Q (world, n) := by
  rw [AuthService.verifyPresented, verifyRefreshToken, assertUsableToken, if_neg usable,
    wpE_tryCatch, wpE_bind, wpE_pure]
  refine wpE_answered performed rfl ?_
  simp only [decodes]
  split at ends
  · rename_i expired
    rw [if_pos expired]
    exact ends
  · rename_i unexpired
    rw [if_neg unexpired]
    exact ends

theorem burn_written (d : Deployment) (token : String) (now : Int) (store : Valkey String) :
    ∃ store', store.exec now (.set (tokenKey d token) (.other "revoked")
      (some (refreshBlacklistTtlSeconds d))) = (.ok (), store') := by
  simp only [Valkey.exec, Valkey.set]
  by_cases zero : refreshBlacklistTtlSeconds d = 0
  · simp only [zero, Nat.cast_zero, if_true]
    exact ⟨_, rfl⟩
  · have positive : ¬ (refreshBlacklistTtlSeconds d : Int) < 0 := by omega
    have nonzero : ¬ (refreshBlacklistTtlSeconds d : Int) = 0 := by omega
    simp only [nonzero, positive, if_false]
    exact ⟨_, rfl⟩

/-- What is burned may be replaced. -/
theorem rotate_along (signs : d.Signs) (token : String) (user : User)
    (performs : ∀ n, (choices n).outcome = .performed) :
    wpE (along exec choices) (AuthService.rotate d token user) (fun result _ => ∃ response,
      result = .ok response) (world, n) := by
  obtain ⟨store', written⟩ := burn_written d token (world.later (choices n)).clock world.store
  rw [AuthService.rotate, AuthService.revokeRefreshToken]
  have answer : (world.later (choices n)).perform (choices n) (.valkey (.set (tokenKey d token)
      (.other "revoked") (some (refreshBlacklistTtlSeconds d)))) =
        (.ok (), { world.later (choices n) with store := store' }) := by
    rw [World.perform]
    exact congrArg (fun written => (written.1, { world.later (choices n) with store := written.2 }))
      written
  refine wpE_answered (performs _) answer ?_
  rw [wpE_bind]
  refine wpE_mono (along_monotone exec choices) ?_ (generateTokens_along signs user performs _)
  rintro _ y ⟨tokens, rfl⟩
  exact ⟨_, rfl⟩

end Along

section Outcome
variable {request : Request} {candidate : Option String} {token : String} {claims : Claims}
variable {world : World}

/-- When the token is verified, when it is looked up, and when the account is. -/
def Request.verifiesAt (request : Request) (world : World) : Int :=
  (world.later (request.choices 0)).clock

def Request.looksUpAt (request : Request) (world : World) : Int :=
  request.verifiesAt world + (request.choices 1).elapsed

def Request.asksAt (request : Request) (world : World) : Int :=
  request.looksUpAt world + (request.choices 2).elapsed

theorem presented_usable (presents : AuthService.readPresentedRefreshToken candidate = some token) :
    trim token ≠ "" := by
  obtain ⟨same, filled⟩ := Option.filter_eq_some_iff.mp presents
  obtain ⟨text, -, rfl⟩ := Option.map_eq_some_iff.mp same
  rw [trim_trim]
  simpa using filled

/-- A refresh of an account in good order is accepted if and only if the token is unexpired and
neither the token nor the account is on the list; when it is not, nothing is written. -/
theorem refreshTokens_outcome
    (presents : AuthService.readPresentedRefreshToken candidate = some token)
    (decodes : d.decodeRefresh token = some claims) (signs : d.Signs)
    (account : world.Open claims.sub) (unrestricted : world.Unrestricted claims.sub)
    (request : Request) :
    wpE (along exec request.choices) (AuthService.refreshTokens d candidate)
      (fun result after => ((∃ response, result = .ok response) ↔
          request.verifiesAt world / 1000 < claims.exp ∧
          world.store.live (request.looksUpAt world) (tokenKey d token) = none ∧
          world.store.live (request.asksAt world) (userKey claims.sub) = none) ∧
        ((∃ response, result = .ok response) ∨ after.1.store = world.store)) (world, 0) := by
  have performs := request.available
  have refused (e : AuthError) (accepted : Prop) (unmet : ¬ accepted) (store : Valkey String) :
      ((∃ response : AuthResponseDto, Except.error e = .ok response) ↔ accepted) ∧
        ((∃ response : AuthResponseDto, Except.error e = .ok response) ∨ store = store) :=
    ⟨⟨fun ⟨_, same⟩ => (by cases same), fun met => absurd met unmet⟩, Or.inr rfl⟩
  simp only [AuthService.refreshTokens, presents]
  rw [wpE_bind]
  refine verifyPresented_along (presented_usable presents) decodes (performs 0) ?_
  by_cases expired : claims.exp ≤ request.verifiesAt world / 1000
  · rw [Request.verifiesAt] at expired
    simp only [expired, if_true]
    refine refused _ _ (fun met => ?_) world.store
    have := met.1
    rw [Request.verifiesAt] at this
    omega
  have unexpired : request.verifiesAt world / 1000 < claims.exp := by omega
  rw [Request.verifiesAt] at expired
  simp only [expired, if_false]
  refine wpE_answered (performs _) (perform_exists _ _ _) ?_
  change wpE _ (if world.store.exists' (request.looksUpAt world) (tokenKey d token) = true then _
    else _) _ _
  cases token_live : world.store.live (request.looksUpAt world) (tokenKey d token) with
  | some entry =>
    rw [if_pos (by rw [Valkey.exists', token_live]; rfl)]
    exact refused _ _ (fun met => by cases met.2.1) world.store
  | none =>
    rw [if_neg (by rw [Valkey.exists', token_live]; simp)]
    refine wpE_answered (performs _) (perform_exists _ _ _) ?_
    change wpE _ (if world.store.exists' (request.asksAt world) (userKey claims.sub) = true then _
      else _) _ _
    cases account_live : world.store.live (request.asksAt world) (userKey claims.sub) with
    | some entry =>
      rw [if_pos (by rw [Valkey.exists', account_live]; rfl)]
      exact refused _ _ (fun met => by cases met.2.2) world.store
    | none =>
      rw [if_neg (by rw [Valkey.exists', account_live]; simp)]
      obtain ⟨user, found, unblocked⟩ := account
      have answer (choice : Choice) (w : World) (same : w.users = world.users) :
          w.perform choice (.findById claims.sub) = (.ok (some user), w) := by
        rw [World.findById, ← same] at found
        exact Prod.ext (congrArg Except.ok found) rfl
      refine wpE_answered (performs _) (answer _ _ rfl) ?_
      simp only [unblocked, Bool.false_eq_true, if_false]
      have own : user.id = claims.sub := by
        have := List.find?_some found
        simpa using this
      have absent (time : Int) : world.store.live time (restrictionCacheKey user.id) = none := by
        rw [own, Valkey.live, unrestricted]
        rfl
      rw [wpE_bind, hasActiveBan, wpE_tryCatch]
      refine wpE_answered (performs _) (perform_get_absent (absent _)) ?_
      simp only [isBan, wpE_pure, Bool.false_eq_true, if_false]
      refine wpE_mono (along_monotone exec request.choices) ?_
        (rotate_along signs token user performs)
      rintro _ y ⟨response, rfl⟩
      exact ⟨iff_of_true ⟨response, rfl⟩ ⟨unexpired, trivial, trivial⟩, Or.inl ⟨response, rfl⟩⟩

def Accepted (d : Deployment) (world : World) (request : Request) : Prop :=
  ∃ reply, (world.serve d request).1 = .ok reply

theorem serve_refresh (asks : request.operation = .refreshTokens candidate)
    (presents : AuthService.readPresentedRefreshToken candidate = some token)
    (decodes : d.decodeRefresh token = some claims) (signs : d.Signs)
    (account : world.Open claims.sub) (unrestricted : world.Unrestricted claims.sub) :
    (Accepted d world request ↔ request.verifiesAt world / 1000 < claims.exp ∧
        world.store.live (request.looksUpAt world) (tokenKey d token) = none ∧
        world.store.live (request.asksAt world) (userKey claims.sub) = none) ∧
      (Accepted d world request ∨ (world.serve d request).2.store = world.store) := by
  have walk := refreshTokens_outcome presents decodes signs account unrestricted request
  have whole : wpE (along exec request.choices) (request.operation.program d)
      (fun result after => ((∃ reply, result = .ok reply) ↔
          request.verifiesAt world / 1000 < claims.exp ∧
          world.store.live (request.looksUpAt world) (tokenKey d token) = none ∧
          world.store.live (request.asksAt world) (userKey claims.sub) = none) ∧
        ((∃ reply, result = .ok reply) ∨ after.1.store = world.store)) (world, 0) := by
    rw [asks, Operation.program, wpE_bind]
    refine wpE_mono (along_monotone exec request.choices) (fun result after reached => ?_) walk
    cases result with
    | ok response =>
      exact ⟨iff_of_true ⟨_, rfl⟩ (reached.1.mp ⟨_, rfl⟩), Or.inl ⟨_, rfl⟩⟩
    | error e =>
      refine ⟨iff_of_false (by rintro ⟨_, ⟨⟩⟩) fun met => ?_, reached.2.imp ?_ id⟩
      · obtain ⟨_, ⟨⟩⟩ := reached.1.mpr met
      · rintro ⟨_, ⟨⟩⟩
  obtain ⟨m, reached⟩ := eval_of_along whole
  simp only [Nat.zero_add] at reached
  exact reached

/-- A logout that writes succeeds. -/
theorem logout_outcome (candidate : Option String) :
    wpE performs (AuthService.logout d candidate) (fun result after =>
      (∃ text, result = .ok text) ∨ after.store = world.store) world := by
  rw [AuthService.logout]
  split
  · exact Or.inr rfl
  rename_i token presents
  have keeps (call : Call) (now : call = .now) (choice : Choice) (w : World)
      (same : w.store = world.store) : (exec choice w call).2.store = world.store := by
    subst now
    rcases store_cases choice w .now with kept | ⟨command, other, -⟩
    · exact kept.trans same
    · cases other
  refine wpE_keep_only (verifyPresented_only d token) (by rfl) keeps (fun payload w same => ?_)
    fun _ _ same => Or.inr same
  · rw [wpE_ite]
    split
    · exact Or.inr same
    · intro choice performed
      obtain ⟨store', written⟩ := burn_written d token (w.clock + choice.elapsed) w.store
      simp only [exec, Call.mayFail, performed, World.perform, written]
      exact Or.inl ⟨_, rfl⟩

end Outcome

section Runs
variable {token : String}

/-- No other token with the fingerprint of this one is presented. -/
def Distinct (d : Deployment) (token : String) (request : Request) : Prop :=
  ∀ other ∈ request.operation.presented, fingerprintToken d other = fingerprintToken d token →
    other = token

variable (d) in
/-- A token that did not end is not on the list. -/
def Unlisted (token : String) (system : System) : Prop :=
  token ∈ system.sessions.ended ∨ system.world.store.entries (tokenKey d token) = none

theorem step_ended (system : System) (request : Request) :
    (system.step d userId request).sessions.ended =
      (endedBy request.operation (system.world.serve d request).1).toList ++
        system.sessions.ended := by
  have same (sessions : Sessions) (before after : World) :
      (sessions.revoke userId before after).ended = sessions.ended := by
    rw [Sessions.revoke]
    split <;> rfl
  simp only [System.step, same]

theorem unlisted_step (isOf : IsOf d userId token) {system : System} {request : Request}
    (kept : Kept d userId system) (unlisted : Unlisted d token system)
    (distinct : Distinct d token request) :
    Unlisted d token (system.step d userId request) := by
  rw [Unlisted, step_ended]
  rcases unlisted with ended | absent
  · exact Or.inl (List.mem_append_right _ ended)
  obtain ⟨⟨claims, decodes, own⟩, signs⟩ := isOf
  by_cases presented : token ∈ request.operation.presented
  · -- presented: it comes to an end, or nothing is written
    have outcome : (∃ reply, (system.world.serve d request).1 = .ok reply) ∨
        (system.world.serve d request).2.store = system.world.store := by
      cases asked : request.operation with
      | refreshTokens candidate =>
        rw [asked, Operation.presented, Option.mem_def] at presented
        subst own
        exact (serve_refresh asked presented decodes signs kept.account kept.unrestricted).2
      | logout candidate =>
        have whole : wpE performs (request.operation.program d) (fun result after =>
            (∃ reply, result = .ok reply) ∨ after.store = system.world.store) system.world := by
          rw [asked, Operation.program, wpE_bind]
          refine wpE_mono performs_monotone (fun result after reached => ?_)
            (logout_outcome candidate)
          cases result with
          | ok text => exact Or.inl ⟨_, rfl⟩
          | error e =>
            rcases reached with ⟨_, ⟨⟩⟩ | same
            exact Or.inr same
        exact eval_of_wp whole request.available
      | _ =>
        rw [asked] at presented
        cases presented
    rcases outcome with ⟨reply, ended⟩ | same
    · left
      refine List.mem_append_left _ ?_
      rw [ended, Option.mem_toList]
      cases asked : request.operation with
      | refreshTokens | logout =>
        rw [asked] at presented
        exact presented
      | _ =>
        rw [asked] at presented
        cases presented
    · right
      rw [System.step, same]
      exact absent
  · right
    have keeps (choice : Choice) (w : World) (call : Call) (may : request.operation.May d call)
        (unlisted : w.store.entries (tokenKey d token) = none) :
        (exec choice w call).2.store.entries (tokenKey d token) = none := by
      refine (may_entries may (fun other own same => ?_)
        (fun id => tokenKey_ne_userKey d token id)
        (fun other => (resetKey_ne_tokenKey d other token).symm) choice w).trans unlisted
      have collide := distinct other own ((tokenKey_eq_iff d).mp same).symm
      exact presented (collide ▸ own)
    exact (program_only d request.operation).only.eval keeps request.choices absent

/-- Nothing was asked of the services for the account. -/
structure World.Fresh (d : Deployment) (userId : String) (world : World) : Prop where
  account : world.Open userId
  unrestricted : world.Unrestricted userId
  unrevoked : world.store.entries (userKey userId) = none
  unlisted : ∀ token, world.store.entries (tokenKey d token) = none

theorem kept_run (verifies : d.Verifies) {world : World} (fresh : world.Fresh d userId)
    (requests : List Request) :
    Kept d userId (Trace.run (System.step d userId) ⟨world, {}⟩ requests) := by
  have preserves (system : System) (request : Request) (kept : Kept d userId system) :
      Kept d userId (system.step d userId request) := kept_step verifies kept request
  refine Trace.run_invariant_always preserves ?_ requests
  exact ⟨fresh.account, fresh.unrestricted, ⟨none, .none, fresh.unrevoked⟩, by simp⟩

theorem unlisted_run (verifies : d.Verifies) {world : World} (fresh : world.Fresh d userId)
    (isOf : IsOf d userId token) {requests : List Request}
    (distinct : ∀ request ∈ requests, Distinct d token request) :
    Unlisted d token (Trace.run (System.step d userId) ⟨world, {}⟩ requests) := by
  have start : Kept d userId ⟨world, {}⟩ ∧ Unlisted d token ⟨world, {}⟩ :=
    ⟨⟨fresh.account, fresh.unrestricted, ⟨none, .none, fresh.unrevoked⟩, by simp⟩,
      Or.inr (fresh.unlisted token)⟩
  have preserves (system : System) (request : Request)
      (held : Kept d userId system ∧ Unlisted d token system) (distinct : Distinct d token request) :
      Kept d userId (system.step d userId request) ∧
        Unlisted d token (system.step d userId request) :=
    ⟨kept_step verifies held.1 request, unlisted_step isOf held.1 held.2 distinct⟩
  exact (Trace.run_invariant preserves start
    (Trace.meets_of_forall_mem fun request member _ => distinct request member)).2

/-- The entry of the last reset or upgrade, if there was one, has lapsed. -/
def Lapsed (d : Deployment) (revokedAt : Option Int) (time : Int) : Prop :=
  ∀ revoked ∈ revokedAt, 0 < refreshBlacklistTtlSeconds d ∧
    revoked + refreshBlacklistTtlSeconds d * 1000 ≤ time

theorem live_none_iff {store : Valkey String} {revokedAt : Option Int}
    (entry : store.entries (userKey userId) = revokedAt.map (listed d)) (time : Int) :
    store.live time (userKey userId) = none ↔ Lapsed d revokedAt time := by
  rw [Valkey.live, entry]
  cases revokedAt with
  | none => simp [Lapsed]
  | some revoked =>
    simp only [Option.map_some, Option.filter_eq_none_iff, Option.some.injEq, forall_eq', listed,
      Lapsed, Option.mem_def]
    by_cases zero : refreshBlacklistTtlSeconds d = 0
    · simp [zero]
    · have positive : 0 < refreshBlacklistTtlSeconds d := Nat.pos_of_ne_zero zero
      simp [zero, positive]

/-- The token can still be verified. -/
def Unexpired (d : Deployment) (token : String) (time : Int) : Prop :=
  ∃ claims ∈ d.decodeRefresh token, time / 1000 < claims.exp

/-- Over every sequence of requests, the store answering: an unexpired refresh token that was handed
out to the account, and neither exchanged nor logged out, is accepted exactly when it was handed
out since the last reset or upgrade, if and only if that is whether the entry of that reset or
upgrade has lapsed when it is asked for. -/
theorem accepted_iff_current (verifies : d.Verifies) {world : World}
    (fresh : world.Fresh d userId) (requests : List Request) {system : System}
    (reached : Trace.run (System.step d userId) ⟨world, {}⟩ requests = system)
    {request : Request} {candidate : Option String}
    (asks : request.operation = .refreshTokens candidate)
    (presents : AuthService.readPresentedRefreshToken candidate = some token)
    (issued : token ∈ system.sessions.current ++ system.sessions.earlier)
    (unended : token ∉ system.sessions.ended)
    (distinct : ∀ request ∈ requests, Distinct d token request)
    (unexpired : Unexpired d token (request.verifiesAt system.world)) :
    ∃ revokedAt, Option.Rel Within system.sessions.revoked revokedAt ∧
      ((Accepted d system.world request ↔ token ∈ system.sessions.current) ↔
        (token ∈ system.sessions.current ↔ Lapsed d revokedAt (request.asksAt system.world))) := by
  subst reached
  have kept := kept_run verifies fresh requests
  have isOf := kept.issued token issued
  have absent := (unlisted_run verifies fresh isOf distinct).resolve_left unended
  obtain ⟨revokedAt, within, entry⟩ := kept.entry
  obtain ⟨⟨claims, decodes, own⟩, signs⟩ := isOf
  refine ⟨revokedAt, within, ?_⟩
  rw [← live_none_iff entry]
  have accepted : Accepted d (Trace.run (System.step d userId) ⟨world, {}⟩ requests).world request ↔
      Valkey.live (Trace.run (System.step d userId) ⟨world, {}⟩ requests).world.store
        (request.asksAt (Trace.run (System.step d userId) ⟨world, {}⟩ requests).world)
        (userKey userId) = none := by
    subst own
    rw [(serve_refresh asks presents decodes signs kept.account kept.unrestricted).1]
    obtain ⟨claims', decodes', before⟩ := unexpired
    cases decodes'.symm.trans decodes
    have unlisted (time : Int) : Valkey.live (Trace.run (System.step d claims.sub) ⟨world, {}⟩
        requests).world.store time (tokenKey d token) = none := by
      rw [Valkey.live, absent]
      rfl
    exact ⟨fun met => met.2.2, fun lapsed => ⟨before, unlisted _, lapsed⟩⟩
  rw [accepted]
  exact ⟨Iff.symm, Iff.symm⟩

/-- Both times the call takes the same choices: an identifier and a hash that read `code`. -/
def requestOf (operation : Operation) : Request where
  operation
  choices _ := { random := "code" }
  available _ := rfl

theorem signedIn_fresh : signedIn.Fresh .plain "reader" where
  account := ⟨reader, by decide, rfl⟩
  unrestricted := rfl
  unrevoked := rfl
  unlisted _ := rfl

/-- A session that was open before a reset. -/
theorem accepted_iff_current_earlier :
    let requests := [requestOf (.login ⟨"reader@hakawi", "secret", none⟩ "10.0.0.1"),
      requestOf (.forgotPassword "reader@hakawi"), requestOf (.resetPassword "code" "new")]
    let system := Trace.run (System.step .plain "reader") ⟨signedIn, {}⟩ requests
    let request := requestOf (.refreshTokens (some readersToken))
    ∃ revokedAt, Option.Rel Within system.sessions.revoked revokedAt ∧
      ((Accepted .plain system.world request ↔ readersToken ∈ system.sessions.current) ↔
        (readersToken ∈ system.sessions.current ↔
          Lapsed .plain revokedAt (request.asksAt system.world))) := by
  have verifies : Deployment.plain.Verifies := unspell_spell
  refine accepted_iff_current verifies signedIn_fresh _ rfl rfl (by decide +kernel)
    (by decide +kernel) (by decide +kernel) ?_ ?_
  · intro request member other presented
    simp only [List.mem_cons, List.not_mem_nil, or_false] at member
    rcases member with rfl | rfl | rfl
    all_goals cases presented
  · exact ⟨_, unspell_spell _, by decide +kernel⟩

/-- A reset, a login with the new password, and at once a refresh: the token is new, and refused. -/
theorem new_session_refused :
    let system := Trace.run (System.step .plain "reader") ⟨signedIn, {}⟩
      [requestOf (.forgotPassword "reader@hakawi"), requestOf (.resetPassword "code" "new"),
        requestOf (.login ⟨"reader@hakawi", "code", none⟩ "10.0.0.1")]
    let request := requestOf (.refreshTokens (some readersToken))
    readersToken ∈ system.sessions.current ∧ readersToken ∉ system.sessions.ended ∧
      system.sessions.earlier = [] ∧
      Unexpired .plain readersToken (request.verifiesAt system.world) ∧
      (system.world.serve .plain request).1 =
        .error (.unauthorized "Session has been revoked. Please log in again.") := by
  refine ⟨by decide +kernel, by decide +kernel, by decide +kernel, ?_, by decide +kernel⟩
  exact ⟨_, unspell_spell _, by decide +kernel⟩

end Runs
end Auth
