import Hakawi.Auth.Footprint

/-!
# A refresh token is exchanged once

A refresh looks its token up, and burns it some calls later. What lies between is
not protected: two refreshes that both look up before either burns both return a
new pair. When no refresh of a token looks it up while another one of the same
token is on its way to burn it, at most one of them returns a pair.
-/

namespace Auth

open Common Effects Program

/-- How far a refresh of a token has come. -/
inductive Stage where
  /-- Any other operation. -/
  | other
  | fresh (token : String)
  /-- The token was looked up, and was not on the list. -/
  | passed (token : String)
  | burned (token : String)
  deriving DecidableEq

def Stage.token : Stage → Option String
  | other => none
  | fresh token | passed token | burned token => some token

variable (d : Deployment)

def stages : Protocol Call Call.Answer Stage where
  allowed _ call := match call with
    | .valkey (.get _) | .valkey (.exists' _) | .valkey (.set _ _ _) => True
    | .valkey (.del key) => ∀ token, key ≠ tokenKey d token
    | .valkey _ => False
    | _ => True
  next stage call answer := match stage with
    | .fresh token => match call, answer with
      | .valkey (.exists' key), .ok false => if key = tokenKey d token then .passed token else stage
      | _, _ => stage
    | .passed token => match call, answer with
      | .valkey (.set key _ _), .ok _ => if key = tokenKey d token then .burned token else stage
      | _, _ => stage
    | _ => stage

def Operation.start : Operation → Stage
  | refreshTokens candidate =>
    (AuthService.readPresentedRefreshToken candidate).elim .other .fresh
  | _ => .other

/-- When a refresh looks its token up, no other one is on its way to burn it, and what is on
the list for the token has not lapsed. -/
def Apart (choice : Choice) (world : World) (memory : List Stage) : Stage → Call → Prop
  | .fresh token, .valkey (.exists' key) => key = tokenKey d token →
    .passed token ∉ memory ∧
      (world.store.entries key).all fun entry =>
        entry.expiresAt.all fun time => world.clock + choice.elapsed < time
  | _, _ => True

instance (choice : Choice) (world : World) (memory : List Stage) (stage : Stage) (call : Call) :
    Decidable (Apart d choice world memory stage call) := by
  unfold Apart
  split <;> infer_instance

/-- What a refresh of the token returned. -/
def newPair (token : String) (operation : Operation)
    (thread : Program Call Call.Answer (Except AuthError Reply)) : Option AuthResponseDto :=
  match operation, thread with
  | .refreshTokens candidate, .done (.ok (.session response)) =>
    if AuthService.readPresentedRefreshToken candidate = some token then some response else none
  | _, _ => none

/-- The new pairs that were returned for a token. -/
def newPairs (token : String) (operations : List Operation)
    (threads : List (Program Call Call.Answer (Except AuthError Reply))) :
    List AuthResponseDto :=
  (operations.zip threads).filterMap fun thread => newPair token thread.1 thread.2

section Steps
variable {d : Deployment} {choice : Choice} {world : World}

/-- What is on the list stays on the list. -/
theorem listed_stays {token : String} {stage : Stage} {call : Call}
    (allowed : (stages d).allowed stage call)
    (listed : world.store.entries (tokenKey d token) ≠ none) :
    (exec choice world call).2.store.entries (tokenKey d token) ≠ none := by
  rcases store_cases choice world call with same | ⟨command, rfl, performed⟩
  · rwa [same]
  rw [performed]
  by_cases own : tokenKey d token = command.key
  · cases command with
    | get | exists' => exact listed
    | del key => exact absurd own.symm (allowed token)
    | set key value ttl =>
      rw [show tokenKey d token = key from own] at listed ⊢
      simp only [Valkey.exec, Valkey.set]
      cases ttl with
      | none => simp [Valkey.written]
      | some seconds =>
        dsimp only
        split
        · simp [Valkey.written]
        · split
          · exact listed
          · simp [Valkey.written]
    | _ => cases allowed
  · rwa [Valkey.exec_frame command own]

theorem set_listed {store store' : Valkey String} {now : Int} {key : String} {value : Text}
    {ttl : Option Int} (written : store.exec now (.set key value ttl) = (.ok (), store')) :
    store'.entries key ≠ none := by
  simp only [Valkey.exec, Valkey.set] at written
  cases ttl with
  | none =>
    cases written
    simp
  | some seconds =>
    dsimp only at written
    split at written
    · cases written
      simp
    · split at written
      · cases written
      · cases written
        simp

variable (d choice world) in
/-- A call leaves the stage, or it is a look-up that finds nothing, or it burns the token. -/
theorem next_cases (stage : Stage) (call : Call) :
    (stages d).next stage call (exec choice world call).1 = stage ∨
    (∃ token, stage = .fresh token ∧ call = .valkey (.exists' (tokenKey d token)) ∧
      world.store.live (world.clock + choice.elapsed) (tokenKey d token) = none ∧
      (stages d).next stage call (exec choice world call).1 = .passed token) ∨
    ∃ token, stage = .passed token ∧
      (exec choice world call).2.store.entries (tokenKey d token) ≠ none ∧
      (stages d).next stage call (exec choice world call).1 = .burned token := by
  cases stage with
  | other => exact Or.inl rfl
  | burned token => exact Or.inl rfl
  | fresh token =>
    cases call with
    | valkey command =>
      cases command with
      | exists' key =>
        rw [exec_valkey]
        cases choice.outcome with
        | refused => exact Or.inl rfl
        | lost => exact Or.inl rfl
        | performed =>
          simp only [World.perform, Valkey.exec, Valkey.exists', stages]
          cases found : world.store.live (world.clock + choice.elapsed) key with
          | some entry => exact Or.inl rfl
          | none =>
            by_cases own : key = tokenKey d token
            · subst own
              exact Or.inr (Or.inl ⟨token, rfl, rfl, found, by simp⟩)
            · exact Or.inl (by simp [own])
      | _ => exact Or.inl rfl
    | _ => exact Or.inl rfl
  | passed token =>
    cases call with
    | valkey command =>
      cases command with
      | set key value ttl =>
        rw [exec_valkey]
        cases choice.outcome with
        | refused => exact Or.inl rfl
        | lost => exact Or.inl rfl
        | performed =>
          simp only [World.perform, stages]
          cases performed : world.store.exec (world.clock + choice.elapsed) (.set key value ttl) with
          | mk answer store =>
            cases answer with
            | error e => exact Or.inl rfl
            | ok _ =>
              by_cases own : key = tokenKey d token
              · subst own
                exact Or.inr (Or.inr ⟨token, rfl, set_listed performed, by simp⟩)
              · exact Or.inl (by simp [own])
      | _ => exact Or.inl rfl
    | _ => exact Or.inl rfl

/-- The refresh has looked the token up, and ended or is on its way to burn it. -/
def Stage.Holds (token : String) (stage : Stage) : Prop :=
  stage = .passed token ∨ stage = .burned token

variable (d) in
/-- One refresh at a time holds a token, and a burned token is on the list. -/
structure Exclusive (world : World) (memory : List Stage) : Prop where
  alone : ∀ (token : String) (i j : Nat) (stage stage' : Stage), memory[i]? = some stage →
    memory[j]? = some stage' → stage.Holds token → stage'.Holds token → i = j
  listed : ∀ token, .burned token ∈ memory → world.store.entries (tokenKey d token) ≠ none

/-- A refresh that goes on from a token it holds leaves the others alone. -/
theorem Exclusive.alone_set {memory : List Stage} {i : Nat} {stage stage' : Stage}
    (exclusive : Exclusive d world memory) (remembers : memory[i]? = some stage)
    (held : ∀ token, stage'.Holds token → ∀ k theirs, memory[k]? = some theirs →
      theirs.Holds token → k = i) :
    ∀ (token : String) (k l : Nat) (first second : Stage), (memory.set i stage')[k]? = some first →
      (memory.set i stage')[l]? = some second → first.Holds token → second.Holds token → k = l := by
  intro token k l first second atK atL holds holds'
  rw [Pool.getElem?_set_of_some remembers] at atK atL
  split at atK
  · rename_i same
    cases atK
    split at atL
    · rename_i same'
      exact same.trans same'.symm
    · exact same.trans (held token holds l second atL holds').symm
  · split at atL
    · rename_i same'
      cases atL
      exact (held token holds' k first atK holds).trans same'.symm
    · exact exclusive.alone token k l first second atK atL holds holds'

theorem exclusive_step {memory : List Stage} {i : Nat} {stage : Stage} {call : Call}
    (remembers : memory[i]? = some stage) (exclusive : Exclusive d world memory)
    (allowed : (stages d).allowed stage call) (apart : Apart d choice world memory stage call) :
    Exclusive d (exec choice world call).2
      (memory.set i ((stages d).next stage call (exec choice world call).1)) := by
  have listed : ∀ token, .burned token ∈ memory →
      (exec choice world call).2.store.entries (tokenKey d token) ≠ none :=
    fun token burned => listed_stays allowed (exclusive.listed token burned)
  rcases next_cases d choice world stage call with
    same | ⟨token, rfl, rfl, absent, next⟩ | ⟨token, rfl, written, next⟩
  · rw [same, Pool.set_of_some remembers]
    exact ⟨exclusive.alone, listed⟩
  · rw [next]
    obtain ⟨none_passed, unlapsed⟩ := apart rfl
    have none_listed : world.store.entries (tokenKey d token) = none := by
      rw [Valkey.live, Option.filter_eq_none_iff] at absent
      rw [Option.eq_none_iff_forall_ne_some]
      intro entry found
      rw [found, Option.all_some] at unlapsed
      exact absent entry found unlapsed
    have nobody : ∀ (k : Nat) (theirs : Stage), memory[k]? = some theirs → ¬ theirs.Holds token := by
      rintro k theirs atK (rfl | rfl)
      · exact none_passed (List.mem_of_getElem? atK)
      · exact exclusive.listed token (List.mem_of_getElem? atK) none_listed
    refine ⟨exclusive.alone_set remembers ?_, fun token' burned => listed token' ?_⟩
    · rintro token' (same | same) k theirs atK holds
      · cases same
        exact absurd holds (nobody k theirs atK)
      · cases same
    · rcases List.mem_or_eq_of_mem_set burned with old | same
      · exact old
      · cases same
  · rw [next]
    refine ⟨exclusive.alone_set remembers ?_, fun token' burned => ?_⟩
    · rintro token' (same | same) k theirs atK holds
      · cases same
      · cases same
        exact exclusive.alone token k i theirs _ atK remembers holds (Or.inl rfl)
    · rcases List.mem_or_eq_of_mem_set burned with old | same
      · exact listed token' old
      · cases same
        exact written

end Steps

section Programs
variable {d : Deployment}

/-- A refresh that returns a pair has burned its token. -/
def Ended (result : Except AuthError Reply) (stage : Stage) : Prop :=
  ∀ response, result = .ok (.session response) → stage = .other ∨ ∃ token, stage = .burned token

theorem may_allowed {op : Operation} {call : Call} (may : op.May d call) (stage : Stage) :
    (stages d).allowed stage call := by
  have reads (read : call.Reads) : (stages d).allowed stage call := by
    cases call with
    | valkey command => cases command with
      | get | exists' => trivial
      | _ => cases read
    | _ => trivial
  cases op with
  | login => exact reads may
  | refreshTokens | logout =>
    rcases may with read | ⟨token, -, rfl⟩
    · exact reads read
    · trivial
  | forgotPassword =>
    rcases may with read | ⟨_, _, rfl⟩ | ⟨_, _, rfl⟩ | ⟨_, _, rfl⟩
    · exact reads read
    all_goals trivial
  | resetPassword =>
    rcases may with read | ⟨_, _, rfl⟩ | rfl | ⟨_, rfl⟩ | ⟨_, rfl⟩
    · exact reads read
    · trivial
    · exact fun other => resetKey_ne_tokenKey d _ other
    all_goals trivial
  | upgradeAccount =>
    rcases may with read | ⟨_, rfl⟩ | rfl | ⟨_, rfl⟩
    · exact reads read
    all_goals trivial

theorem other_reaches (op : Operation) : (stages d).Reaches Ended .other (op.program d).run :=
  (program_only d op).only.wp (fun _ may _ each => ⟨may_allowed may _, each⟩)
    fun _ _ _ => Or.inl rfl

/-- The clock leaves every stage as it is. -/
theorem now_still {stage : Stage} (call : Call) (now : call = .now)
    (Q : call.Answer → Stage → Prop) (each : ∀ r, Q r stage) : (stages d).spec call Q stage := by
  subst now
  refine ⟨trivial, fun answer => ?_⟩
  cases stage <;> exact each answer

def Burns (token : String) (result : Except AuthError AuthResponseDto) (stage : Stage) : Prop :=
  ∀ response, result = .ok response → stage = .burned token

theorem burns_error {token : String} {stage : Stage} (e : AuthError) :
    Burns token (.error e) stage := by
  intro response same
  cases same

theorem wpE_stage {β : Type} {op : Call} {next : op.Value → Method β} {stage : Stage}
    {Q : Except AuthError β → Stage → Prop} (allowed : (stages d).allowed stage op)
    (goes : ∀ value, wpE (stages d).spec (next value) Q ((stages d).next stage op (.ok value)))
    (fails : ∀ e stage, Q (.error e) stage) :
    wpE (stages d).spec (call op >>= next) Q stage := by
  rw [wpE_bind, call, wpE_mk_call]
  refine ⟨allowed, fun answer => ?_⟩
  cases answer with
  | ok value => exact goes value
  | error e => exact fails _ _

theorem rotate_burns (token : String) (user : User) :
    wpE (stages d).spec (AuthService.rotate d token user) (Burns token) (.passed token) := by
  rw [AuthService.rotate, AuthService.revokeRefreshToken]
  refine wpE_stage trivial (fun value => ?_) fun e _ => burns_error e
  have burned : (stages d).next (.passed token) (.valkey (.set (tokenKey d token)
      (.other "revoked") (some (refreshBlacklistTtlSeconds d)))) (.ok value) = .burned token := by
    simp [stages]
  rw [burned]
  exact (generateTokens_only d user).wpE_bind now_still (fun _ _ _ => rfl) burns_error

/-- A refresh that returns a pair has looked its token up and burned it. -/
theorem refreshTokens_burns {candidate : Option String} {token : String}
    (presents : AuthService.readPresentedRefreshToken candidate = some token) :
    wpE (stages d).spec (AuthService.refreshTokens d candidate) (Burns token) (.fresh token) := by
  simp only [AuthService.refreshTokens, presents]
  refine (verifyPresented_only d token).wpE_bind now_still (fun payload => ?_) burns_error
  refine wpE_stage trivial (fun reused => ?_) fun e _ => burns_error e
  cases reused with
  | true => exact burns_error _
  | false =>
    have passed : (stages d).next (.fresh token) (.valkey (.exists' (tokenKey d token)))
        (.ok false) = .passed token := by simp [stages]
    rw [passed]
    refine wpE_stage trivial (fun revoked => ?_) fun e _ => burns_error e
    cases revoked with
    | true => exact burns_error _
    | false =>
      refine wpE_stage trivial (fun found => ?_) fun e _ => burns_error e
      cases found with
      | none => exact burns_error _
      | some user =>
        dsimp only
        rw [wpE_ite]
        split
        · exact wpE_stage trivial (fun _ => burns_error _) fun e _ => burns_error e
        refine (hasActiveBan_only user.id).wpE_bind ?_ (fun banned => ?_) burns_error
        · rintro _ rfl Q each
          exact ⟨trivial, each⟩
        · cases banned with
          | true => exact wpE_stage trivial (fun _ => burns_error _) fun e _ => burns_error e
          | false => exact rotate_burns token user

theorem program_reaches (op : Operation) : (stages d).Reaches Ended op.start (op.program d).run := by
  cases op with
  | refreshTokens candidate =>
    rw [Operation.start]
    cases presents : AuthService.readPresentedRefreshToken candidate with
    | none => exact other_reaches _
    | some token =>
      refine (wpE_bind ..).mpr (wpE_mono (stages d).spec_monotone (fun result stage burns => ?_)
        (refreshTokens_burns presents))
      cases result with
      | ok response => exact fun _ _ => Or.inr ⟨token, burns response rfl⟩
      | error e => exact fun _ same => by cases same
  | _ => exact other_reaches _

end Programs

section Once
variable {d : Deployment}

/-- At most one place of a list gives something. -/
theorem length_filterMap_le_one {α β : Type} {f : α → Option β} {items : List α}
    (alone : ∀ (i j : Nat) (a b : α), items[i]? = some a → items[j]? = some b → (f a).isSome →
      (f b).isSome → i = j) : (items.filterMap f).length ≤ 1 := by
  induction items with
  | nil => simp
  | cons a rest ih =>
    have later := ih fun i j b c atI atJ gives gives' =>
      Nat.succ.inj (alone (i + 1) (j + 1) b c atI atJ gives gives')
    cases first : f a with
    | none => rwa [List.filterMap_cons_none first]
    | some b =>
      have empty : rest.filterMap f = [] := by
        rw [List.filterMap_eq_nil_iff]
        intro c member
        obtain ⟨j, atJ⟩ := List.getElem?_of_mem member
        by_contra gives
        have both := alone 0 (j + 1) a c rfl atJ (by rw [first]; rfl)
          (Option.isSome_iff_ne_none.mpr gives)
        omega
      rw [List.filterMap_cons_some first, empty]
      simp

theorem newPair_isSome {token : String} {op : Operation}
    {thread : Program Call Call.Answer (Except AuthError Reply)}
    (gives : (newPair token op thread).isSome) :
    ∃ candidate response, op = .refreshTokens candidate ∧
      AuthService.readPresentedRefreshToken candidate = some token ∧
      thread = .done (.ok (.session response)) := by
  unfold newPair at gives
  split at gives
  · rename_i candidate response
    split at gives
    · rename_i presents
      exact ⟨candidate, response, rfl, presents, rfl⟩
    · cases gives
  · cases gives

variable (d) in
/-- The operations, each about to begin. -/
def requests (world : World) (operations : List Operation) :
    Pool World Call Call.Answer (Except AuthError Reply) :=
  ⟨world, operations.map fun op => (op.program d).run⟩

theorem requests_reach (world : World) (operations : List Operation) :
    List.Forall₂ ((stages d).Reaches Ended) (operations.map Operation.start)
      (requests d world operations).threads := by
  rw [requests, List.forall₂_map_left_iff, List.forall₂_map_right_iff, List.forall₂_same]
  exact fun op _ => program_reaches op

/-- A refresh that returned a pair holds its token to the end. -/
theorem holds_of_session {world : World} {operations : List Operation}
    {schedule : List (Nat × Choice)} {i : Nat} {candidate : Option String} {token : String}
    {response : AuthResponseDto} (asked : operations[i]? = some (.refreshTokens candidate))
    (presents : AuthService.readPresentedRefreshToken candidate = some token)
    (returned : ((requests d world operations).run exec schedule).threads[i]? =
      some (.done (.ok (.session response)))) :
    ∃ stage, (Pool.recallAll exec (stages d) (operations.map Operation.start)
      (requests d world operations) schedule)[i]? = some stage ∧ stage.Holds token := by
  have reaches : List.Forall₂ ((stages d).Reaches Ended)
      (Pool.recallAll exec (stages d) (operations.map Operation.start)
        (requests d world operations) schedule)
      ((requests d world operations).run exec schedule).threads :=
    Pool.run_reaches (requests_reach world operations) schedule
  have inside := (List.getElem?_eq_some_iff.mp returned).1
  rw [← reaches.length_eq] at inside
  have remembers := List.getElem?_eq_getElem inside
  have ended := Pool.post_of_done reaches remembers returned response rfl
  have same := Pool.recallAll_kept exec (stages d) (p := fun stage => stage.token = some token)
    (fun stage call answer same => by
      rw [← same]
      cases stage with
      | other | burned => rfl
      | fresh | passed =>
        simp only [stages]
        split
        · split <;> rfl
        · rfl)
    (fun stage starts => by
      rw [List.getElem?_map, asked] at starts
      cases starts
      simp [Operation.start, presents, Stage.token])
    schedule (requests d world operations) _ remembers
  refine ⟨_, remembers, Or.inr ?_⟩
  rcases ended with other | ⟨token', burned⟩
  · rw [other] at same
    cases same
  · rw [burned] at same ⊢
    cases same
    rfl

/-- Of any number of refreshes of a token, interleaved with any other operations, at most one
returns a new pair, provided that none looks the token up while another is between its own look-up
and its burn, and that none does so after the entry of the token lapsed. -/
theorem rotated_once (world : World) (operations : List Operation)
    {schedule : List (Nat × Choice)}
    (orderly : Pool.Orderly exec (stages d) (Apart d) (fun _ => True) schedule
      (operations.map Operation.start) (requests d world operations)) (token : String) :
    (newPairs token operations
      ((requests d world operations).run exec schedule).threads).length ≤ 1 := by
  have exclusive : Exclusive d world (operations.map Operation.start) := by
    have none_holds (stage : Stage) (starts : stage ∈ operations.map Operation.start)
        (token : String) : ¬ stage.Holds token := by
      obtain ⟨op, -, rfl⟩ := List.mem_map.mp starts
      cases op with
      | refreshTokens candidate =>
        rw [Operation.start]
        cases AuthService.readPresentedRefreshToken candidate <;> simp [Stage.Holds]
      | _ => simp [Stage.Holds, Operation.start]
    exact ⟨fun token i j stage _ atI _ holds _ =>
        absurd holds (none_holds stage (List.mem_of_getElem? atI) token),
      fun token burned => absurd (Or.inr rfl) (none_holds _ burned token)⟩
  have reached : Exclusive d ((requests d world operations).run exec schedule).state
      (Pool.recallAll exec (stages d) (operations.map Operation.start)
        (requests d world operations) schedule) := Pool.orderly_invariant
    (fun _ _ _ _ _ _ remembers exclusive _ _ allowed apart =>
      exclusive_step remembers exclusive allowed apart) exclusive
    ((requests_reach world operations).imp fun _ _ => Protocol.Reaches.follows) orderly
  refine length_filterMap_le_one ?_
  have holds (k : Nat) (thread : Operation × Program Call Call.Answer (Except AuthError Reply))
      (atK : (operations.zip ((requests d world operations).run exec schedule).threads)[k]? =
        some thread) (gives : (newPair token thread.1 thread.2).isSome) :=
    have ⟨_, _, refresh, presents, ended⟩ := newPair_isSome gives
    have ⟨asked, returned⟩ := List.getElem?_zip_eq_some.mp atK
    holds_of_session (refresh ▸ asked) presents (ended ▸ returned)
  intro i j thread thread' atI atJ gives gives'
  obtain ⟨stage, remembers, held⟩ := holds i thread atI gives
  obtain ⟨stage', remembers', held'⟩ := holds j thread' atJ gives'
  exact reached.alone token i j stage stage' remembers remembers' held held'

set_option maxRecDepth 4000

unseal trim parseDurationToMs in
/-- The second refresh begins before the first ends, and looks the token up after it is burned;
a logout falls between them. -/
theorem rotated_once_overlapping :
    (newPairs readersToken [.refreshTokens (some readersToken), .refreshTokens (some readersToken),
        .logout (some readersToken)]
      ((requests .plain signedIn [.refreshTokens (some readersToken),
        .refreshTokens (some readersToken), .logout (some readersToken)]).run exec
        ([0, 1, 0, 2, 0, 0, 0, 0, 1, 0, 0, 2].map (·, {}))).threads).length ≤ 1 :=
  rotated_once signedIn _ (by decide) readersToken

unseal trim parseDurationToMs in
/-- Two refreshes of one token that look it up one after the other, and then burn it: both return
a pair. -/
theorem exchanged_twice :
    (newPairs readersToken [.refreshTokens (some readersToken), .refreshTokens (some readersToken)]
      ((requests .plain signedIn [.refreshTokens (some readersToken),
        .refreshTokens (some readersToken)]).run exec
        ([0, 1, 0, 1, 0, 1, 0, 1, 0, 1, 0, 1, 0, 1, 0, 1].map (·, {}))).threads).length = 2 := by
  decide

end Once
end Auth
