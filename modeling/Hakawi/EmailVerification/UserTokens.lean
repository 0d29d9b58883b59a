import Hakawi.Common.ValkeyCalls
import Hakawi.Effects.Pool

/-!
# Verification tokens of a user

A token is minted where no cooldown is found, and the cooldown is armed after the token is
stored. The tokens of a user are a cooldown apart as long as no token is stored between the
look at the cooldown of another call and its own token.
-/

namespace UserVerification
open Common Effects

def USER_VERIFICATION_TOKEN_PREFIX : String := "user:verify:"

def USER_VERIFICATION_TTL_SECONDS : Int := 24 * 60 * 60

def USER_VERIFICATION_RESEND_COOLDOWN_SECONDS : Int := 60

/-- A token is written in hexadecimal digits, so its key is never that of a cooldown. -/
inductive Key where
  | token (token : Nat)
  | cooldown (userId : String)
  deriving DecidableEq

structure User where
  id : String
  email : String
  isVerified : Bool
  deleted : Bool
  deriving DecidableEq

inductive Thrown where
  | failure (failure : Failure)
  | verificationCooldown (seconds : Int)

inductive Call where
  | findById (userId : String)
  /-- `randomBytes(24)` -/
  | randomBytes
  | valkey (command : Command Key)
  | emit (userId email : String)

abbrev Call.Answer : Call → Type
  | .findById _ => Except Failure (Option User)
  | .randomBytes => Nat
  | .valkey command => Except Failure command.Answer
  | .emit _ _ => Except Failure Unit

/-- What the environment decides at a call. -/
structure Choice where
  /-- Milliseconds since the last call. -/
  elapsed : Nat := 0
  outcome : Outcome := .performed
  drawn : Nat := 0

structure World where
  /-- In milliseconds. -/
  clock : Int
  store : Valkey Key
  users : List User
  /-- When a token was stored, the last one first. -/
  mintedAt : List Int
  /-- No cooldown was armed after the last token. -/
  owed : Bool

namespace World

/-- What a command has done about the tokens. -/
def noted (world : World) (time : Int) : Command Key → World
  | .set (.token _) _ _ => { world with mintedAt := time :: world.mintedAt, owed := true }
  | .set (.cooldown _) _ _ => { world with owed := false }
  | _ => world

def sent (world : World) (time : Int) (command : Command Key) : World :=
  { world.noted time command with clock := time, store := (world.store.exec time command).2 }

end World

/-- The mail is sent without being awaited; the calls are the others. -/
def exec (choice : Choice) (world : World) (call : Call) : call.Answer × World :=
  let time := world.clock + choice.elapsed
  let later := { world with clock := time }
  match call with
  | .randomBytes => (choice.drawn, later)
  | .findById userId => match choice.outcome with
    | .performed => (.ok (world.users.find? (·.id = userId)), later)
    | _ => (.error disconnected, later)
  | .emit _ _ => match choice.outcome with
    | .performed => (.ok (), later)
    | _ => (.error disconnected, later)
  | .valkey command => match choice.outcome with
    | .performed => ((world.store.exec time command).1, world.sent time command)
    | .refused => (.error disconnected, later)
    | .lost => (.error disconnected, world.sent time command)

abbrev Method (α : Type) : Type := Fallible Call Call.Answer Thrown α

def drawToken : Method Nat := ExceptT.mk (.call .randomBytes fun token => .done (.ok token))

/-- A call that answers or throws. -/
def attempt (op : Call) {α : Type} (same : op.Answer = Except Failure α) : Method α :=
  ExceptT.mk (.call op fun answer => .done ((cast same answer).mapError .failure))

def valkey (command : Command Key) : Method command.Answer := attempt (.valkey command) rfl

inductive IssueOutcome where
  | alreadyVerified
  | cooldown
  | issued (token : Nat)

namespace UserVerificationService

/-- The one place where a token is minted. -/
def issue (userId : String) : Method IssueOutcome := do
  match ← attempt (.findById userId) rfl with
  | none => throw (.failure (.notFound "User not found"))
  | some user =>
    if user.deleted then throw (.failure (.notFound "User not found"))
    else if user.isVerified then return .alreadyVerified
    else
      match ← valkey (.get (.cooldown userId)) with
      | some _ => return .cooldown
      | none => do
        let token ← drawToken
        valkey (.set (.token token) (.other userId) (some USER_VERIFICATION_TTL_SECONDS))
        valkey (.set (.cooldown userId) (.integer 1)
          (some USER_VERIFICATION_RESEND_COOLDOWN_SECONDS))
        attempt (.emit userId user.email) rfl
        return .issued token

structure VerificationRequestResult where
  userId : String
  alreadyVerified : Bool
  cooldownSeconds : Int

def request (userId : String) : Method VerificationRequestResult := do
  match ← issue userId with
  | .alreadyVerified => return ⟨userId, true, 0⟩
  | .cooldown | .issued _ => return ⟨userId, false, USER_VERIFICATION_RESEND_COOLDOWN_SECONDS⟩

def issueToken (userId : String) : Method Nat := do
  match ← issue userId with
  | .alreadyVerified => throw (.failure (.badRequest "User is already verified"))
  | .cooldown => throw (.verificationCooldown USER_VERIFICATION_RESEND_COOLDOWN_SECONDS)
  | .issued token => return token

end UserVerificationService

inductive Operation where
  | request
  | issueToken
  deriving DecidableEq

def Operation.run (userId : String) : Operation → Method Unit
  | request => do let _ ← UserVerificationService.request userId
  | issueToken => do let _ ← UserVerificationService.issueToken userId

/-- The calls of one user, none of them begun. -/
def pool (userId : String) (world : World) (operations : List Operation) :
    Pool World Call Call.Answer (Except Thrown Unit) :=
  ⟨world, operations.map fun operation => (operation.run userId).run⟩

/-- The commands that the calls of one user send. -/
inductive Sends (userId : String) : Command Key → Prop where
  | look : Sends userId (.get (.cooldown userId))
  | mint (token : Nat) : Sends userId
      (.set (.token token) (.other userId) (some USER_VERIFICATION_TTL_SECONDS))
  | arm : Sends userId (.set (.cooldown userId) (.integer 1)
      (some USER_VERIFICATION_RESEND_COOLDOWN_SECONDS))

def Call.Own (userId : String) : Call → Prop
  | .valkey command => Sends userId command
  | _ => True

theorem onlyE_attempt {A : Call → Prop} {op : Call} {α : Type}
    {same : op.Answer = Except Failure α} (own : A op) : OnlyE A (attempt op same) :=
  ⟨own, fun _ => trivial⟩

theorem issue_own (userId : String) :
    OnlyE (Call.Own userId) (UserVerificationService.issue userId) := by
  refine OnlyE.bind (onlyE_attempt trivial) fun found => ?_
  cases found with
  | none => exact onlyE_throw _
  | some user =>
    dsimp only
    split
    · exact onlyE_throw _
    · split
      · exact onlyE_pure _
      · refine OnlyE.bind (onlyE_attempt Sends.look) fun cooling => ?_
        cases cooling with
        | some _ => exact onlyE_pure _
        | none =>
          refine OnlyE.bind ⟨trivial, fun _ => trivial⟩ fun token => ?_
          refine OnlyE.bind (onlyE_attempt (Sends.mint token)) fun _ => ?_
          refine OnlyE.bind (onlyE_attempt Sends.arm) fun _ => ?_
          exact OnlyE.bind (onlyE_attempt trivial) fun _ => onlyE_pure _

theorem Operation.run_own (userId : String) (operation : Operation) :
    OnlyE (Call.Own userId) (operation.run userId) := by
  cases operation with
  | request =>
    refine OnlyE.bind (OnlyE.bind (issue_own userId) fun outcome => ?_) fun _ => onlyE_pure _
    cases outcome <;> exact onlyE_pure _
  | issueToken =>
    refine OnlyE.bind (OnlyE.bind (issue_own userId) fun outcome => ?_) fun _ => onlyE_pure _
    cases outcome <;> first | exact onlyE_throw _ | exact onlyE_pure _

section Cooldown
variable (userId : String)

/-- A token is stored while no cooldown runs and none is owed for an earlier token. -/
def InTurn (choice : Choice) (world : World) : Call → Prop
  | .valkey (.set (.token _) _ _) =>
    world.owed = false ∧
      world.store.exists' (world.clock + choice.elapsed) (.cooldown userId) = false
  | _ => True

instance (choice : Choice) (world : World) (call : Call) :
    Decidable (InTurn userId choice world call) := by
  rw [InTurn.eq_def]
  split <;> infer_instance

/-- Milliseconds of a cooldown. -/
def WINDOW : Int := USER_VERIFICATION_RESEND_COOLDOWN_SECONDS * 1000

/-- Any two tokens are a cooldown apart. -/
def World.Spaced (world : World) : Prop :=
  world.mintedAt.Pairwise fun later earlier => earlier + WINDOW ≤ later

instance (world : World) : Decidable world.Spaced := inferInstanceAs (Decidable (List.Pairwise ..))

/-- The cooldown, once armed, runs as long as the window of every token. -/
def Covers (world : World) (time : Int) : Prop :=
  ∃ entry ends, world.store.entries (.cooldown userId) = some entry ∧
    entry.expiresAt = some ends ∧ time + WINDOW ≤ ends

structure Guarded (world : World) : Prop where
  spaced : world.Spaced
  past : ∀ time ∈ world.mintedAt, time ≤ world.clock
  covered : world.owed = false →
    ∀ time ∈ world.mintedAt, time + WINDOW ≤ world.clock ∨ Covers userId world time

variable {userId} {world : World}

/-- Time passes. -/
theorem Guarded.later (guarded : Guarded userId world) (elapsed : Nat) :
    Guarded userId { world with clock := world.clock + elapsed } where
  spaced := guarded.spaced
  past time minted := by
    have := guarded.past time minted
    change time ≤ world.clock + elapsed
    omega
  covered armed time minted := by
    rcases guarded.covered armed time minted with lapsed | covers
    · left
      change time + WINDOW ≤ world.clock + elapsed
      omega
    · exact Or.inr covers

/-- Where no cooldown is found, the window of every token is over. -/
theorem Covers.lapsed {time now : Int} (covers : Covers userId world time)
    (absent : world.store.exists' now (.cooldown userId) = false) : time + WINDOW ≤ now := by
  obtain ⟨entry, ends, stored, expires, covers⟩ := covers
  rw [Valkey.exists', Valkey.live, stored] at absent
  simp [Option.filter, expires] at absent
  omega

theorem Guarded.sent {command : Command Key} (guarded : Guarded userId world) (elapsed : Nat)
    (sends : Sends userId command)
    (inTurn : InTurn userId { elapsed } world (.valkey command)) :
    Guarded userId (world.sent (world.clock + elapsed) command) := by
  have later := guarded.later elapsed
  cases sends with
  | look => exact later
  | mint token =>
    obtain ⟨armed, absent⟩ := inTurn
    have lapsed : ∀ time ∈ world.mintedAt, time + WINDOW ≤ world.clock + elapsed := by
      intro time minted
      rcases later.covered armed time minted with lapsed | covers
      · exact lapsed
      · exact covers.lapsed absent
    refine ⟨List.pairwise_cons.mpr ⟨lapsed, guarded.spaced⟩, ?_, nofun⟩
    exact List.forall_mem_cons.mpr ⟨Int.le_refl _, later.past⟩
  | arm =>
    refine ⟨guarded.spaced, later.past, fun _ time minted => Or.inr ?_⟩
    refine ⟨_, _, Function.update_self .., rfl, ?_⟩
    have := later.past time minted
    change time + 60 * 1000 ≤ world.clock + elapsed + 60 * 1000
    exact Int.add_le_add_right this _

theorem Guarded.exec {choice : Choice} {op : Call} (guarded : Guarded userId world)
    (own : op.Own userId) (inTurn : InTurn userId choice world op) :
    Guarded userId (exec choice world op).2 := by
  have later := guarded.later choice.elapsed
  cases op with
  | randomBytes => exact later
  | findById userId =>
    rw [UserVerification.exec]
    split <;> exact later
  | emit userId email =>
    rw [UserVerification.exec]
    split <;> exact later
  | valkey command =>
    rw [UserVerification.exec]
    cases choice.outcome with
    | refused => exact later
    | performed | lost => exact guarded.sent choice.elapsed own inTurn

end Cooldown

/-- When every token is stored in its turn, no window of a cooldown has two. -/
theorem user_tokens_spaced (userId : String) {world : World} (guarded : Guarded userId world)
    (operations : List Operation) (schedule : List (Nat × Choice))
    (inTurn : Pool.EachCall exec (InTurn userId) schedule (pool userId world operations)) :
    ((pool userId world operations).run exec schedule).state.Spaced := by
  have own : ∀ p ∈ (pool userId world operations).threads, p.Only (Call.Own userId) := by
    intro p member
    obtain ⟨operation, -, rfl⟩ := List.mem_map.mp member
    exact (operation.run_own userId).only
  have owns : Pool.EachCall exec (fun _ _ op => op.Own userId) schedule
      (pool userId world operations) :=
    Pool.eachCall_of_only exec (fun _ _ _ own => own) own schedule
  exact (Pool.eachCall_invariant exec
    (fun _ _ _ guarded both => Guarded.exec guarded both.1 both.2) guarded
    (owns.and exec inTurn)).spaced

/-- A user for whom nothing was minted yet. -/
def World.anna : World := ⟨0, .empty, [⟨"anna", "anna@hakawi", false, false⟩], [], false⟩

theorem anna_guarded : Guarded "anna" World.anna :=
  ⟨List.Pairwise.nil, (fun _ minted => nomatch minted), fun _ _ minted => nomatch minted⟩

/-- Turns of the calls, with the milliseconds before each. -/
def turns (threads : List (Nat × Nat)) : List (Nat × Choice) :=
  threads.map fun turn => (turn.1, { elapsed := turn.2 })

theorem anna_spaced :
    ((pool "anna" World.anna [.request, .issueToken]).run exec
      (turns (List.replicate 6 (0, 1) ++ (1, 61000) :: List.replicate 5 (1, 1)))).state.Spaced :=
  user_tokens_spaced "anna" anna_guarded [.request, .issueToken] _ (by decide)

/-- Two calls look at the cooldown before either arms it, and both mint. -/
theorem anna_twice :
    ¬ ((pool "anna" World.anna [.request, .issueToken]).run exec
      (turns ([(0, 1), (0, 1), (1, 1), (1, 1)] ++ List.replicate 4 (0, 1) ++
        List.replicate 4 (1, 1)))).state.Spaced := by
  decide

end UserVerification
