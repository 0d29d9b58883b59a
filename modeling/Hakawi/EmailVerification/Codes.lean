import Hakawi.EmailVerification.Service

/-!
# Whom a code verifies

A code verifies only a user it was minted for and that was not removed since. But the codes
are few, and one that is drawn again is stored under the same key, whoever it was for before.
The calls are any number, interleaved.
-/

namespace EmailVerification
open Common Effects

namespace World

/-- Presenting the code verifies the user. -/
def Valid (world : World) (token : Token) (userId : String) : Prop :=
  (world.store.live world.clock (.code token)).map Entry.content = some (.text (.other userId))

/-- A code that was stored for a user, and has neither been removed nor expired since, is valid. -/
def Held (world : World) : Prop :=
  ∀ token, ∀ minted ∈ world.minted token, world.clock < minted.expiresAt →
    world.Valid token minted.userId

/-- Under a code is what was stored last. -/
structure Kept (world : World) : Prop where
  entries : ∀ token, world.store.entries (.code token) =
    (world.minted token).getLast?.map Minted.entry
  dated : ∀ token, (world.minted token).Pairwise fun first second =>
    first.mintedAt ≤ second.mintedAt
  past : ∀ token, ∀ minted ∈ world.minted token, minted.mintedAt ≤ world.clock

def later (world : World) (elapsed : Nat) : World :=
  { world with clock := world.clock + elapsed }

end World

/-- A code is stored for no other user as long as it is valid for one. -/
def Spares (choice : Choice) (world : World) : Call → Prop
  | .setCode token userId => choice.outcome ≠ .refused → ∀ minted ∈ world.minted token,
      world.clock + choice.elapsed < minted.expiresAt → minted.userId = userId
  | _ => True

instance (choice : Choice) (world : World) (op : Call) : Decidable (Spares choice world op) := by
  cases op <;> unfold Spares <;> infer_instance

section Steps
variable {world : World} {token : Token}

/-- A code is valid for the user it was stored for last, until it expires. -/
theorem World.Kept.valid_iff (kept : world.Kept) {userId : String} :
    world.Valid token userId ↔ ∃ minted ∈ (world.minted token).getLast?,
      minted.userId = userId ∧ world.clock < minted.expiresAt := by
  rw [World.Valid, Valkey.live, kept.entries]
  cases (world.minted token).getLast? with
  | none => simp
  | some minted =>
    by_cases fresh : world.clock < minted.expiresAt
    · simp [Minted.entry, Option.filter, fresh]
    · simp [Minted.entry, Option.filter, fresh]

theorem World.Kept.le_last (kept : world.Kept) {minted last : Minted}
    (member : minted ∈ world.minted token) (ends : (world.minted token).getLast? = some last) :
    minted.mintedAt ≤ last.mintedAt := by
  obtain ⟨early, split⟩ := List.getLast?_eq_some_iff.mp ends
  have dated := kept.dated token
  rw [split] at dated member
  rcases List.mem_append.mp member with before | same
  · exact (List.pairwise_append.mp dated).2.2 minted before last List.mem_cons_self
  · rw [List.mem_singleton.mp same]

/-- All that have not expired are for the user the code was stored for last. -/
theorem World.Kept.held_iff (kept : world.Kept) : world.Held ↔
    ∀ token, ∀ minted ∈ world.minted token, world.clock < minted.expiresAt →
      ∀ last ∈ (world.minted token).getLast?, last.userId = minted.userId := by
  refine forall_congr' fun token => forall₂_congr fun minted member => ?_
  refine imp_congr_right fun fresh => ?_
  rw [kept.valid_iff]
  constructor
  · rintro ⟨last, ends, same, -⟩ last' ends'
    rw [Option.mem_def.mp ends] at ends'
    exact Option.some.inj ends' ▸ same
  · intro same
    have ends := List.getLast?_eq_some_getLast (List.ne_nil_of_mem member)
    refine ⟨_, ends, same _ ends, ?_⟩
    have order := kept.le_last member ends
    simp only [Minted.expiresAt] at fresh ⊢
    omega

theorem World.Kept.later (kept : world.Kept) (elapsed : Nat) : (world.later elapsed).Kept where
  entries := kept.entries
  dated := kept.dated
  past token minted member := by
    have before := kept.past token minted member
    simp only [World.later]
    omega

theorem World.Held.later (kept : world.Kept) (held : world.Held) (elapsed : Nat) :
    (world.later elapsed).Held := by
  rw [(kept.later elapsed).held_iff]
  intro token minted member fresh
  refine kept.held_iff.mp held token minted member ?_
  simp only [World.later] at fresh
  omega

/-- Clock, codes and what is kept under them are as they were. -/
structure World.Still (world after : World) : Prop where
  clock : after.clock = world.clock
  entries : ∀ token, after.store.entries (.code token) = world.store.entries (.code token)
  minted : after.minted = world.minted

theorem World.Still.kept {after : World} (still : world.Still after) (kept : world.Kept) :
    after.Kept where
  entries token := by rw [still.entries, still.minted, kept.entries]
  dated := still.minted ▸ kept.dated
  past := by
    rw [still.minted, still.clock]
    exact kept.past

theorem World.Still.held {after : World} (still : world.Still after) (kept : world.Kept)
    (held : world.Held) : after.Held := by
  rw [(still.kept kept).held_iff, still.minted, still.clock]
  exact kept.held_iff.mp held

/-- A key that holds no code is written. -/
theorem still_put {key : Key} (other : ∀ token, key ≠ .code token) (entry : Option (Entry Key)) :
    world.Still { world with store := world.store.put key entry } :=
  ⟨rfl, fun token => Valkey.put_entries_ne (other token).symm _, rfl⟩

/-- A call that neither stores a code nor removes one. -/
theorem perform_still (choice : Choice) (world : World) (op : Call)
    (aside : match op with
      | .setCode _ _ | .del (.code _) => False
      | _ => True) : world.Still (world.perform choice op).2 := by
  cases op with
  | setCode _ _ => exact aside.elim
  | setEmail email draw => exact still_put (fun _ same => by cases same) _
  | armCooldown email =>
    rw [World.perform]
    split
    · exact ⟨rfl, fun _ => rfl, rfl⟩
    · exact still_put (fun _ same => by cases same) _
  | del key =>
    cases key with
    | code _ => exact aside.elim
    | email address => exact still_put (fun _ same => by cases same) _
    | cooldown address => exact still_put (fun _ same => by cases same) _
  | _ => exact ⟨rfl, fun _ => rfl, rfl⟩

theorem update_minted {token other : Token} {list : List Minted} :
    Function.update world.minted token list other =
      if other = token then list else world.minted other := by
  by_cases same : other = token
  · rw [same, Function.update_self, if_pos rfl]
  · rw [Function.update_of_ne same, if_neg same]

theorem setCode_kept (choice : Choice) (kept : world.Kept) (token : Token) (userId : String) :
    (world.perform choice (.setCode token userId)).2.Kept where
  entries other := by
    simp only [World.perform, update_minted]
    by_cases same : other = token
    · simp [same]
    · rw [if_neg same, ← kept.entries]
      exact Valkey.put_entries_ne (fun equal => same (Key.code.inj equal)) _
  dated other := by
    simp only [World.perform, update_minted]
    split
    · refine List.pairwise_append.mpr ⟨kept.dated token, List.pairwise_singleton _ _, ?_⟩
      intro minted member new last
      rw [List.mem_singleton.mp last]
      exact kept.past token minted member
    · exact kept.dated other
  past other minted member := by
    simp only [World.perform, update_minted] at member ⊢
    split at member
    · rcases List.mem_append.mp member with before | new
      · exact kept.past token minted before
      · rw [List.mem_singleton.mp new]
    · exact kept.past other minted member

/-- A code that is stored stays right for those it was stored for before exactly if they are the
same user. -/
theorem setCode_held_iff (choice : Choice) (kept : world.Kept) (held : world.Held) (token : Token)
    (userId : String) : (world.perform choice (.setCode token userId)).2.Held ↔
      ∀ minted ∈ world.minted token, world.clock < minted.expiresAt → minted.userId = userId := by
  rw [(setCode_kept choice kept token userId).held_iff]
  simp only [World.perform, update_minted]
  constructor
  · intro right minted member fresh
    have last := right token minted
    simp only [if_true, List.getLast?_concat] at last
    exact (last (List.mem_append_left _ member) fresh _ rfl).symm
  · intro spares other minted member fresh last ends
    by_cases same : other = token
    · simp only [same, if_true, List.getLast?_concat, Option.mem_some_iff] at member ends
      subst ends
      rcases List.mem_append.mp member with before | new
      · exact (spares minted before fresh).symm
      · rw [List.mem_singleton.mp new]
    · simp only [if_neg same] at member ends
      exact kept.held_iff.mp held other minted member fresh last ends

theorem del_code (choice : Choice) (kept : world.Kept) (token : Token) :
    (world.perform choice (.del (.code token))).2.Kept ∧
      (world.Held → (world.perform choice (.del (.code token))).2.Held) := by
  have after : (world.perform choice (.del (.code token))).2.Kept := by
    constructor
    · intro other
      simp only [World.perform, update_minted]
      by_cases same : other = token
      · simp [same, Valkey.del]
      · rw [if_neg same, ← kept.entries]
        exact Valkey.put_entries_ne (fun equal => same (Key.code.inj equal)) _
    · intro other
      simp only [World.perform, update_minted]
      split
      · exact List.Pairwise.nil
      · exact kept.dated other
    · intro other minted member
      simp only [World.perform, update_minted] at member
      split at member
      · cases member
      · exact kept.past other minted member
  refine ⟨after, fun held => after.held_iff.mpr ?_⟩
  simp only [World.perform, update_minted]
  intro other minted member fresh last ends
  split at member
  · cases member
  · rename_i different
    rw [if_neg different] at ends
    exact kept.held_iff.mp held other minted member fresh last ends

theorem exec_refused {choice : Choice} {op : Call} (fails : op.mayFail = true)
    (refused : choice.outcome = .refused) :
    (exec choice world op).2 = world.later choice.elapsed := by
  rw [exec, fails, refused]
  rfl

theorem exec_carried {choice : Choice} {op : Call}
    (carried : ¬ (op.mayFail = true ∧ choice.outcome = .refused)) :
    (exec choice world op).2 = ((world.later choice.elapsed).perform choice op).2 := by
  rw [exec]
  split
  · rename_i fails refused
    exact absurd ⟨fails, refused⟩ carried
  · rfl
  · rfl

theorem World.Kept.exec (kept : world.Kept) (choice : Choice) (op : Call) :
    (exec choice world op).2.Kept := by
  have kept' := kept.later choice.elapsed
  by_cases waits : op.mayFail = true ∧ choice.outcome = .refused
  · rw [exec_refused waits.1 waits.2]
    exact kept'
  · rw [exec_carried waits]
    cases op with
    | setCode token userId => exact setCode_kept choice kept' token userId
    | del key =>
      cases key with
      | code token => exact (del_code choice kept' token).1
      | _ =>
        refine World.Still.kept ?_ kept'
        exact perform_still choice _ _ trivial
    | _ =>
      refine World.Still.kept ?_ kept'
      exact perform_still choice _ _ trivial

theorem held_exec_iff (choice : Choice) (kept : world.Kept) (held : world.Held) (op : Call) :
    (exec choice world op).2.Held ↔ Spares choice world op := by
  have kept' := kept.later choice.elapsed
  have held' := held.later kept choice.elapsed
  by_cases waits : op.mayFail = true ∧ choice.outcome = .refused
  · rw [exec_refused waits.1 waits.2]
    refine iff_of_true held' ?_
    cases op with
    | setCode token userId => exact fun carried => absurd waits.2 carried
    | _ => trivial
  · rw [exec_carried waits]
    cases op with
    | setCode token userId =>
      rw [setCode_held_iff choice kept' held']
      exact ⟨fun spares _ => spares, fun spares => spares fun refused => waits ⟨rfl, refused⟩⟩
    | del key =>
      cases key with
      | code token => exact iff_of_true ((del_code choice kept' token).2 held') trivial
      | _ =>
        refine iff_of_true (World.Still.held ?_ kept' held') trivial
        exact perform_still choice _ _ trivial
    | _ =>
      refine iff_of_true (World.Still.held ?_ kept' held') trivial
      exact perform_still choice _ _ trivial

end Steps

section Verification
variable {world : World}

/-- Every execution, whatever the environment decides. -/
abbrev anyhow : Program.OpSpec Call Call.Answer World := Program.assuming exec fun _ _ _ => True

theorem anyhow_monotone : anyhow.Monotone := Program.assuming_monotone _ _

def Call.Marks : Call → Prop
  | .markVerified _ => True
  | _ => False

theorem exec_users (choice : Choice) (before : World) {op : Call} (other : ¬ op.Marks) :
    (exec choice before op).2.users = before.users := by
  by_cases waits : op.mayFail = true ∧ choice.outcome = .refused
  · rw [exec_refused waits.1 waits.2]
    rfl
  · rw [exec_carried waits]
    cases op with
    | markVerified _ => exact absurd trivial other
    | armCooldown email =>
      rw [World.perform]
      split <;> rfl
    | _ => rfl

theorem verified_mark {choice : Choice} {before : World} {userId id : String}
    (marked : (exec choice before (.markVerified userId)).2.Verified id) :
    before.Verified id ∨ id = userId := by
  by_cases waits : (Call.markVerified userId).mayFail = true ∧ choice.outcome = .refused
  · rw [exec_refused waits.1 waits.2] at marked
    exact Or.inl marked
  · rw [exec_carried waits] at marked
    obtain ⟨user, member, rfl, verified⟩ := marked
    obtain ⟨old, present, rfl⟩ := List.mem_map.mp member
    split at verified
    · rename_i named
      exact Or.inr (by rw [if_pos named]; exact named)
    · rename_i named
      exact Or.inl ⟨old, present, by rw [if_neg named], verified⟩

/-- What the code reads is a user it was stored for. -/
theorem minted_of_get (kept : world.Kept) {choice : Choice} {token : Token} {found : Option Text}
    (answered : (exec choice world (.get (.code token))).1 = .ok found) {userId : String}
    (read : EmailVerificationService.userIdOf found = some userId) :
    ∃ minted ∈ world.minted token, minted.userId = userId := by
  have stored : found = some (.other userId) := by
    unfold EmailVerificationService.userIdOf at read
    split at read
    · split at read
      · cases read
      · cases read
        rfl
    · cases read
  have got : (world.later choice.elapsed).store.get (world.later choice.elapsed).clock
      (.code token) = .ok found := by
    rw [exec] at answered
    split at answered
    · cases answered
    · cases answered
    · exact answered
  have valid : (world.later choice.elapsed).Valid token userId := by
    rw [stored, Valkey.get] at got
    rw [World.Valid]
    split at got
    · cases got
    · rename_i text time live
      rw [live]
      cases got
      rfl
    · cases got
  obtain ⟨minted, last, same, -⟩ := (kept.later choice.elapsed).valid_iff.mp valid
  exact ⟨minted, List.mem_of_getLast? last, same⟩

theorem wpE_call {α : Type} {op : Call} {next : op.Value → Method α}
    {Q : Except Failure α → World → Prop}
    (goes : ∀ choice value, (exec choice world op).1 = .ok value →
      wpE anyhow (next value) Q (exec choice world op).2)
    (thrown : ∀ choice e, (exec choice world op).1 = .error e →
      Q (.error e) (exec choice world op).2) :
    wpE anyhow (call op >>= next) Q world := by
  rw [wpE_bind]
  intro choice _
  simp only [Program.wp_done]
  cases answered : (exec choice world op).1 with
  | ok value => exact goes choice value answered
  | error e => exact thrown choice e answered

theorem wpE_sameUsers {α : Type} {p : Method α} {Q : Except Failure α → World → Prop}
    (only : OnlyE (fun op => ¬ op.Marks) p)
    (ends : ∀ result after, after.users = world.users → Q result after) : wpE anyhow p Q world := by
  have same : wpE anyhow p (fun _ after => after.users = world.users) world :=
    only.only.wp_assuming (fun choice before op other same =>
      (exec_users choice before other).trans same) rfl
  exact wpE_mono anyhow_monotone ends same

theorem verified_of_users {before after : World} (same : after.users = before.users) {id : String}
    (verified : after.Verified id) : before.Verified id := by
  rw [World.Verified, same] at verified
  exact verified

theorem verifyToken_marks (kept : world.Kept) (token : Token) :
    wpE anyhow (EmailVerificationService.verifyToken token) (fun _ after => ∀ id,
      after.Verified id → world.Verified id ∨
        ∃ minted ∈ world.minted token, minted.userId = id) world := by
  have looked (choice : Choice) : (exec choice world (.get (.code token))).2.users = world.users :=
    exec_users choice world not_false
  refine wpE_call (fun choice found answered => ?_) fun choice _ _ id verified =>
    Or.inl (verified_of_users (looked choice) verified)
  cases read : EmailVerificationService.userIdOf found with
  | none => exact fun id verified => Or.inl (verified_of_users (looked choice) verified)
  | some userId =>
    obtain ⟨minted, member, named⟩ := minted_of_get kept answered read
    have entitled : ∃ minted ∈ world.minted token, minted.userId = userId := ⟨minted, member, named⟩
    have found_ (later : Choice) : (exec later (exec choice world (.get (.code token))).2
        (.findById userId)).2.users = world.users := by
      refine (exec_users later _ ?_).trans (looked choice)
      exact not_false
    refine wpE_call (fun later user _ => ?_) fun later _ _ id verified =>
      Or.inl (verified_of_users (found_ later) verified)
    cases user with
    | none => exact fun id verified => Or.inl (verified_of_users (found_ later) verified)
    | some user =>
      have marks (last : Choice) : ∀ id, (exec last (exec later (exec choice world
          (.get (.code token))).2 (.findById userId)).2 (.markVerified userId)).2.Verified id →
            world.Verified id ∨ ∃ minted ∈ world.minted token, minted.userId = id := by
        intro id verified
        rcases verified_mark verified with before | rfl
        · exact Or.inl (verified_of_users (found_ later) before)
        · exact Or.inr entitled
      refine wpE_call (fun last _ _ => ?_) fun last _ _ => marks last
      refine wpE_sameUsers ?_ fun _ after same id verified =>
        marks last id (verified_of_users same verified)
      refine OnlyE.bind ⟨⟨not_false, fun _ => trivial⟩⟩ fun _ => ?_
      refine OnlyE.bind ⟨⟨not_false, fun _ => trivial⟩⟩ fun _ => ?_
      exact OnlyE.bind ⟨⟨not_false, fun _ => trivial⟩⟩ fun _ => onlyE_pure _

/-- In any interleaving every code stays valid for the users it was stored for, until it is removed
or expires, exactly if no code is stored for a user while it is valid for another. And whatever
came before, a code verifies only a user it was stored for since it was last removed. -/
theorem codes_held_iff {start : World} (kept : start.Kept) (held : start.Held)
    (operations : List Operation) (schedule : List (Nat × Choice)) :
    (Pool.EachCall exec Spares schedule (pool start operations) ↔
      ∀ n, ((pool start operations).run exec (schedule.take n)).state.Held) ∧
    ∀ n token choices id,
      ¬ ((pool start operations).run exec (schedule.take n)).state.Verified id →
      ((EmailVerificationService.verifyToken token).run.eval exec choices
        ((pool start operations).run exec (schedule.take n)).state).2.Verified id →
      ∃ minted ∈ ((pool start operations).run exec (schedule.take n)).state.minted token,
        minted.userId = id := by
  have everyone (n : Nat) : ((pool start operations).run exec (schedule.take n)).state.Kept := by
    have preserves (choice : Choice) (world : World) (op : Call) (kept : world.Kept) (_ : True) :
        (exec choice world op).2.Kept := kept.exec choice op
    exact Pool.eachCall_invariant exec preserves kept
      (Pool.eachCall_of_forall exec (fun _ _ _ => trivial) _ _)
  constructor
  · have both (choice : Choice) (world : World) (op : Call) (well : world.Kept ∧ world.Held) :
        ((exec choice world op).2.Kept ∧ (exec choice world op).2.Held ↔ Spares choice world op) :=
      (and_iff_right (well.1.exec choice op)).trans (held_exec_iff choice well.1 well.2 op)
    have each : Pool.EachCall exec Spares schedule (pool start operations) ↔ _ :=
      Pool.eachCall_iff exec both ⟨kept, held⟩ schedule
    exact each.trans (forall_congr' fun n => and_iff_right (everyone n))
  · intro n token choices id unverified verified
    have marks := Program.eval_of_assuming (verifyToken_marks (everyone n) token)
      (Program.each_of_forall (fun _ _ _ => trivial) _ choices _)
    exact (marks id verified).resolve_left unverified

end Verification

section Examples

def email (name : String) : Email := ⟨name ++ "@hakawi", by
  intro empty
  have lengths := congrArg String.length empty
  rw [String.length_append] at lengths
  exact absurd lengths (by simp)⟩

def reader (name : String) : User := ⟨name, email name, false⟩

/-- Two readers, and no codes. -/
def World.readers : World := ⟨0, .empty, fun _ => [], [reader "anna", reader "basil"], [], []⟩

theorem readers_kept : World.readers.Kept :=
  ⟨fun _ => rfl, fun _ => List.Pairwise.nil, fun _ _ never => by cases never⟩

theorem readers_held : World.readers.Held := fun _ _ never => by cases never

/-- Every draw is the same. -/
def draws (n : Draw) (threads : List Nat) : List (Nat × Choice) :=
  threads.map fun i => (i, { drawn := n })

def first : Draw := ⟨100000, by decide⟩
def second : Draw := ⟨100001, by decide⟩

def both : List Operation := [.generateToken (email "anna"), .generateToken (email "basil")]

/-- Codes that differ. -/
def apart : List (Nat × Choice) := draws first [0, 0, 0, 0, 0] ++ draws second [1, 1, 1, 1, 1]

theorem codes_held_apart : ((pool .readers both).run exec (apart.take 10)).state.Held :=
  ((codes_held_iff readers_kept readers_held both apart).1.mp (by decide)) 10

/-- The same code is drawn for both: it was sent to the first reader and verifies the second. -/
theorem codes_redirected :
    ((pool .readers both).run exec (draws first [0, 0, 0, 0, 0, 1, 1, 1, 1, 1])).state.mails =
      [(email "anna", Draw.token first), (email "basil", Draw.token first)] ∧
    ¬ ((pool .readers both).run exec (draws first [0, 0, 0, 0, 0, 1, 1, 1, 1, 1])).state.Held ∧
    ((EmailVerificationService.verifyToken (Draw.token first)).run.eval exec (fun _ => {})
      ((pool .readers both).run exec (draws first [0, 0, 0, 0, 0, 1, 1, 1, 1, 1])).state).1 =
        .ok "basil" := by
  refine ⟨by decide, fun held => ?_, by decide⟩
  have valid := held (Draw.token first) ⟨"anna", 0⟩ (by decide) (by decide)
  have redirected : ((pool .readers both).run exec
      (draws first [0, 0, 0, 0, 0, 1, 1, 1, 1, 1])).state.Valid (Draw.token first) "basil" := rfl
  have same := Text.other.inj (Content.text.inj (Option.some.inj (valid.symm.trans redirected)))
  revert same
  decide

end Examples
end EmailVerification
