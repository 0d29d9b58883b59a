import Hakawi.Admin.Bounds

/-!
# The role of a user

A user has the role of one of his assignments, and the expiry that is kept beside it should be
that of the assignment. But no statement of the service writes the expiry, and the role that is
left after a revocation may have expired. Calls come one after the other at any times.
-/

namespace Admin
open Common Store Effects

namespace World

def roleOf (world : World) (userId : String) : Option String :=
  (world.findUser userId).bind (·.adminRole)

/-- An unrevoked assignment of the role, with the expiry on record. -/
structure Backs (world : World) (userId role : String) (assignment : AdminRoleAssignment) :
    Prop where
  member : assignment ∈ world.assignments.rows
  user : assignment.userId = userId
  role : assignment.adminRole.value = role
  unrevoked : assignment.revokedAt = none
  expiry : assignment.expiresAt = world.adminRoleExpiresAt userId

/-- The role is none, or one that an assignment gives the user. -/
def Backed (world : World) (userId : String) : Prop :=
  ∀ role ∈ world.roleOf userId, ∃ assignment, world.Backs userId role assignment

/-- The same, and the assignment has not expired. -/
def Summarised (world : World) (userId : String) : Prop :=
  ∀ role ∈ world.roleOf userId, ∃ assignment, world.Backs userId role assignment ∧
    ¬ assignment.Expired world.clock

/-- The expiry on record of a role has not passed. -/
def Lasts (world : World) (userId : String) : Prop :=
  (world.roleOf userId).isSome → ∀ time ∈ world.adminRoleExpiresAt userId, world.clock < time

theorem summarised_iff {world : World} {userId : String} :
    world.Summarised userId ↔ world.Backed userId ∧ world.Lasts userId := by
  constructor
  · intro summarised
    refine ⟨fun role held => ?_, fun held time recorded => ?_⟩
    · obtain ⟨assignment, backs, -⟩ := summarised role held
      exact ⟨assignment, backs⟩
    · obtain ⟨role, held⟩ := Option.isSome_iff_exists.mp held
      obtain ⟨assignment, backs, fresh⟩ := summarised role held
      by_contra passed
      exact fresh ⟨time, backs.expiry.trans recorded, Int.not_lt.mp passed⟩
  · rintro ⟨backed, lasts⟩ role held
    obtain ⟨assignment, backs⟩ := backed role held
    refine ⟨assignment, backs, ?_⟩
    rintro ⟨time, expiry, passed⟩
    have later := lasts (Option.isSome_of_mem held) time (backs.expiry.symm.trans expiry)
    omega

/-- Users, assignments and expiries are as they were. -/
structure Same (world after : World) : Prop where
  users : after.users = world.users
  assignments : after.assignments = world.assignments
  expiries : after.adminRoleExpiresAt = world.adminRoleExpiresAt

end World

section Frames
variable {uuids : Uuids} {choice : Choice} {world after : World} {userId : String}

theorem World.Same.trans {later : World} (first : world.Same after) (second : after.Same later) :
    world.Same later :=
  ⟨second.users.trans first.users, second.assignments.trans first.assignments,
    second.expiries.trans first.expiries⟩

theorem World.Same.backs {role : String} {a : AdminRoleAssignment} (same : world.Same after)
    (backs : world.Backs userId role a) : after.Backs userId role a where
  member := same.assignments ▸ backs.member
  user := backs.user
  role := backs.role
  unrevoked := backs.unrevoked
  expiry := by rw [same.expiries, backs.expiry]

theorem World.Same.roleOf (same : world.Same after) (userId : String) :
    after.roleOf userId = world.roleOf userId := by
  rw [World.roleOf, World.roleOf, World.findUser, World.findUser, same.users]

theorem World.Same.backed (same : world.Same after) (backed : world.Backed userId) :
    after.Backed userId := by
  intro role held
  rw [same.roleOf] at held
  obtain ⟨assignment, backs⟩ := backed role held
  exact ⟨assignment, same.backs backs⟩

variable (uuids choice world) in
theorem exec_same (call : Call) (reads : call.Reads) :
    world.Same (exec uuids choice world call).2 := by
  rcases exec_state uuids choice world call with waited | carried
  · rw [waited]
    exact ⟨rfl, rfl, rfl⟩
  · rw [carried]
    cases call with
    | create _ | revoke _ _ _ | updateUser _ _ _ => exact reads.elim
    | _ => exact ⟨rfl, rfl, rfl⟩

theorem findUser_modifyUser (world : World) (id : String) {f : Auth.User → Auth.User}
    (named : ∀ user, (f user).id = user.id) (userId : String) :
    (world.modifyUser id f).findUser userId =
      if userId = id then (world.findUser userId).map f else world.findUser userId := by
  have ids : ∀ user : Auth.User, (if user.id = id then f user else user).id = user.id := by
    intro user
    split
    · exact named user
    · rfl
  simp only [World.findUser, World.modifyUser, List.find?_map, Function.comp_def, ids]
  cases found : world.users.find? (·.id = userId) with
  | none => split <;> rfl
  | some user =>
    have this : user.id = userId := by simpa using List.find?_some found
    simp only [Option.map_some, this]
    split <;> rfl

theorem roleOf_modifyUser (world : World) (id : String) (role : Option String) (userId : String) :
    (world.modifyUser id fun user => { user with adminRole := role }).roleOf userId =
      if userId = id then (world.findUser userId).bind fun _ => role else world.roleOf userId := by
  rw [World.roleOf, findUser_modifyUser world id (f := fun user => { user with adminRole := role })
    fun _ => rfl]
  split
  · rw [Option.bind_map]
    rfl
  · rfl

variable (uuids choice world) in
/-- What a write of a role leaves. -/
theorem exec_updateUser (id : String) (role : Option AdminRole) (expiresAt : Option Int) :
    world.Same (exec uuids choice world (.updateUser id role expiresAt)).2 ∨
      ∃ named, uuids.read id = some named ∧
        (exec uuids choice world (.updateUser id role expiresAt)).2 =
          (world.later choice.elapsed).modifyUser named fun user =>
            { user with adminRole := role.map AdminRole.value } := by
  rcases exec_state uuids choice world (.updateUser id role expiresAt) with waited | carried
  · left
    rw [waited]
    exact ⟨rfl, rfl, rfl⟩
  · rw [carried, World.perform, World.read]
    cases uuids.read id with
    | none => exact Or.inl ⟨rfl, rfl, rfl⟩
    | some named => exact Or.inr ⟨named, rfl, rfl⟩

/-- A role that is written, and an assignment behind it. -/
theorem World.Backs.modifyUser {role named : String} {f : Auth.User → Auth.User} {elapsed : Nat}
    {a : AdminRoleAssignment} (backs : world.Backs userId role a) :
    ((world.later elapsed).modifyUser named f).Backs userId role a :=
  ⟨backs.member, backs.user, backs.role, backs.unrevoked, backs.expiry⟩

/-- The user has the new role, one that is backed, or the old one. -/
theorem backed_updateUser {id : String} {role : Option AdminRole} {expiresAt : Option Int}
    (backed : world.Backed userId) (backs : uuids.read id = some userId →
      ∀ new ∈ role, ∃ a, world.Backs userId new.value a) :
    (exec uuids choice world (.updateUser id role expiresAt)).2.Backed userId := by
  rcases exec_updateUser uuids choice world id role expiresAt with
    same | ⟨named, read, written⟩
  · exact same.backed backed
  · rw [written]
    intro held member
    rw [roleOf_modifyUser] at member
    split at member
    · rename_i self
      subst self
      obtain ⟨user, -, this⟩ := Option.bind_eq_some_iff.mp member
      obtain ⟨new, given, rfl⟩ := Option.map_eq_some_iff.mp this
      obtain ⟨a, backing⟩ := backs read new given
      exact ⟨a, backing.modifyUser⟩
    · obtain ⟨a, backing⟩ := backed held member
      exact ⟨a, backing.modifyUser⟩

/-- A write that is carried out leaves the new role, whatever the old one was. -/
theorem backed_of_updateUser {id : String} {role : Option AdminRole} {expiresAt : Option Int}
    (performed : choice.outcome = .performed) (read : uuids.read id = some userId)
    (backs : ∀ new ∈ role, ∃ a, world.Backs userId new.value a) :
    (exec uuids choice world (.updateUser id role expiresAt)).2.Backed userId := by
  have written : (exec uuids choice world (.updateUser id role expiresAt)).2 =
      (world.later choice.elapsed).modifyUser userId fun user =>
        { user with adminRole := role.map AdminRole.value } := by
    simp only [exec, Call.mayFail, performed, World.perform, World.read, read, World.later]
  rw [written]
  intro held member
  rw [roleOf_modifyUser, if_pos rfl] at member
  obtain ⟨user, -, this⟩ := Option.bind_eq_some_iff.mp member
  obtain ⟨new, given, rfl⟩ := Option.map_eq_some_iff.mp this
  obtain ⟨a, backing⟩ := backs new given
  exact ⟨a, backing.modifyUser⟩

variable (uuids choice world) in
theorem exec_revoke_frame (id : Nat) (revokedBy revokeReason : String) :
    (exec uuids choice world (.revoke id revokedBy revokeReason)).2.users = world.users ∧
      (exec uuids choice world (.revoke id revokedBy revokeReason)).2.adminRoleExpiresAt =
        world.adminRoleExpiresAt := by
  rcases exec_state uuids choice world (.revoke id revokedBy revokeReason) with waited | carried
  · rw [waited]
    exact ⟨rfl, rfl⟩
  · rw [carried, World.perform]
    cases World.read uuids revokedBy with
    | error e => exact ⟨rfl, rfl⟩
    | ok reader =>
      simp only
      split <;> exact ⟨rfl, rfl⟩

variable (uuids choice world) in
/-- What an insertion leaves, and what it answers. -/
theorem exec_create_cases (data : NewAdminRoleAssignment) :
    world.Same (exec uuids choice world (.create data)).2 ∧
        (∀ row, (exec uuids choice world (.create data)).1 ≠ .ok row) ∨
      ∃ row, (exec uuids choice world (.create data)).2.users = world.users ∧
        (exec uuids choice world (.create data)).2.adminRoleExpiresAt = world.adminRoleExpiresAt ∧
        (exec uuids choice world (.create data)).2.assignments.rows =
          world.assignments.rows ++ [row] ∧
        uuids.read data.userId = some row.userId ∧ row.adminRole = data.adminRole ∧
        row.revokedAt = none ∧ row.expiresAt = some data.expiresAt.val ∧
        ∀ other, (exec uuids choice world (.create data)).1 = .ok other → other = row := by
  by_cases answered : ∃ row, (exec uuids choice world (.create data)).1 = .ok row
  · obtain ⟨row, answered⟩ := answered
    have carried := exec_answers answered
    rw [carried, World.perform] at answered ⊢
    cases named : (world.later choice.elapsed).references uuids data with
    | error e =>
      rw [named] at answered
      cases answered
    | ok users =>
      exact Or.inr ⟨_, rfl, rfl, rfl, references_read named, rfl, rfl, rfl, fun other same =>
        (Except.ok.inj same).symm⟩
  · have nothing := not_exists.mp answered
    rcases exec_state uuids choice world (.create data) with waited | carried
    · left
      rw [waited]
      exact ⟨⟨rfl, rfl, rfl⟩, nothing⟩
    · rw [carried, World.perform]
      cases named : (world.later choice.elapsed).references uuids data with
      | error e => exact Or.inl ⟨⟨rfl, rfl, rfl⟩, nothing⟩
      | ok users =>
        exact Or.inr ⟨_, rfl, rfl, rfl, references_read named, rfl, rfl, rfl, fun other same =>
          absurd same (nothing other)⟩

variable (uuids choice) in
theorem backed_create (data : NewAdminRoleAssignment) (backed : world.Backed userId) :
    (exec uuids choice world (.create data)).2.Backed userId := by
  rcases exec_create_cases uuids choice world data with
    ⟨same, -⟩ | ⟨row, users, expiries, rows, -⟩
  · exact same.backed backed
  · intro role held
    rw [World.roleOf, World.findUser, users] at held
    obtain ⟨a, backs⟩ := backed role held
    refine ⟨a, ?_, backs.user, backs.role, backs.unrevoked, ?_⟩
    · rw [rows]
      exact List.mem_append_left _ backs.member
    · rw [expiries]
      exact backs.expiry

/-- A revocation of another user's assignment. -/
theorem backed_revoke {id : Nat} {revokedBy revokeReason : String}
    (others : ∀ a ∈ world.assignments.rows, a.id = id → a.userId ≠ userId)
    (backed : world.Backed userId) :
    (exec uuids choice world (.revoke id revokedBy revokeReason)).2.Backed userId := by
  have left := exec_revoke uuids choice world id revokedBy
    revokeReason
  obtain ⟨users, expiries⟩ := exec_revoke_frame uuids choice world id revokedBy revokeReason
  intro role held
  rw [World.roleOf, World.findUser, users] at held
  obtain ⟨a, backs⟩ := backed role held
  refine ⟨a, ?_, backs.user, backs.role, backs.unrevoked, by rw [expiries]; exact backs.expiry⟩
  rcases left with same | ⟨time, revoker, revoked⟩
  · rw [same]
    exact backs.member
  · rw [revoked]
    have other : a.id ≠ id := fun same => others a backs.member same backs.user
    exact List.mem_map.mpr ⟨a, backs.member, if_neg other⟩

end Frames

section Rules
variable (uuids : Uuids) (userId : String)

/-- A role is written to the user only with the expiry that is on record. -/
def Matching (_ : Choice) (world : World) : Call → Prop
  | .updateUser id role expiresAt => role.isSome → uuids.read id = some userId →
      expiresAt = world.adminRoleExpiresAt userId
  | _ => True

instance (choice : Choice) (world : World) :
    (call : Call) → Decidable (Matching uuids userId choice world call)
  | .updateUser .. => inferInstanceAs (Decidable (_ → _ → _))
  | .now | .findUser _ | .create _ | .findActiveByUserAndRole .. | .findAll .. | .revoke ..
  | .countByRole | .findExpired | .emit _ => .isTrue trivial

variable {uuids userId} {ok : Choice → World → Call → Prop} {world : World} {α β : Type}

/-- The execution, where every call meets the condition. -/
abbrev run (uuids : Uuids) (ok : Choice → World → Call → Prop) :
    Program.OpSpec Call Call.Answer World := Program.assuming (exec uuids) ok

theorem run_monotone : (run uuids ok).Monotone := Program.assuming_monotone _ _

/-- Calls that write neither users nor assignments. -/
theorem wpE_still {p : Method α} {Q : Except Exception α → World → Prop}
    (only : OnlyE Call.Reads p) (ends : ∀ result after, world.Same after → Q result after) :
    wpE (run uuids ok) p Q world := by
  have same : wpE (run uuids ok) p (fun _ after => world.Same after) world :=
    only.only.wp_assuming (fun _ _ _ reads before => before.trans (exec_same uuids _ _ _ reads))
      ⟨rfl, rfl, rfl⟩
  exact wpE_mono run_monotone ends same

/-- One call, and what it answers. -/
theorem wpE_call {op : Call} {next : op.Value → Method β}
    {Q : Except Exception β → World → Prop}
    (goes : ∀ choice value, ok choice world op → (exec uuids choice world op).1 = .ok value →
      wpE (run uuids ok) (next value) Q (exec uuids choice world op).2)
    (thrown : ∀ choice e, ok choice world op → (exec uuids choice world op).1 = .error e →
      Q (.error e) (exec uuids choice world op).2) :
    wpE (run uuids ok) (call op >>= next) Q world := by
  rw [wpE_bind]
  intro choice met
  simp only [Program.wp_done]
  cases answered : (exec uuids choice world op).1 with
  | ok value => exact goes choice value met answered
  | error e => exact thrown choice e met answered

end Rules

section Operations
variable {uuids : Uuids} {userId : String} {world : World} {β : Type} (settings : Settings)

theorem wpE_update {id : String} {role : Option AdminRole} {expiresAt : Option Int}
    (backs : uuids.read id = some userId → ∀ new ∈ role,
      expiresAt = world.adminRoleExpiresAt userId → ∃ a, world.Backs userId new.value a)
    (backed : world.Backed userId) :
    wpE (run uuids (Matching uuids userId)) (UsersService.update id role expiresAt)
      (fun _ after => after.Backed userId) world := by
  have written (choice : Choice)
      (matching : Matching uuids userId choice world (.updateUser id role expiresAt)) :
      (exec uuids choice world (.updateUser id role expiresAt)).2.Backed userId :=
    backed_updateUser backed fun read new given =>
      backs read new given (matching (Option.isSome_of_mem given) read)
  refine wpE_call (fun choice found matching _ => ?_) fun choice e matching _ =>
    written choice matching
  cases found with
  | none => exact written choice matching
  | some user => exact written choice matching

/-- An insertion and the write of its role. -/
theorem wpE_grant {data : NewAdminRoleAssignment} {rest : AdminRoleAssignment → Method β}
    (reads : ∀ row, OnlyE Call.Reads (rest row)) (backed : world.Backed userId) :
    wpE (run uuids (Matching uuids userId)) (do
      let row ← call (.create data)
      UsersService.update data.userId (some data.adminRole) (some data.expiresAt)
      rest row) (fun _ after => after.Backed userId) world := by
  refine wpE_call (fun choice row _ answered => ?_) fun choice e _ _ =>
    backed_create uuids choice data backed
  refine wpE_seq run_monotone (wpE_update ?_ (backed_create uuids choice data backed))
    (fun _ _ kept => kept) fun _ _ kept => wpE_still (reads row) fun _ _ same => same.backed kept
  rintro read new ⟨⟩ recorded
  rcases exec_create_cases uuids choice world data with
    ⟨-, nothing⟩ | ⟨row', -, -, rows, user, role, unrevoked, expiry, -⟩
  · exact absurd answered (nothing row)
  · refine ⟨row', ?_, ?_, congrArg AdminRole.value role, unrevoked, expiry.trans recorded⟩
    · rw [rows]
      exact List.mem_append_right _ (List.mem_singleton_self row')
    · exact Option.some.inj (user.symm.trans read)

namespace AdminRolesService

theorem assertAssignable_reads (user : String) (adminRole : AdminRole) :
    OnlyE Call.Reads (assertAssignable user adminRole) := by
  refine OnlyE.bind (onlyE_call trivial) fun found => ?_
  cases found with
  | some assignment => exact onlyE_throw _
  | none =>
    simp only
    split
    · refine OnlyE.bind (onlyE_call trivial) fun count => ?_
      split
      · exact onlyE_throw _
      · exact onlyE_pure _
    · exact onlyE_pure _

theorem assignRole_backed (assignedById : String) (input : AssignAdminRoleInput)
    (backed : world.Backed userId) :
    wpE (run uuids (Matching uuids userId)) (assignRole settings assignedById input)
      (fun _ after => after.Backed userId) world := by
  have still {α : Type} {p : Method α} {w : World} (only : OnlyE Call.Reads p)
      (before : w.Backed userId) : wpE (run uuids (Matching uuids userId)) p
        (fun _ after => after.Backed userId) w :=
    wpE_still only fun _ _ same => same.backed before
  refine wpE_seq run_monotone (still (UsersService.findById_reads _) backed)
    (fun _ _ kept => kept) fun targetUser _ kept => ?_
  split
  · exact kept
  refine wpE_seq run_monotone (still (assertAssignable_reads _ _) kept) (fun _ _ kept => kept)
    fun _ _ kept => ?_
  refine wpE_seq run_monotone (still (finalExpiresAt_reads _ _) kept) (fun _ _ kept => kept)
    fun expiresAt _ kept => ?_
  exact wpE_grant (fun row => OnlyE.bind (onlyE_call trivial) fun _ => onlyE_pure _) kept

theorem breakGlass_backed (user : String) (dto : BreakGlassInput) (backed : world.Backed userId) :
    wpE (run uuids (Matching uuids userId)) (breakGlass settings user dto)
      (fun _ after => after.Backed userId) world := by
  refine wpE_seq run_monotone (wpE_still (UsersService.findById_reads _)
    fun _ _ same => same.backed backed) (fun _ _ kept => kept) fun found _ kept => ?_
  split
  · exact kept
  split
  · exact kept
  have still (choice : Choice) (op : Call) {w : World} (reads : op.Reads)
      (before : w.Backed userId) : (exec uuids choice w op).2.Backed userId :=
    (exec_same uuids choice w op reads).backed before
  refine wpE_call (fun choice existing _ _ => ?_) fun choice _ _ _ => still choice _ trivial kept
  have checked := still choice (.findActiveByUserAndRole user dto.adminRole) trivial kept
  cases existing with
  | some assignment => exact checked
  | none =>
    simp only
    split
    · exact checked
    refine wpE_call (fun later now _ _ => ?_) fun later _ _ _ => still later .now trivial checked
    have timed := still later .now trivial checked
    refine wpE_liftM_bind _ (fun _ _ => timed) fun expiresAt _ => ?_
    exact wpE_grant (fun row => OnlyE.bind (onlyE_call trivial) fun _ => onlyE_pure _) timed

end AdminRolesService

section Revocations

/-- An assignment that is found is one of the user's. -/
theorem found_active {choice : Choice} {user : String} {adminRole : AdminRole}
    {found : AdminRoleAssignment} (answered :
      (exec uuids choice world (.findActiveByUserAndRole user adminRole)).1 = .ok (some found)) :
    found ∈ world.assignments.rows ∧ uuids.read user = some found.userId := by
  rw [exec_answers answered, World.perform, World.read] at answered
  cases named : uuids.read user with
  | none =>
    rw [named] at answered
    cases answered
  | some id =>
    rw [named] at answered
    simp only [Except.map, Except.ok.injEq] at answered
    have member := List.mem_of_mem_head? answered
    rw [World.visited, List.mem_insertionSort, List.mem_filter, decide_eq_true_eq] at member
    exact ⟨member.1, by rw [member.2.1]⟩

/-- What is left after a revocation does not matter to the other users. -/
theorem AdminRolesService.revokeRole_others (revokedById : String) (input : RevokeAdminRoleInput)
    (other : uuids.read input.userId ≠ some userId) (backed : world.Backed userId) :
    wpE (run uuids (Matching uuids userId)) (revokeRole revokedById input)
      (fun _ after => after.Backed userId) world := by
  have looked (choice : Choice) := exec_same uuids choice world
    (.findActiveByUserAndRole input.userId input.adminRole) trivial
  refine wpE_call (fun choice found _ answered => ?_) fun choice _ _ _ =>
    (looked choice).backed backed
  have kept := (looked choice).backed backed
  cases found with
  | none => exact kept
  | some found =>
    obtain ⟨member, named⟩ := found_active answered
    have others : ∀ a ∈ world.assignments.rows, a.id = found.id → a.userId ≠ userId := by
      rintro a inside same rfl
      have equal := List.inj_on_of_nodup_map world.assignments.unique inside member same
      exact other (equal ▸ named)
    rw [← (looked choice).assignments] at others
    refine wpE_call (fun later revoked _ _ => ?_) fun _ _ _ _ => backed_revoke others kept
    cases revoked with
    | none => exact backed_revoke others kept
    | some revoked =>
      refine wpE_seq run_monotone (wpE_still (remainingRole_reads _)
        fun _ _ same => same.backed (backed_revoke others kept)) (fun _ _ kept => kept)
        fun remaining _ kept => ?_
      have updated : wpE (run uuids (Matching uuids userId))
          (UsersService.update input.userId remaining.1 remaining.2)
          (fun _ after => after.Backed userId) _ := wpE_update (fun read => absurd read other) kept
      refine wpE_seq run_monotone updated (fun _ _ kept => kept) fun _ _ kept => ?_
      refine wpE_still ?_ fun _ _ same => same.backed kept
      exact OnlyE.bind (onlyE_call trivial) fun _ =>
        OnlyE.bind (UsersService.findById_reads _) fun _ => onlyE_pure _

/-- Nobody can revoke on behalf of the system: its name is no id. -/
theorem exec_revoke_system (choice : Choice) (id : Nat) (revokeReason : String) :
    world.Same (exec uuids choice world (.revoke id "system" revokeReason)).2 ∧
      ∀ revoked, (exec uuids choice world (.revoke id "system" revokeReason)).1 ≠ .ok revoked := by
  have refused : (world.later choice.elapsed).perform uuids choice
      (.revoke id "system" revokeReason) =
        (.error (.drizzle .invalidText), world.later choice.elapsed) := by
    simp only [World.perform, World.read, uuids.read_system]
  constructor
  · rcases exec_state uuids choice world (.revoke id "system" revokeReason) with waited | carried
    · rw [waited]
      exact ⟨rfl, rfl, rfl⟩
    · rw [carried, refused]
      exact ⟨rfl, rfl, rfl⟩
  · intro revoked answered
    rw [exec_answers answered, refused] at answered
    cases answered

namespace AdminRolesService

theorem revokeRole_system (input : RevokeAdminRoleInput) (backed : world.Backed userId) :
    wpE (run uuids (Matching uuids userId)) (revokeRole "system" input)
      (fun _ after => after.Backed userId) world := by
  have looked (choice : Choice) := (exec_same uuids choice world
    (.findActiveByUserAndRole input.userId input.adminRole) trivial).backed backed
  refine wpE_call (fun choice found _ _ => ?_) fun choice _ _ _ => looked choice
  cases found with
  | none => exact looked choice
  | some found =>
    refine wpE_call (fun later revoked _ answered => ?_) fun later _ _ _ => ?_
    · exact absurd answered ((exec_revoke_system later _ _).2 revoked)
    · exact (exec_revoke_system later _ _).1.backed (looked choice)

theorem revokeExpired_backed (expired : List AdminRoleAssignment) (backed : world.Backed userId) :
    wpE (run uuids (Matching uuids userId)) (revokeExpired expired)
      (fun _ after => after.Backed userId) world := by
  induction expired generalizing world with
  | nil => exact backed
  | cons assignment rest ih =>
    refine wpE_seq run_monotone (revokeRole_system _ backed) (fun _ _ kept => kept)
      fun _ _ kept => ?_
    exact wpE_seq run_monotone (ih kept) (fun _ _ kept => kept) fun _ _ kept => kept

theorem expireRoles_backed (backed : world.Backed userId) :
    wpE (run uuids (Matching uuids userId)) expireRoles (fun _ after => after.Backed userId)
      world := by
  have looked (choice : Choice) :=
    (exec_same uuids choice world .findExpired trivial).backed backed
  exact wpE_call (fun choice expired _ _ => revokeExpired_backed expired (looked choice))
    fun choice _ _ _ => looked choice

end AdminRolesService

variable (uuids userId) in
/-- Every call is carried out, and meets the condition. -/
def Diligent (choice : Choice) (world : World) (call : Call) : Prop :=
  choice.outcome = .performed ∧ Matching uuids userId choice world call

theorem exec_performed {choice : Choice} (performed : choice.outcome = .performed) (call : Call) :
    exec uuids choice world call = (world.later choice.elapsed).perform uuids choice call := by
  rw [exec, performed]
  cases call.mayFail <;> rfl

/-- What a page holds. -/
theorem mem_findAll {rank : Nat → Nat} {adminRole : Option AdminRole} {limit : Nat}
    {a : AdminRoleAssignment} (member : a ∈ (World.newestFirst rank ((world.active userId).filter
      fun a => adminRole.all (a.adminRole = ·))).take limit) :
    a ∈ world.assignments.rows ∧ a.userId = userId ∧ a.revokedAt = none ∧
      ∀ role ∈ adminRole, a.adminRole = role := by
  have inside := List.mem_of_mem_take member
  rw [World.newestFirst, List.mem_insertionSort, List.mem_filter, World.active, List.mem_filter,
    decide_eq_true_eq] at inside
  refine ⟨inside.1.1, inside.1.2.1, inside.1.2.2, fun role given => ?_⟩
  cases given
  simpa using inside.2

/-- The role that is left, and the expiry of one of its assignments. -/
def World.Leaves (world : World) (userId : String) (remaining : Option AdminRole × Option Int) :
    Prop :=
  ∀ new ∈ remaining.1, ∃ a ∈ world.assignments.rows, a.userId = userId ∧ a.adminRole = new ∧
    a.revokedAt = none ∧ a.expiresAt = remaining.2

/-- The row of an assignment that was found is there to be revoked. -/
theorem exec_revoke_found {choice : Choice} {found : AdminRoleAssignment}
    (there : found ∈ world.assignments.rows) {revokedBy revokeReason : String} :
    (exec uuids choice world (.revoke found.id revokedBy revokeReason)).1 ≠ .ok none := by
  intro answered
  have row : world.assignments.find? found.id = some found :=
    Table.find?_eq_some_iff.mpr ⟨there, rfl⟩
  rw [exec_answers answered, World.perform] at answered
  cases reader : World.read uuids revokedBy with
  | error e =>
    rw [reader] at answered
    cases answered
  | ok revoker =>
    simp only [reader] at answered
    split at answered
    · cases answered
    · have missing := Except.ok.inj answered
      have modified := Table.find?_modify_self (t := world.assignments) (k := found.id)
        (f := (·.revoke (world.later choice.elapsed).clock revoker revokeReason)) fun _ => rfl
      have missing := modified.symm.trans missing
      rw [row] at missing
      cases missing

/-- A revocation that is refused. -/
theorem exec_revoke_refused {choice : Choice} (performed : choice.outcome = .performed) {id : Nat}
    {revokedBy revokeReason : String} {e : Exception}
    (refused : (exec uuids choice world (.revoke id revokedBy revokeReason)).1 = .error e) :
    world.Same (exec uuids choice world (.revoke id revokedBy revokeReason)).2 := by
  rw [exec_performed performed, World.perform] at refused ⊢
  cases reader : World.read uuids revokedBy with
  | error e => exact ⟨rfl, rfl, rfl⟩
  | ok revoker =>
    simp only [reader] at refused ⊢
    split at refused
    · rename_i missing
      rw [if_pos missing]
      exact ⟨rfl, rfl, rfl⟩
    · cases refused

namespace AdminRolesService

theorem wpE_getRoleExpiry {user : String} (named : uuids.read user = some userId)
    {role : AdminRole} {a : AdminRoleAssignment} (member : a ∈ world.assignments.rows)
    (own : a.Grants userId role) :
    wpE (run uuids (Diligent uuids userId)) (getRoleExpiry user role)
      (fun result after => world.Same after ∧ ∃ expiry, result = .ok expiry ∧
        after.Leaves userId (some role, expiry)) world := by
  refine wpE_call (fun choice found met answered => ?_) fun choice e met answered => ?_
  · rw [exec_performed met.1] at answered ⊢
    simp only [World.perform, World.read, named, Except.map, Except.ok.injEq] at answered ⊢
    cases found with
    | nil =>
      have empty : ((world.later choice.elapsed).active userId).filter
          (fun b => (some role).all (b.adminRole = ·)) = [] := by
        rcases List.take_eq_nil_iff.mp answered with never | sorted
        · cases never
        · have long := congrArg List.length sorted
          rw [World.newestFirst, List.length_insertionSort] at long
          exact List.length_eq_zero_iff.mp long
      have inside : a ∈ ((world.later choice.elapsed).active userId).filter
          (fun b => (some role).all (b.adminRole = ·)) := by
        rw [List.mem_filter, World.active, List.mem_filter, decide_eq_true_eq]
        exact ⟨⟨member, own.1, own.2.2⟩, by simp [own.2.1]⟩
      rw [empty] at inside
      cases inside
    | cons first rest =>
      have inside : first ∈ (World.newestFirst choice.rank
          (((world.later choice.elapsed).active userId).filter
            fun b => (some role).all (b.adminRole = ·))).take 1 := by
        rw [answered]
        exact List.mem_cons_self
      obtain ⟨there, its, unrevoked, same⟩ := mem_findAll inside
      refine ⟨⟨rfl, rfl, rfl⟩, _, rfl, ?_⟩
      rintro new ⟨⟩
      exact ⟨first, there, its, same role rfl, unrevoked, by rw [if_pos unrevoked]⟩
  · rw [exec_performed met.1] at answered
    simp only [World.perform, World.read, named, Except.map] at answered
    cases answered

theorem wpE_remainingRole {user : String} (named : uuids.read user = some userId) :
    wpE (run uuids (Diligent uuids userId)) (remainingRole user)
      (fun result after => world.Same after ∧ ∃ remaining, result = .ok remaining ∧
        after.Leaves userId remaining) world := by
  have roles : wpE (run uuids (Diligent uuids userId)) (getUserActiveRoles user)
      (fun result after => world.Same after ∧ ∃ roles, result = .ok roles ∧
        ∀ role ∈ roles, ∃ a ∈ world.assignments.rows, a.Grants userId role) world := by
    refine wpE_call (fun choice found met answered => ?_) fun choice e met answered => ?_
    · rw [exec_performed met.1] at answered ⊢
      simp only [World.perform, World.read, named, Except.map, Except.ok.injEq] at answered ⊢
      refine ⟨⟨rfl, rfl, rfl⟩, _, rfl, fun role listed => ?_⟩
      obtain ⟨a, inside, rfl⟩ := List.mem_map.mp listed
      rw [← answered] at inside
      obtain ⟨there, its, unrevoked, -⟩ := mem_findAll inside
      exact ⟨a, there, its, rfl, unrevoked⟩
    · rw [exec_performed met.1] at answered
      simp only [World.perform, World.read, named, Except.map] at answered
      cases answered
  refine wpE_seq run_monotone roles (fun _ _ never => ?_) ?_
  · obtain ⟨-, roles, thrown, -⟩ := never
    cases thrown
  · rintro listed after ⟨same, roles, answered, grants⟩
    cases answered
    cases listed with
    | nil => exact ⟨same, _, rfl, by rintro _ ⟨⟩⟩
    | cons role rest =>
      obtain ⟨a, there, own⟩ := grants role List.mem_cons_self
      refine wpE_seq run_monotone (wpE_getRoleExpiry named (same.assignments ▸ there) own)
        (fun _ _ never => ?_) ?_
      · obtain ⟨-, expiry, thrown, -⟩ := never
        cases thrown
      · rintro expiry later ⟨same', expiry', answered, leaves⟩
        cases answered
        exact ⟨same.trans same', _, rfl, leaves⟩

/-- A write that is carried out needs nothing of the role before. -/
theorem wpE_update_own {user : String} (named : uuids.read user = some userId)
    {role : Option AdminRole} {expiresAt : Option Int}
    (leaves : world.Leaves userId (role, expiresAt)) :
    wpE (run uuids (Diligent uuids userId)) (UsersService.update user role expiresAt)
      (fun _ after => after.Backed userId) world := by
  have written (choice : Choice)
      (met : Diligent uuids userId choice world (.updateUser user role expiresAt)) :
      (exec uuids choice world (.updateUser user role expiresAt)).2.Backed userId := by
    refine backed_of_updateUser met.1 named fun new given => ?_
    obtain ⟨a, member, its, same, unrevoked, expiry⟩ := leaves new given
    have recorded := met.2 (Option.isSome_of_mem given) named
    exact ⟨a, member, its, congrArg AdminRole.value same, unrevoked, expiry.trans recorded⟩
  refine wpE_call (fun choice found met _ => ?_) fun choice e met _ => written choice met
  cases found with
  | none => exact written choice met
  | some user => exact written choice met

/-- A revocation whose calls are all carried out. -/
theorem revokeRole_own (revokedById : String) (input : RevokeAdminRoleInput)
    (named : uuids.read input.userId = some userId) (backed : world.Backed userId) :
    wpE (run uuids (Diligent uuids userId)) (revokeRole revokedById input)
      (fun _ after => after.Backed userId) world := by
  have looked (choice : Choice) := exec_same uuids choice world
    (.findActiveByUserAndRole input.userId input.adminRole) trivial
  refine wpE_call (fun choice found _ answered => ?_) fun choice _ _ _ =>
    (looked choice).backed backed
  have kept := (looked choice).backed backed
  cases found with
  | none => exact kept
  | some found =>
    have there : found ∈ (exec uuids choice world
        (.findActiveByUserAndRole input.userId input.adminRole)).2.assignments.rows := by
      rw [(looked choice).assignments]
      exact (found_active answered).1
    refine wpE_call (fun later revoked met answered => ?_) fun later e met answered => ?_
    · cases revoked with
      | none => exact absurd answered (exec_revoke_found there)
      | some revoked =>
        refine wpE_seq run_monotone (wpE_remainingRole named) (fun _ _ never => ?_) ?_
        · obtain ⟨-, remaining, thrown, -⟩ := never
          cases thrown
        · rintro _ after ⟨-, remaining, ⟨⟩, leaves⟩
          refine wpE_seq run_monotone (wpE_update_own named leaves) (fun _ _ kept => kept)
            fun _ _ kept => wpE_still ?_ fun _ _ same => same.backed kept
          exact OnlyE.bind (onlyE_call trivial) fun _ =>
            OnlyE.bind (UsersService.findById_reads _) fun _ => onlyE_pure _
    · exact (exec_revoke_refused met.1 answered).backed kept

end AdminRolesService
end Revocations

/-- One call of the service, with what the environment decides during it. -/
structure Request where
  operation : Operation
  choices : Nat → Choice

/-- The revocation of a role of the user. -/
def Operation.Revokes (uuids : Uuids) (userId : String) : Operation → Prop
  | .revokeRole _ input => uuids.read input.userId = some userId
  | _ => False

/-- Roles are written to the user with the expiry on record, and no part of a revocation of one of
his roles fails. -/
structure Request.Sound (uuids : Uuids) (settings : Settings) (userId : String) (world : World)
    (request : Request) : Prop where
  matching : Program.Each (exec uuids) (Matching uuids userId) (request.operation.run settings).run
    request.choices world
  performed : request.operation.Revokes uuids userId →
    ∀ n, (request.choices n).outcome = .performed

def step (uuids : Uuids) (settings : Settings) (world : World) (request : Request) : World :=
  ((request.operation.run settings).run.eval (exec uuids) request.choices world).2

theorem Operation.backed {operation : Operation} (others : ¬ operation.Revokes uuids userId)
    (backed : world.Backed userId) :
    wpE (Admin.run uuids (Matching uuids userId)) (operation.run settings)
      (fun _ after => after.Backed userId) world := by
  have alone {α : Type} {p : Method α}
      (first : wpE (Admin.run uuids (Matching uuids userId)) p (fun _ after => after.Backed userId)
        world) :
      wpE (Admin.run uuids (Matching uuids userId)) (do let _ ← p)
        (fun _ after => after.Backed userId) world :=
    wpE_seq run_monotone first (fun _ _ kept => kept) fun _ _ kept => kept
  cases operation with
  | assignRole assignedById input =>
    exact alone (AdminRolesService.assignRole_backed settings assignedById input backed)
  | breakGlass user dto =>
    exact alone (AdminRolesService.breakGlass_backed settings user dto backed)
  | revokeRole revokedById input =>
    exact alone (AdminRolesService.revokeRole_others revokedById input others backed)
  | expireRoles => exact alone (AdminRolesService.expireRoles_backed backed)
  | handleExpiredRoles =>
    have expired : wpE (Admin.run uuids (Matching uuids userId))
        (do let _ ← AdminRolesService.expireRoles)
        (fun _ after => after.Backed userId) world :=
      alone (AdminRolesService.expireRoles_backed backed)
    simp only [Operation.run, AdminRolesService.handleExpiredRoles, wpE_tryCatch]
    refine wpE_mono run_monotone (fun result after kept => ?_) expired
    cases result with
    | ok _ => exact kept
    | error _ => exact kept

theorem step_backed {request : Request} (backed : world.Backed userId)
    (sound : request.Sound uuids settings userId world) :
    (step uuids settings world request).Backed userId := by
  by_cases own : request.operation.Revokes uuids userId
  · obtain ⟨operation, choices⟩ := request
    cases operation with
    | revokeRole revokedById input =>
      have revoked : wpE (Admin.run uuids (Diligent uuids userId))
          (Operation.run settings (.revokeRole revokedById input))
          (fun _ after => after.Backed userId) world :=
        wpE_seq run_monotone (AdminRolesService.revokeRole_own revokedById input own backed)
          (fun _ _ kept => kept) fun _ _ kept => kept
      exact Program.eval_of_assuming revoked (sound.matching.and_choices (sound.performed own))
    | _ => exact own.elim
  · exact Program.eval_of_assuming (Operation.backed settings own backed) sound.matching

/-- No statement of the service writes an expiry to a user. -/
theorem exec_expiries (choice : Choice) (call : Call) :
    (exec uuids choice world call).2.adminRoleExpiresAt = world.adminRoleExpiresAt := by
  cases call with
  | create data =>
    rcases exec_create_cases uuids choice world data with
      ⟨same, -⟩ | ⟨row, -, expiries, -⟩
    · exact same.expiries
    · exact expiries
  | revoke id revokedBy revokeReason =>
    exact (exec_revoke_frame uuids choice world id revokedBy revokeReason).2
  | updateUser id role expiresAt =>
    rcases exec_updateUser uuids choice world id role expiresAt with same | ⟨named, -, written⟩
    · exact same.expiries
    · exact (congrArg World.adminRoleExpiresAt written).trans rfl
  | now => exact (exec_same uuids choice world .now trivial).expiries
  | countByRole => exact (exec_same uuids choice world .countByRole trivial).expiries
  | findExpired => exact (exec_same uuids choice world .findExpired trivial).expiries
  | findUser id => exact (exec_same uuids choice world (.findUser id) trivial).expiries
  | findActiveByUserAndRole userId adminRole =>
    exact (exec_same uuids choice world (.findActiveByUserAndRole userId adminRole)
      trivial).expiries
  | findAll userId adminRole limit =>
    exact (exec_same uuids choice world (.findAll userId adminRole limit) trivial).expiries
  | emit event => exact (exec_same uuids choice world (.emit event) trivial).expiries

/-- The expiries on record. -/
def World.Records (expiries : String → Option Int) (world : World) : Prop :=
  world.adminRoleExpiresAt = expiries

theorem step_records {expiries : String → Option Int} (records : world.Records expiries)
    (request : Request) : (step uuids settings world request).Records expiries := by
  have keeps (choice : Choice) (before : World) (call : Call) (_ : True)
      (records : before.Records expiries) : (exec uuids choice before call).2.Records expiries :=
    (exec_expiries choice call).trans records
  exact (Program.only_any (request.operation.run settings).run).eval keeps request.choices records

variable (uuids userId) in
/-- Whenever a call has ended, the role of the user is one of his assignments with its expiry, and
it has not expired exactly if the expiry on record has not passed, which no call ever changes. -/
theorem summarised_iff_lasts {start : World} (backed : start.Backed userId)
    (requests : List Request)
    (sound : Trace.Meets (step uuids settings) (fun world request =>
      request.Sound uuids settings userId world) start requests) :
    (Trace.run (step uuids settings) start requests).Records start.adminRoleExpiresAt ∧
      (Trace.run (step uuids settings) start requests).Backed userId ∧
      ((Trace.run (step uuids settings) start requests).Summarised userId ↔
        (Trace.run (step uuids settings) start requests).Lasts userId) := by
  have preserves (world : World) (request : Request) (backed : world.Backed userId)
      (sound : request.Sound uuids settings userId world) :
      (fun world : World => world.Backed userId) (step uuids settings world request) :=
    step_backed settings backed sound
  have kept : (Trace.run (step uuids settings) start requests).Backed userId :=
    Trace.run_invariant preserves backed sound
  have recorded : (Trace.run (step uuids settings) start requests).Records
      start.adminRoleExpiresAt := by
    have keeps (world : World) (request : Request)
        (records : world.Records start.adminRoleExpiresAt) :
        (step uuids settings world request).Records start.adminRoleExpiresAt :=
      step_records settings records request
    have same : start.Records start.adminRoleExpiresAt := rfl
    exact Trace.run_invariant_always keeps same requests
  refine ⟨recorded, kept, ?_⟩
  rw [World.summarised_iff]
  exact and_iff_right kept

end Operations

section Examples

/-- The same call, with nothing that goes wrong. -/
def Operation.asked (operation : Operation) : Request := ⟨operation, fun _ => {}⟩

/-- A year from the start is on record for everyone. -/
def World.recorded (number : Nat) : World :=
  { World.admins number with adminRoleExpiresAt := fun _ => some (DEFAULT_EXPIRY_DAYS * DAY) }

theorem recorded_summarised :
    (Trace.run (step .plain .plain) (.recorded 3)
      [(Operation.assigns 1 .contentModerator).asked]).Summarised (adminId 1) := by
  have backed : (World.recorded 3).Backed (adminId 1) := by
    intro role held
    cases held
  have sound : (Operation.assigns 1 .contentModerator).asked.Sound .plain .plain (adminId 1)
      (.recorded 3) := ⟨by decide +kernel, fun never => never.elim⟩
  have both := summarised_iff_lasts .plain (adminId 1) .plain backed
    [(Operation.assigns 1 .contentModerator).asked] ⟨sound, trivial⟩
  exact both.2.2.mpr fun _ => by decide +kernel

/-- An admin breaks the glass, is given another role, and it is revoked a day later. -/
def dayWithRoles : List Request :=
  [Operation.asked (.breakGlass (adminId 1) ⟨.contentModerator, "The site is down", 15⟩),
    Operation.asked (.assigns 1 .financialOfficer),
    ⟨.revokeRole (adminId 0) ⟨adminId 1, .financialOfficer, "Not needed"⟩, fun n =>
      if n = 0 then { elapsed := 24 * 60 * 60 * 1000 } else {}⟩]

/-- An expiry is never recorded, and the role of someone who has none but expired ones is one of
them. -/
theorem summary_broken :
    ((Operation.assigns 1 .contentModerator).run .plain).run.eval (exec .plain) (fun _ => {})
        (.admins 3) =
      (.ok (), step .plain .plain (.admins 3) (Operation.assigns 1 .contentModerator).asked) ∧
    ¬ (step .plain .plain (.admins 3) (Operation.assigns 1 .contentModerator).asked).Summarised
      (adminId 1) ∧
    (Trace.run (step .plain .plain) (.admins 3) dayWithRoles).roleOf (adminId 1) =
      some "content_moderator" ∧
    ∀ a ∈ (Trace.run (step .plain .plain) (.admins 3) dayWithRoles).assignments.rows,
      a.revokedAt = none →
        a.Expired (Trace.run (step .plain .plain) (.admins 3) dayWithRoles).clock := by
  refine ⟨?_, ?_, by decide +kernel, by decide +kernel⟩
  · have ends : (((Operation.assigns 1 .contentModerator).run .plain).run.eval (exec .plain)
        (fun _ => {}) (.admins 3)).1 = .ok () := by decide +kernel
    exact Prod.ext ends rfl
  · intro summarised
    obtain ⟨a, backs, -⟩ := summarised "content_moderator" (by decide +kernel)
    have dated : ∀ b ∈ (step .plain .plain (.admins 3)
        (Operation.assigns 1 .contentModerator).asked).assignments.rows, b.expiresAt.isSome := by
      decide +kernel
    have expiry := dated a backs.member
    rw [backs.expiry] at expiry
    revert expiry
    decide +kernel

end Examples
end Admin
